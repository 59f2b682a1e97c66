/-!
# Well-formed UTF-8

How far a sequence of bytes is well-formed UTF-8. No character is written with more bytes than it
needs, surrogates are no characters, and none lies beyond U+10FFFF.
-/

set_option autoImplicit false

namespace CallPool.Text

/-- Whether a byte lies between two bounds. -/
def between (low high b : UInt8) : Bool := low ≤ b && b ≤ high

/-- Whether a byte can follow the first one of a character. -/
def isTail (b : UInt8) : Bool := between 0x80 0xBF b

/-- Whether two bytes are a character. -/
def isPair (a b : UInt8) : Bool := between 0xC2 0xDF a && isTail b

/-- Whether three bytes are a character. -/
def isTriple (a b c : UInt8) : Bool :=
  isTail c &&
    (if a = 0xE0 then between 0xA0 0xBF b
    else if a = 0xED then between 0x80 0x9F b
    else between 0xE1 0xEF a && isTail b)

/-- Whether four bytes are a character. -/
def isQuadruple (a b c d : UInt8) : Bool :=
  isTail c && isTail d &&
    (if a = 0xF0 then between 0x90 0xBF b
    else if a = 0xF4 then between 0x80 0x8F b
    else between 0xF1 0xF3 a && isTail b)

/-- How many bytes at the start of a sequence are whole characters. -/
def wellFormedLength : List UInt8 → Nat
  | [] => 0
  | [a] => if a < 0x80 then 1 else 0
  | [a, b] =>
    if a < 0x80 then 1 + wellFormedLength [b] else if isPair a b then 2 else 0
  | [a, b, c] =>
    if a < 0x80 then 1 + wellFormedLength [b, c]
    else if isPair a b then 2 + wellFormedLength [c]
    else if isTriple a b c then 3
    else 0
  | a :: b :: c :: d :: rest =>
    if a < 0x80 then 1 + wellFormedLength (b :: c :: d :: rest)
    else if isPair a b then 2 + wellFormedLength (c :: d :: rest)
    else if isTriple a b c then 3 + wellFormedLength (d :: rest)
    else if isQuadruple a b c d then 4 + wellFormedLength rest
    else 0

end CallPool.Text
