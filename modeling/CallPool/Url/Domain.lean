import CallPool.Text.Printable
import CallPool.Url.Address
import CallPool.Url.Punycode

/-!
# Domain names

A host name is decoded from its percent escapes, brought to lower case and the usual width, and
checked: it holds no character that has a meaning elsewhere in a URL, its characters outside ASCII
are printable and replace nothing, none of its labels starts with a joining character, and a label
in Punycode stands for one that would be written so. The full mapping of compatible characters, and
the rules for mixed directions and for joiners, are left out.
-/

set_option autoImplicit false

namespace CallPool.Url

/-- The value of two hexadecimal digits. -/
def hexPair? (a b : UInt8) : Option UInt8 := do
  let x ← digitValue? 16 (Char.ofNat a.toNat)
  let y ← digitValue? 16 (Char.ofNat b.toNat)
  some (UInt8.ofNat (x * 16 + y))

/-- The bytes with every percent sign and two hexadecimal digits replaced by the byte they
spell. -/
def percentDecode : List UInt8 → List UInt8
  | [] => []
  | [a] => [a]
  | [a, b] => [a, b]
  | a :: b :: c :: rest =>
    if a = 0x25 then
      match hexPair? b c with
      | some x => x :: percentDecode rest
      | none => a :: percentDecode (b :: c :: rest)
    else a :: percentDecode (b :: c :: rest)

/-- Whether a character is left out of a host name. -/
def isIgnored (c : Char) : Bool :=
  let n := c.toNat
  n == 0xAD || n == 0x34F || (0x180B ≤ n && n ≤ 0x180D) || n == 0x180F || n == 0x200B ||
    n == 0x2060 || n == 0x2064 || (0xFE00 ≤ n && n ≤ 0xFE0F) || n == 0xFEFF ||
    (0xE0100 ≤ n && n ≤ 0xE01EF)

/-- The character that stands for another in a host name: letters in lower case, and the usual
width. -/
def folded (c : Char) : Char :=
  let n := c.toNat
  if 0xFF01 ≤ n ∧ n ≤ 0xFF5E then (Char.ofNat (n - 0xFEE0)).toLower
  else if n = 0x3002 ∨ n = 0xFF61 then '.'
  else c.toLower

/-- Whether a character must not stand in a host name. -/
def isForbidden (c : Char) : Bool :=
  c.toNat ≤ 0x20 || c.toNat == 0x7F ||
    ['%', '#', '/', ':', '<', '>', '?', '@', '[', '\\', ']', '^', '|'].contains c

/-- Whether a character is ASCII. -/
def isAscii (c : Char) : Bool := c.toNat < 0x80

/-- Whether a character stands for an object or for something that could not be shown. -/
def isReplacement (c : Char) : Bool := c.toNat == 0xFFFC || c.toNat == 0xFFFD

/-- Whether a label consists of characters that may stand there. -/
def isLabel (label : List Char) : Bool :=
  (label.all fun c =>
    if isAscii c then !isForbidden c else Text.isPrintable c && !isReplacement c) &&
    !(label.head?.any Text.isJoining)

/-- Whether a label in Punycode, without its mark, stands for a label that needs it. -/
def isEncodedLabel (s : List Char) : Bool :=
  match Punycode.decode s with
  | none => false
  | some label =>
    isLabel label && !(label.all isAscii) && label.all fun c => !isIgnored c && folded c == c

/-- The host name that bytes spell, if they spell one. -/
def domain? (bytes : List UInt8) : Option (List Char) := do
  let s ← String.fromUTF8? ⟨(percentDecode bytes).toArray⟩
  let name := (s.toList.filter fun c => !isIgnored c).map folded
  let fits := (splitOn '.' name).all fun label =>
    match label with
    | 'x' :: 'n' :: '-' :: '-' :: encoded => isEncodedLabel encoded
    | label => isLabel label
  if fits then some name else none

end CallPool.Url
