import CallPool.Json.Fault
import CallPool.Text.Utf8

/-!
# Strings, read and written

`Quoted.string` says which text a string stands for. Units outside the range of surrogates stand
for their code point; a leading surrogate must be followed by a trailing one, written as an escape
too, and both stand for one code point. What the pieces give must be well-formed UTF-8.

`Quoted.ofString` is the spelling that a text is written with: quotes, backslashes and control
characters are escaped, by a letter where there is one, and all else stands for itself.
-/

set_option autoImplicit false

namespace CallPool.Json

/-- The unit that four hexadecimal digits spell. -/
def unitValue (a b c d : UInt8) : Nat :=
  let v := fun h => (hexValue? h).getD 0
  ((v a * 16 + v b) * 16 + v c) * 16 + v d

/-- The bytes of a code point in UTF-8. -/
def codePointBytes (n : Nat) : List UInt8 := String.utf8EncodeChar (Char.ofNat n)

/-- The code point of a pair of surrogates. -/
def pairValue (lead trail : Nat) : Nat := 0x10000 + (lead - 0xD800) * 0x400 + (trail - 0xDC00)

/-- The bytes that pieces stand for, the first of them at this place, and what is wrong with them
if they end there. `dangling` is what is wrong if they end behind a leading surrogate. -/
def Quoted.bytes (dangling : Nat → Fault) : Nat → Quoted → Except Fault (List UInt8)
  | _, [] => .ok []
  | place, .raw b :: rest => (Quoted.bytes dangling (place + 1) rest).map (b :: ·)
  | place, .short e :: rest => (Quoted.bytes dangling (place + 2) rest).map (e.byte :: ·)
  | place, .unit a b c d :: rest =>
    let n := unitValue a b c d
    if 0xDC00 ≤ n ∧ n ≤ 0xDFFF then .error ⟨.spelling .loneSurrogate, .at (place + 6)⟩
    else if 0xD800 ≤ n ∧ n ≤ 0xDBFF then
      match rest with
      | .unit a' b' c' d' :: rest' =>
        let m := unitValue a' b' c' d'
        if 0xDC00 ≤ m ∧ m ≤ 0xDFFF then
          (Quoted.bytes dangling (place + 12) rest').map (codePointBytes (pairValue n m) ++ ·)
        else .error ⟨.spelling .loneSurrogate, .at (place + 12)⟩
      | .short _ :: _ => .error ⟨.spelling .hexEscapeEnds, .at (place + 8)⟩
      | .raw _ :: _ => .error ⟨.spelling .hexEscapeEnds, .at (place + 7)⟩
      | [] => .error (dangling (place + 6))
    else (Quoted.bytes dangling (place + 6) rest).map (codePointBytes n ++ ·)

/-- A leading surrogate in front of the closing quote. -/
def danglingAtQuote (place : Nat) : Fault := ⟨.spelling .hexEscapeEnds, .at (place + 1)⟩

/-- The text that a string stands for, whose first piece is at this place. Bytes that are not
well-formed are reported as many bytes in front of the end of the string as there are from the first
of them on. -/
def Quoted.string (s : Quoted) (place : Nat) : Except Fault String :=
  match Quoted.bytes danglingAtQuote place s with
  | .error f => .error f
  | .ok bytes =>
    match String.fromUTF8? ⟨bytes.toArray⟩ with
    | some text => .ok text
    | none =>
      .error ⟨.spelling .codePointInvalid,
        .at (place + Quoted.innerWidth s + 1 - (bytes.length - Text.wellFormedLength bytes))⟩

/-- What is wrong with a string that stops after these pieces, the first of them at this place: a
fault in the pieces comes first. Where a leading surrogate needs another escape, a byte or a letter
that makes none ends the escape. -/
def Quoted.broken (s : Quoted) (place : Nat) (stop : StringStop) (b : Break) : Fault :=
  let dangling := fun _ =>
    match stop with
    | .letter | .control => ⟨.spelling .hexEscapeEnds, .at b.place⟩
    | .other => b.seen
  match Quoted.bytes dangling place s with
  | .error f => f
  | .ok _ => b.seen

/-- The lower-case hexadecimal digit of a value below 16. -/
def hexByte (n : Nat) : UInt8 := if n < 10 then UInt8.ofNat (0x30 + n) else UInt8.ofNat (0x57 + n)

/-- The piece that a byte is written as. -/
def Piece.ofByte (b : UInt8) : Piece :=
  if b = 0x22 then .short .quote
  else if b = 0x5C then .short .backslash
  else if b = 0x08 then .short .backspace
  else if b = 0x09 then .short .tab
  else if b = 0x0A then .short .lineFeed
  else if b = 0x0C then .short .formFeed
  else if b = 0x0D then .short .carriageReturn
  else if b < 0x20 then .unit 0x30 0x30 (hexByte (b.toNat / 16)) (hexByte (b.toNat % 16))
  else .raw b

/-- The spelling that a text is written with. -/
def Quoted.ofString (s : String) : Quoted := s.toUTF8.data.toList.map Piece.ofByte

end CallPool.Json
