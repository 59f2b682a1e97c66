/-!
# JSON documents as they are spelled

`Doc` is a document with every choice its writer made kept: blanks, the spelling of numbers, which
characters of a string are escaped and how, the order and the repetition of members. A complete
document has one text, `Doc.text`, and reading that text gives the document back.

A text that breaks off, or goes wrong, is a document as far as it goes: the spot is marked by a
`Break`, which says what a reader that looks at the value reports there and what a reader that only
passes over it reports. Readers of typed values therefore work on `Doc` alone, in document order,
and the first thing that is wrong in the text is what they report.
-/

set_option autoImplicit false

namespace CallPool.Json

/-- The blank characters of JSON. -/
inductive Blank
  | space
  | tab
  | lineFeed
  | carriageReturn
  deriving DecidableEq

namespace Blank

/-- The byte of a blank. -/
def byte : Blank → UInt8
  | space => 0x20
  | tab => 0x09
  | lineFeed => 0x0A
  | carriageReturn => 0x0D

/-- The blank a byte stands for, if it is one. -/
def ofByte? (b : UInt8) : Option Blank :=
  if b = 0x20 then some space
  else if b = 0x09 then some tab
  else if b = 0x0A then some lineFeed
  else if b = 0x0D then some carriageReturn
  else none

end Blank

/-- The blanks between two tokens. -/
abbrev Gap := List Blank

/-- The bytes of a gap. -/
def Gap.text (g : Gap) : List UInt8 := g.map Blank.byte

/-- The three words of JSON. -/
inductive Literal
  | null
  | yes
  | no
  deriving DecidableEq

/-- The bytes of a word. -/
def Literal.text : Literal → List UInt8
  | null => [0x6E, 0x75, 0x6C, 0x6C]
  | yes => [0x74, 0x72, 0x75, 0x65]
  | no => [0x66, 0x61, 0x6C, 0x73, 0x65]

/-- A decimal digit. -/
abbrev Digit := Fin 10

namespace Digit

/-- The digit 0. -/
def zero : Digit := ⟨0, by decide⟩

/-- The byte of a digit. -/
def byte (d : Digit) : UInt8 := 0x30 + UInt8.ofNat d.val

/-- The digit a byte stands for, if it is one. -/
def ofByte? (b : UInt8) : Option Digit :=
  if h : 0x30 ≤ b.toNat ∧ b.toNat ≤ 0x39 then some ⟨b.toNat - 0x30, by omega⟩ else none

end Digit

/-- The sign written in an exponent. -/
inductive ExponentSign
  | unsigned
  | plus
  | minus
  deriving DecidableEq

/-- The exponent part of a number. -/
structure Exponent where
  capital : Bool
  sign : ExponentSign
  digits : List Digit
  deriving DecidableEq

/-- A number as it is spelled. -/
structure Numeral where
  negative : Bool
  whole : List Digit
  fraction : Option (List Digit)
  exponent : Option Exponent
  deriving DecidableEq

/-- The bytes of some digits. -/
def digitsText (ds : List Digit) : List UInt8 := ds.map Digit.byte

/-- The bytes of an exponent. -/
def Exponent.text (e : Exponent) : List UInt8 :=
  (if e.capital then 0x45 else 0x65) ::
    ((match e.sign with
      | .unsigned => []
      | .plus => [0x2B]
      | .minus => [0x2D]) ++ digitsText e.digits)

/-- The bytes of a number. -/
def Numeral.text (n : Numeral) : List UInt8 :=
  (if n.negative then [0x2D] else []) ++ digitsText n.whole ++
    (match n.fraction with
      | some ds => 0x2E :: digitsText ds
      | none => []) ++
    (match n.exponent with
      | some e => e.text
      | none => [])

/-- The escapes of one letter. -/
inductive ShortEscape
  | quote
  | backslash
  | slash
  | backspace
  | formFeed
  | lineFeed
  | carriageReturn
  | tab
  deriving DecidableEq

namespace ShortEscape

/-- The byte after the backslash. -/
def letter : ShortEscape → UInt8
  | quote => 0x22
  | backslash => 0x5C
  | slash => 0x2F
  | backspace => 0x62
  | formFeed => 0x66
  | lineFeed => 0x6E
  | carriageReturn => 0x72
  | tab => 0x74

/-- The byte the escape stands for. -/
def byte : ShortEscape → UInt8
  | quote => 0x22
  | backslash => 0x5C
  | slash => 0x2F
  | backspace => 0x08
  | formFeed => 0x0C
  | lineFeed => 0x0A
  | carriageReturn => 0x0D
  | tab => 0x09

/-- The escape a letter after a backslash makes, if it makes one. -/
def ofLetter? (b : UInt8) : Option ShortEscape :=
  if b = 0x22 then some quote
  else if b = 0x5C then some backslash
  else if b = 0x2F then some slash
  else if b = 0x62 then some backspace
  else if b = 0x66 then some formFeed
  else if b = 0x6E then some lineFeed
  else if b = 0x72 then some carriageReturn
  else if b = 0x74 then some tab
  else none

end ShortEscape

/-- The value of a hexadecimal digit. -/
def hexValue? (b : UInt8) : Option Nat :=
  let n := b.toNat
  if 0x30 ≤ n ∧ n ≤ 0x39 then some (n - 0x30)
  else if 0x41 ≤ n ∧ n ≤ 0x46 then some (n - 0x37)
  else if 0x61 ≤ n ∧ n ≤ 0x66 then some (n - 0x57)
  else none

/-- One piece of a string between its quotes. -/
inductive Piece
  /-- A byte that stands for itself. -/
  | raw (b : UInt8)
  /-- A backslash and a letter. -/
  | short (e : ShortEscape)
  /-- A backslash, `u` and four hexadecimal digits: one UTF-16 unit. -/
  | unit (a b c d : UInt8)
  deriving DecidableEq

namespace Piece

/-- The bytes of a piece. -/
def text : Piece → List UInt8
  | raw b => [b]
  | short e => [0x5C, e.letter]
  | unit a b c d => [0x5C, 0x75, a, b, c, d]

/-- How many bytes a piece takes. -/
def width : Piece → Nat
  | raw _ => 1
  | short _ => 2
  | unit _ _ _ _ => 6

end Piece

/-- A string as it is spelled, without its quotes. -/
abbrev Quoted := List Piece

/-- The bytes of a string, with its quotes. -/
def Quoted.text (s : Quoted) : List UInt8 := 0x22 :: s.flatMap Piece.text ++ [0x22]

/-- How many bytes stand between the quotes of a string. -/
def Quoted.innerWidth (s : Quoted) : Nat := s.foldr (fun p n => p.width + n) 0

/-- How many bytes a string takes, with its quotes. -/
def Quoted.width (s : Quoted) : Nat := Quoted.innerWidth s + 2

/-- What is wrong with the syntax of a text. -/
inductive SyntaxFault
  | endInList
  | endInObject
  | endInString
  | endInValue
  | colonExpected
  | commaOrListEndExpected
  | commaOrObjectEndExpected
  | wordExpected
  | valueExpected
  | escapeInvalid
  | numberInvalid
  | numberOutOfRange
  | codePointInvalid
  | controlCharacter
  | keyNotString
  | loneSurrogate
  | trailingComma
  | trailingCharacters
  | hexEscapeEnds
  | tooDeep
  deriving DecidableEq

/-- The spot at which a text goes wrong: what is wrong there, and how many bytes had been read when
that was seen, for a reader that looks at the value and for one that only passes over it. `next`
is the first byte that could not be used, if the text went on at all. -/
structure Break where
  fault : SyntaxFault
  place : Nat
  passing : SyntaxFault
  passingPlace : Nat
  next : Option UInt8
  deriving DecidableEq

/-- How a string stopped before its closing quote: right after a backslash and a letter that makes
no escape, or at a byte that no string holds, or in some other way. -/
inductive StringStop
  | letter
  | control
  | other
  deriving DecidableEq

/-- An element of a list, with the blanks around it. -/
structure Item (α : Type) where
  before : Gap
  value : α
  after : Gap
  deriving DecidableEq

/-- A member of an object, with the blanks around its key and its value. -/
structure Member (α : Type) where
  before : Gap
  key : Quoted
  beforeColon : Gap
  afterColon : Gap
  value : α
  after : Gap
  deriving DecidableEq

/-- How a list ends: with its bracket, after the blanks of an empty list, or at a break. The break
is within the last element if that is broken itself. -/
inductive ListEnd
  | closed (blanks : Gap)
  | broken (b : Break)
  deriving DecidableEq

/-- How an object ends: with its bracket, after the blanks of an empty object, or at a break, which
may be inside a key. The break is within the last member if that is broken itself. -/
inductive ObjectEnd
  | closed (blanks : Gap)
  | broken (b : Break)
  | brokenKey (blanks : Gap) (key : Quoted) (stop : StringStop) (b : Break)
  deriving DecidableEq

/-- A document, as far as its text goes. -/
inductive Doc
  | literal (w : Literal)
  | number (n : Numeral)
  | string (s : Quoted)
  | list (items : List (Item Doc)) (close : ListEnd)
  | object (members : List (Member Doc)) (close : ObjectEnd)
  /-- No value starts here. -/
  | missing (b : Break)
  /-- A word or a number that goes wrong. -/
  | brokenWord (b : Break)
  /-- A string that goes wrong after these pieces. -/
  | brokenString (s : Quoted) (stop : StringStop) (b : Break)

mutual

/-- The bytes of a complete document. -/
def Doc.text : Doc → List UInt8
  | .literal w => w.text
  | .number n => n.text
  | .string s => Quoted.text s
  | .list items close => 0x5B :: (itemsText items ++
      (match close with
        | .closed g => Gap.text g
        | .broken _ => []) ++ [0x5D])
  | .object members close => 0x7B :: (membersText members ++
      (match close with
        | .closed g => Gap.text g
        | _ => []) ++ [0x7D])
  | .missing _ => []
  | .brokenWord _ => []
  | .brokenString _ _ _ => []

/-- The bytes of the elements of a list, commas between them. -/
def itemsText : List (Item Doc) → List UInt8
  | [] => []
  | ⟨before, value, after⟩ :: rest =>
    Gap.text before ++ value.text ++ Gap.text after ++ moreItemsText rest

/-- The bytes of further elements, each after a comma. -/
def moreItemsText : List (Item Doc) → List UInt8
  | [] => []
  | ⟨before, value, after⟩ :: rest =>
    0x2C :: (Gap.text before ++ value.text ++ Gap.text after ++ moreItemsText rest)

/-- The bytes of the members of an object, commas between them. -/
def membersText : List (Member Doc) → List UInt8
  | [] => []
  | ⟨before, key, beforeColon, afterColon, value, after⟩ :: rest =>
    Gap.text before ++ Quoted.text key ++ Gap.text beforeColon ++ 0x3A ::
      (Gap.text afterColon ++ value.text ++ Gap.text after ++ moreMembersText rest)

/-- The bytes of further members, each after a comma. -/
def moreMembersText : List (Member Doc) → List UInt8
  | [] => []
  | ⟨before, key, beforeColon, afterColon, value, after⟩ :: rest =>
    0x2C :: (Gap.text before ++ Quoted.text key ++ Gap.text beforeColon ++ 0x3A ::
      (Gap.text afterColon ++ value.text ++ Gap.text after ++ moreMembersText rest))

end

mutual

/-- How many bytes a complete document takes. -/
def Doc.width : Doc → Nat
  | .literal w => w.text.length
  | .number n => n.text.length
  | .string s => Quoted.width s
  | .list items close => 2 + itemsWidth items +
      (match close with
        | .closed g => g.length
        | .broken _ => 0)
  | .object members close => 2 + membersWidth members +
      (match close with
        | .closed g => g.length
        | _ => 0)
  | .missing _ => 0
  | .brokenWord _ => 0
  | .brokenString _ _ _ => 0

/-- How many bytes the elements of a list take, commas between them included. -/
def itemsWidth : List (Item Doc) → Nat
  | [] => 0
  | ⟨before, value, after⟩ :: rest =>
    before.length + value.width + after.length +
      (if rest.isEmpty then 0 else 1) + itemsWidth rest

/-- How many bytes the members of an object take, commas between them included. -/
def membersWidth : List (Member Doc) → Nat
  | [] => 0
  | ⟨before, key, beforeColon, afterColon, value, after⟩ :: rest =>
    before.length + Quoted.width key + beforeColon.length + 1 + afterColon.length + value.width +
      after.length + (if rest.isEmpty then 0 else 1) + membersWidth rest

end

end CallPool.Json
