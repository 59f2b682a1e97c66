import CallPool.Json.Syntax
import CallPool.Text.Quoted

/-!
# What can be wrong with a document

A document is refused because of its spelling, or because it is not of the shape that is read from
it. A `Fault` says why and where. The place is a number of bytes; `Site.resolve` finds it for a
value that is given up half way, where the rest of its brackets is looked at first, and `Position`
turns it into a line and a column.
-/

set_option autoImplicit false

namespace CallPool.Json

/-- What was found in place of something else. -/
inductive Found
  | null
  | bool (b : Bool)
  | integer (i : Int)
  /-- A floating-point number, with its text. -/
  | float (text : String)
  | string (s : String)
  | sequence
  | map
  deriving DecidableEq

/-- What was expected. -/
inductive Expected
  | text
  | signed
  | unsigned
  | float
  | map
  | sequence
  | unit
  /-- A record of this name. -/
  | record (name : String)
  /-- The elements of a record of this name, when they stand in a list. -/
  | elements (name : String) (count : Nat)
  /-- No more elements than were taken, of all that a value had. -/
  | fewerElements
  /-- Just this many elements. -/
  | elementsInSequence (count : Nat)
  /-- A choice, tagged by a member of its own, of this name. -/
  | tagged (name : String)
  /-- The name of one of the choices. -/
  | variantName
  /-- The choice of this name, which carries nothing. -/
  | unitVariant (name : String)
  deriving DecidableEq

/-- How a value fails to be of the shape that is read from it. -/
inductive Mismatch
  | missingField (key : String)
  | duplicateField (key : String)
  | wrongType (found : Found) (expected : Expected)
  | wrongValue (found : Int) (expected : Expected)
  | wrongLength (length : Nat) (expected : Expected)
  | unknownVariant (name : String) (known : List String)
  deriving DecidableEq

/-- Why a document is refused. -/
inductive Cause
  | spelling (fault : SyntaxFault)
  | shape (mismatch : Mismatch)
  deriving DecidableEq

/-- Where a fault is reported: behind so many bytes, or, for a list or an object that is given up
there, behind what is still looked at: blanks and the closing bracket, and in a list a comma with
the blanks behind it. -/
inductive Site
  | at (place : Nat)
  | leavingList (place : Nat)
  | leavingObject (place : Nat)
  deriving DecidableEq

/-- A fault in a document. -/
structure Fault where
  cause : Cause
  site : Site
  deriving DecidableEq

/-- The fault that a reader sees at a break. -/
def Break.seen (b : Break) : Fault := ⟨.spelling b.fault, .at b.place⟩

/-- The fault that a reader sees at a break when it passes over the value. -/
def Break.passed (b : Break) : Fault := ⟨.spelling b.passing, .at b.passingPlace⟩

/-- How many blanks a text starts with. -/
def leadingBlanks (text : List UInt8) : Nat :=
  (text.takeWhile fun b => (Blank.ofByte? b).isSome).length

/-- The number of bytes behind which a fault is reported. -/
def Site.resolve (text : List UInt8) : Site → Nat
  | .at place => place
  | .leavingList place =>
    let place := place + leadingBlanks (text.drop place)
    match text.drop place with
    | b :: rest =>
      if b = 0x5D then place + 1
      else if b = 0x2C then place + 1 + leadingBlanks rest
      else place
    | [] => place
  | .leavingObject place =>
    let place := place + leadingBlanks (text.drop place)
    if (text.drop place).head? = some 0x7D then place + 1 else place

/-- A place in a text: its line, from 1, and the number of bytes of that line in front of it. -/
structure Position where
  line : Nat
  column : Nat
  deriving DecidableEq

/-- The position behind some bytes. -/
def Position.behind (read : List UInt8) : Position :=
  { line := 1 + (read.filter (· = 0x0A)).length
    column := (read.reverse.takeWhile (· ≠ 0x0A)).length }

/-- Why a document, or a value, was refused, and where, if it was a document. -/
structure Error where
  cause : Cause
  position : Option Position
  deriving DecidableEq

/-- The error that reports a fault in a text. -/
def Fault.error (text : List UInt8) (f : Fault) : Error :=
  ⟨f.cause, some (Position.behind (text.take (f.site.resolve text)))⟩

/-- The error that reports a mismatch of a value. -/
def Mismatch.error (m : Mismatch) : Error := ⟨.shape m, none⟩

/-- The words for a fault in the spelling. -/
def SyntaxFault.message : SyntaxFault → String
  | endInList => "EOF while parsing a list"
  | endInObject => "EOF while parsing an object"
  | endInString => "EOF while parsing a string"
  | endInValue => "EOF while parsing a value"
  | colonExpected => "expected `:`"
  | commaOrListEndExpected => "expected `,` or `]`"
  | commaOrObjectEndExpected => "expected `,` or `\x7d`"
  | wordExpected => "expected ident"
  | valueExpected => "expected value"
  | escapeInvalid => "invalid escape"
  | numberInvalid => "invalid number"
  | numberOutOfRange => "number out of range"
  | codePointInvalid => "invalid unicode code point"
  | controlCharacter => "control character (\\u0000-\\u001F) found while parsing a string"
  | keyNotString => "key must be a string"
  | loneSurrogate => "lone leading surrogate in hex escape"
  | trailingComma => "trailing comma"
  | trailingCharacters => "trailing characters"
  | hexEscapeEnds => "unexpected end of hex escape"
  | tooDeep => "recursion limit exceeded"

/-- A text between backquotes. -/
def ticked (s : String) : String := "`" ++ s ++ "`"

/-- The words for what was found. -/
def Found.message : Found → String
  | null => "null"
  | bool b => "boolean " ++ ticked (if b then "true" else "false")
  | integer i => "integer " ++ ticked (toString i)
  | float text => "floating point " ++ ticked text
  | string s => "string " ++ Text.quoted s
  | sequence => "sequence"
  | map => "map"

/-- So many of something. -/
def counted (n : Nat) (one many : String) : String :=
  toString n ++ " " ++ (if n = 1 then one else many)

/-- The words for what was expected. -/
def Expected.message : Expected → String
  | text => "a string"
  | signed => "i64"
  | unsigned => "u64"
  | float => "f64"
  | map => "a map"
  | sequence => "a sequence"
  | unit => "unit"
  | record name => "struct " ++ name
  | elements name count => "struct " ++ name ++ " with " ++ counted count "element" "elements"
  | fewerElements => "fewer elements in array"
  | elementsInSequence count => counted count "element in sequence" "elements in sequence"
  | tagged name => "adjacently tagged enum " ++ name
  | variantName => "variant identifier"
  | unitVariant name => "unit variant " ++ name

/-- The words for a mismatch. -/
def Mismatch.message : Mismatch → String
  | missingField key => "missing field " ++ ticked key
  | duplicateField key => "duplicate field " ++ ticked key
  | wrongType found expected =>
    "invalid type: " ++ found.message ++ ", expected " ++ expected.message
  | wrongValue found expected =>
    "invalid value: " ++ (Found.integer found).message ++ ", expected " ++ expected.message
  | wrongLength length expected =>
    "invalid length " ++ toString length ++ ", expected " ++ expected.message
  | unknownVariant name known =>
    "unknown variant " ++ ticked name ++ ", expected one of " ++
      ", ".intercalate (known.map ticked)

/-- The words for a cause. -/
def Cause.message : Cause → String
  | spelling fault => fault.message
  | shape mismatch => mismatch.message

/-- The words for an error, with its position if it has one. -/
def Error.message (e : Error) : String :=
  match e.position with
  | none => e.cause.message
  | some p =>
    e.cause.message ++ " at line " ++ toString p.line ++ " column " ++ toString p.column

end CallPool.Json
