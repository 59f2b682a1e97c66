import CallPool.Json.Syntax

/-!
# Reading the spelling of a document

`scan` turns the bytes of a text into a `Doc`. It is a machine that takes one byte at a time and
keeps the brackets that are open on a stack; it never goes back, so the document it has built when
a byte cannot be used is exactly what the text says up to there. Values nested to any depth are
read: what depth is allowed is for the readers of values to say.
-/

set_option autoImplicit false

namespace CallPool.Json

/-- A text: one document with blanks around it, and how many bytes had been read when something
else was found behind it. -/
structure Text where
  before : Gap
  root : Doc
  after : Gap
  surplus : Option Nat

namespace Scan

/-- A bracket that is open, or the text itself: what has been read inside it in front of the value
that is being read, last things first, and the blanks in front of that value. -/
inductive Frame
  | text (before : Gap)
  | list (done : List (Item Doc)) (before : Gap)
  | object (done : List (Member Doc)) (before : Gap) (key : Quoted) (beforeColon afterColon : Gap)

/-- Where in a number the machine is: what was read last. -/
inductive NumberPart
  | sign
  | whole
  | point
  | fraction
  | mark
  | exponentSign
  | exponent
  deriving DecidableEq

/-- Where in an escape the machine is. -/
inductive EscapePart
  | outside
  | backslash
  | hex (digits : List UInt8)
  deriving DecidableEq

/-- What the machine is reading. -/
inductive Mode
  /-- A value is wanted in the innermost frame. -/
  | value
  /-- A word, of which these bytes are still to come. -/
  | word (w : Literal) (left : List UInt8)
  | number (n : Numeral) (part : NumberPart)
  /-- A string, of which these pieces have been read, last one first. -/
  | string (pieces : Quoted) (part : EscapePart)
  /-- This value of the innermost frame is complete; blanks behind it. -/
  | after (v : Doc) (blanks : Gap)
  /-- A key is wanted, or the bracket of an object that has no member yet. -/
  | key (done : List (Member Doc)) (before : Gap)
  | keyString (done : List (Member Doc)) (before : Gap) (pieces : Quoted) (part : EscapePart)
  /-- A colon is wanted. -/
  | colon (done : List (Member Doc)) (before : Gap) (key : Quoted) (beforeColon : Gap)
  /-- Nothing more is read. -/
  | stopped (t : Text)

/-- The machine: what it is reading, the open frames with the innermost first, and how many bytes
it has read. -/
structure State where
  mode : Mode
  frames : List Frame
  read : Nat

/-- The machine in front of the first byte. -/
def State.start : State := ⟨.value, [.text []], 0⟩

/-- The whole text, when the value in the innermost frame is this one and is broken. -/
def enclose (b : Break) : Doc → List Frame → Text
  | d, [] => ⟨[], d, [], none⟩
  | d, .text before :: _ => ⟨before, d, [], none⟩
  | d, .list done before :: rest =>
    enclose b (.list (List.reverse (⟨before, d, []⟩ :: done)) (.broken b)) rest
  | d, .object done before key beforeColon afterColon :: rest =>
    enclose b
      (.object (List.reverse (⟨before, key, beforeColon, afterColon, d, []⟩ :: done)) (.broken b)) rest

/-- Stops at a break inside a value of the innermost frame. -/
def State.breakOff (s : State) (b : Break) (d : Doc) : State :=
  { s with mode := .stopped (enclose b d s.frames) }

/-- A break that all readers see alike. -/
def Break.plain (fault : SyntaxFault) (place : Nat) (next : Option UInt8) : Break :=
  ⟨fault, place, fault, place, next⟩

/-- What is wrong where a value is wanted and none starts: `closing` tells whether the bracket of a
list stands there, after a comma. -/
def missingValue (place : Nat) (next : Option UInt8) (closing : Bool) : Break :=
  match next with
  | none => Break.plain .endInValue place none
  | some b =>
    if closing then ⟨.trailingComma, place, .valueExpected, place, some b⟩
    else Break.plain .valueExpected place (some b)

/-- The escape letters and digits: one byte more of a string. Gives the pieces and the part of an
escape after it, or how the string goes wrong. -/
inductive StringStep
  | more (pieces : Quoted) (part : EscapePart)
  | done (s : Quoted)
  | wrong (stop : StringStop) (b : Break)

/-- One byte of a string. `read` bytes stand in front of it. -/
def stringStep (read : Nat) (pieces : Quoted) (part : EscapePart) (b : UInt8) : StringStep :=
  match part with
  | .outside =>
    if b = 0x22 then .done pieces.reverse
    else if b = 0x5C then .more pieces .backslash
    else if b < 0x20 then
      .wrong .control ⟨.controlCharacter, read + 1, .controlCharacter, read, some b⟩
    else .more (.raw b :: pieces) .outside
  | .backslash =>
    if b = 0x75 then .more pieces (.hex [])
    else
      match ShortEscape.ofLetter? b with
      | some e => .more (.short e :: pieces) .outside
      | none => .wrong .letter (Break.plain .escapeInvalid (read + 1) (some b))
  | .hex [h₁, h₂, h₃] =>
    if [h₁, h₂, h₃, b].all fun h => (hexValue? h).isSome then
      .more (.unit h₁ h₂ h₃ b :: pieces) .outside
    else .wrong .other (Break.plain .escapeInvalid (read + 1) (some b))
  | .hex hs => .more pieces (.hex (hs ++ [b]))

/-- One byte of a number: the number and its part after it, `none` if the byte is not of the
number. -/
inductive NumberStep
  | more (n : Numeral) (part : NumberPart)
  | done
  | wrong

/-- A digit behind the whole part. -/
def wholeDigit (n : Numeral) (d : Digit) : NumberStep :=
  if n.whole = [Digit.zero] then .wrong else .more { n with whole := n.whole ++ [d] } .whole

/-- One byte behind the whole part or the fraction, if it is not a digit. -/
def exponentMark (n : Numeral) (b : UInt8) : NumberStep :=
  if b = 0x65 then .more { n with exponent := some ⟨false, .unsigned, []⟩ } .mark
  else if b = 0x45 then .more { n with exponent := some ⟨true, .unsigned, []⟩ } .mark
  else .done

/-- A digit of the exponent. -/
def exponentDigit (n : Numeral) (d : Digit) : NumberStep :=
  .more { n with exponent := n.exponent.map fun e => { e with digits := e.digits ++ [d] } }
    .exponent

/-- A digit of the fraction. -/
def fractionDigit (n : Numeral) (d : Digit) : NumberStep :=
  .more { n with fraction := some (n.fraction.getD [] ++ [d]) } .fraction

/-- The number with this sign of its exponent. -/
def withExponentSign (n : Numeral) (sign : ExponentSign) : Numeral :=
  { n with exponent := n.exponent.map fun e => { e with sign := sign } }

/-- One byte of a number. -/
def numberStep (n : Numeral) (part : NumberPart) (b : UInt8) : NumberStep :=
  match part, Digit.ofByte? b with
  | .sign, some d => .more { n with whole := [d] } .whole
  | .sign, none => .wrong
  | .whole, some d => wholeDigit n d
  | .whole, none =>
    if b = 0x2E then .more { n with fraction := some [] } .point else exponentMark n b
  | .point, some d => fractionDigit n d
  | .point, none => .wrong
  | .fraction, some d => fractionDigit n d
  | .fraction, none => exponentMark n b
  | .mark, some d => exponentDigit n d
  | .mark, none =>
    if b = 0x2B then .more (withExponentSign n .plus) .exponentSign
    else if b = 0x2D then .more (withExponentSign n .minus) .exponentSign
    else .wrong
  | .exponentSign, some d => exponentDigit n d
  | .exponentSign, none => .wrong
  | .exponent, some d => exponentDigit n d
  | .exponent, none => .done

/-- Whether a number may end behind this part. -/
def NumberPart.complete : NumberPart → Bool
  | .whole | .fraction | .exponent => true
  | _ => false

/-- The spelling of zero digits, to which a number's bytes are added. -/
def Numeral.blank (negative : Bool) : Numeral := ⟨negative, [], none, none⟩

/-- One byte where a value is complete: blanks, a comma, a closing bracket, or a fault. -/
def afterStep (s : State) (v : Doc) (blanks : Gap) (b : UInt8) : State :=
  let read := s.read + 1
  match Blank.ofByte? b with
  | some g => ⟨.after v (blanks ++ [g]), s.frames, read⟩
  | none =>
    match s.frames with
    | [] => ⟨.stopped ⟨[], v, blanks, some read⟩, [], read⟩
    | .text before :: rest => ⟨.stopped ⟨before, v, blanks, some read⟩, rest, read⟩
    | .list done before :: rest =>
      let done := ⟨before, v, blanks⟩ :: done
      if b = 0x2C then ⟨.value, .list done [] :: rest, read⟩
      else if b = 0x5D then ⟨.after (.list done.reverse (.closed [])) [], rest, read⟩
      else
        let e := Break.plain .commaOrListEndExpected read (some b)
        ⟨.stopped (enclose e (.list done.reverse (.broken e)) rest), rest, read⟩
    | .object done before key beforeColon afterColon :: rest =>
      let done := ⟨before, key, beforeColon, afterColon, v, blanks⟩ :: done
      if b = 0x2C then ⟨.key done [], rest, read⟩
      else if b = 0x7D then ⟨.after (.object done.reverse (.closed [])) [], rest, read⟩
      else
        let e := Break.plain .commaOrObjectEndExpected read (some b)
        ⟨.stopped (enclose e (.object done.reverse (.broken e)) rest), rest, read⟩

/-- The frame with one blank more in front of the value that is wanted in it. -/
def Frame.addBlank (g : Blank) : Frame → Frame
  | .text before => .text (before ++ [g])
  | .list done before => .list done (before ++ [g])
  | .object done before key beforeColon afterColon =>
    .object done before key beforeColon (afterColon ++ [g])

/-- What a byte that is no blank and no closing bracket starts where a value is wanted. -/
def opening (b : UInt8) : Option Mode :=
  if b = 0x22 then some (.string [] .outside)
  else if b = 0x6E then some (.word .null Literal.null.text.tail)
  else if b = 0x74 then some (.word .yes Literal.yes.text.tail)
  else if b = 0x66 then some (.word .no Literal.no.text.tail)
  else if b = 0x2D then some (.number (Numeral.blank true) .sign)
  else (Digit.ofByte? b).map fun d => .number { Numeral.blank false with whole := [d] } .whole

/-- One byte where a value is wanted. -/
def valueStep (s : State) (b : UInt8) : State :=
  let read := s.read + 1
  match Blank.ofByte? b with
  | some g =>
    ⟨.value, (match s.frames with
      | f :: rest => f.addBlank g :: rest
      | [] => []), read⟩
  | none =>
    if b = 0x5B then ⟨.value, .list [] [] :: s.frames, read⟩
    else if b = 0x7B then ⟨.key [] [], s.frames, read⟩
    else
      match opening b with
      | some m => ⟨m, s.frames, read⟩
      | none =>
        match s.frames with
        | .list [] before :: rest =>
          if b = 0x5D then ⟨.after (.list [] (.closed before)) [], rest, read⟩
          else
            let e := missingValue read (some b) false
            { s with read := read }.breakOff e (.missing e)
        | .list (_ :: _) _ :: _ =>
          let e := missingValue read (some b) (b == 0x5D)
          { s with read := read }.breakOff e (.missing e)
        | _ =>
          let e := missingValue read (some b) false
          { s with read := read }.breakOff e (.missing e)

/-- What is wrong where a key is wanted and none starts, in an object that has a member already or
has none. -/
def missingKey (place : Nat) (next : Option UInt8) (first : Bool) : Break :=
  match next, first with
  | none, true => Break.plain .endInObject place none
  | none, false => ⟨.endInValue, place, .endInObject, place, none⟩
  | some b, true => Break.plain .keyNotString place (some b)
  | some b, false =>
    if b = 0x7D then ⟨.trailingComma, place, .keyNotString, place, some b⟩
    else Break.plain .keyNotString place (some b)

/-- One byte where a key is wanted. -/
def keyStep (s : State) (done : List (Member Doc)) (before : Gap) (b : UInt8) : State :=
  let read := s.read + 1
  match Blank.ofByte? b with
  | some g => ⟨.key done (before ++ [g]), s.frames, read⟩
  | none =>
    if b = 0x22 then ⟨.keyString done before [] .outside, s.frames, read⟩
    else if b = 0x7D ∧ done.isEmpty then ⟨.after (.object [] (.closed before)) [], s.frames, read⟩
    else
      let e := missingKey read (some b) done.isEmpty
      { s with read := read }.breakOff e (.object done.reverse (.broken e))

/-- One byte where a colon is wanted. -/
def colonStep (s : State) (done : List (Member Doc)) (before : Gap) (key : Quoted)
    (beforeColon : Gap) (b : UInt8) : State :=
  let read := s.read + 1
  match Blank.ofByte? b with
  | some g => ⟨.colon done before key (beforeColon ++ [g]), s.frames, read⟩
  | none =>
    if b = 0x3A then ⟨.value, .object done before key beforeColon [] :: s.frames, read⟩
    else
      let e := Break.plain .colonExpected read (some b)
      { s with read := read }.breakOff e
        (.object (List.reverse (⟨before, key, beforeColon, [], .missing e, []⟩ :: done)) (.broken e))

/-- One byte. -/
def step (s : State) (b : UInt8) : State :=
  let read := s.read + 1
  match s.mode with
  | .stopped _ => s
  | .value => valueStep s b
  | .word w left =>
    match left with
    | [] => afterStep s (.literal w) [] b
    | c :: left =>
      if b = c then
        ⟨if left.isEmpty then .after (.literal w) [] else .word w left, s.frames, read⟩
      else
        let e := Break.plain .wordExpected read (some b)
        { s with read := read }.breakOff e (.brokenWord e)
  | .number n part =>
    match numberStep n part b with
    | .more n part => ⟨.number n part, s.frames, read⟩
    | .done => afterStep s (.number n) [] b
    | .wrong =>
      let e := Break.plain .numberInvalid read (some b)
      { s with read := read }.breakOff e (.brokenWord e)
  | .string pieces part =>
    match stringStep s.read pieces part b with
    | .more pieces part => ⟨.string pieces part, s.frames, read⟩
    | .done q => ⟨.after (.string q) [], s.frames, read⟩
    | .wrong stop e => { s with read := read }.breakOff e (.brokenString pieces.reverse stop e)
  | .after v blanks => afterStep s v blanks b
  | .key done before => keyStep s done before b
  | .keyString done before pieces part =>
    match stringStep s.read pieces part b with
    | .more pieces part => ⟨.keyString done before pieces part, s.frames, read⟩
    | .done q => ⟨.colon done before q [], s.frames, read⟩
    | .wrong stop e =>
      { s with read := read }.breakOff e
        (.object done.reverse (.brokenKey before pieces.reverse stop e))
  | .colon done before key beforeColon => colonStep s done before key beforeColon b

/-- What has been read when the text ends behind a complete value. -/
def endAfter (s : State) (v : Doc) (blanks : Gap) : Text :=
  match s.frames with
  | [] => ⟨[], v, blanks, none⟩
  | .text before :: _ => ⟨before, v, blanks, none⟩
  | .list done before :: rest =>
    let e := Break.plain .endInList s.read none
    enclose e (.list (List.reverse (⟨before, v, blanks⟩ :: done)) (.broken e)) rest
  | .object done before key beforeColon afterColon :: rest =>
    let e := Break.plain .endInObject s.read none
    enclose e
      (.object (List.reverse (⟨before, key, beforeColon, afterColon, v, blanks⟩ :: done)) (.broken e))
      rest

/-- What has been read when the text ends. -/
def finish (s : State) : Text :=
  match s.mode with
  | .stopped t => t
  | .value =>
    match s.frames with
    | .list [] _ :: rest =>
      let e := Break.plain .endInList s.read none
      enclose e (.list [] (.broken e)) rest
    | frames =>
      let e := missingValue s.read none false
      enclose e (.missing e) frames
  | .word w left =>
    if left.isEmpty then endAfter s (.literal w) []
    else
      let e := Break.plain .endInValue s.read none
      enclose e (.brokenWord e) s.frames
  | .number n part =>
    if part.complete then endAfter s (.number n) []
    else
      let e : Break := ⟨.endInValue, s.read, .numberInvalid, s.read, none⟩
      enclose e (.brokenWord e) s.frames
  | .string pieces _ =>
    let e := Break.plain .endInString s.read none
    enclose e (.brokenString pieces.reverse .other e) s.frames
  | .after v blanks => endAfter s v blanks
  | .key done _ =>
    let e := missingKey s.read none done.isEmpty
    enclose e (.object done.reverse (.broken e)) s.frames
  | .keyString done before pieces _ =>
    let e := Break.plain .endInString s.read none
    enclose e (.object done.reverse (.brokenKey before pieces.reverse .other e)) s.frames
  | .colon done before key beforeColon =>
    let e := Break.plain .endInObject s.read none
    enclose e
      (.object (List.reverse (⟨before, key, beforeColon, [], .missing e, []⟩ :: done)) (.broken e))
      s.frames

end Scan

/-- The document that a text spells, as far as it goes. -/
def scan (text : List UInt8) : Text := Scan.finish (text.foldl Scan.step Scan.State.start)

end CallPool.Json
