import CallPool.Json.Numeral
import CallPool.Json.StringText

/-!
# Reading values

`Doc.value` reads any value from a document, with the members of objects as they stand there.
Values may be nested 127 brackets deep. `Doc.passOver` is what a reader does with a value it does
not look at: only the spelling matters then, at any depth.
-/

set_option autoImplicit false

namespace CallPool.Json

/-- Where a value stands: how many bytes are in front of it, and how many brackets around it. -/
structure Place where
  offset : Nat
  nesting : Nat
  deriving DecidableEq

/-- The start of a text. -/
def Place.start (offset : Nat) : Place := ⟨offset, 0⟩

/-- The brackets that may be open at once. -/
def nestingLimit : Nat := 127

/-- The place behind an opening bracket, if one more may be opened. -/
def Place.inside (p : Place) : Except Fault Place :=
  if p.nesting < nestingLimit then .ok ⟨p.offset + 1, p.nesting + 1⟩
  else .error ⟨.spelling .tooDeep, .at (p.offset + 1)⟩

/-- The place of the value of an element that starts here. -/
def Place.ofItem (p : Place) (i : Item Doc) : Place := { p with offset := p.offset + i.before.length }

/-- The place behind an element that starts here and the comma behind it. -/
def Place.behindItem (p : Place) (i : Item Doc) : Place :=
  { p with offset := p.offset + i.before.length + i.value.width + i.after.length + 1 }

/-- The place of the first piece of the key of a member that starts here. -/
def Place.ofKey (p : Place) (m : Member Doc) : Nat := p.offset + m.before.length + 1

/-- The place of the value of a member that starts here. -/
def Place.ofMember (p : Place) (m : Member Doc) : Place :=
  { p with offset :=
      p.offset + m.before.length + Quoted.width m.key + m.beforeColon.length + 1 +
        m.afterColon.length }

/-- The place behind a member that starts here and the comma behind it. -/
def Place.behindMember (p : Place) (m : Member Doc) : Place :=
  { p with offset := (p.ofMember m).offset + m.value.width + m.after.length + 1 }

/-- The break in a document, if it is not complete. -/
def Doc.break? : Doc → Option Break
  | .literal _ => none
  | .number _ => none
  | .string _ => none
  | .list _ (.closed _) => none
  | .list _ (.broken b) => some b
  | .object _ (.closed _) => none
  | .object _ (.broken b) => some b
  | .object _ (.brokenKey _ _ _ b) => some b
  | .missing b => some b
  | .brokenWord b => some b
  | .brokenString _ _ b => some b

/-- Passes over a value without looking at it. -/
def Doc.passOver (d : Doc) : Except Fault Unit :=
  match d.break? with
  | some b => .error b.passed
  | none => .ok ()

/-- How the reading of a list ends. -/
def ListEnd.seen : ListEnd → Except Fault Unit
  | .closed _ => .ok ()
  | .broken b => .error b.seen

/-- How the reading of an object ends, when the place behind its last comma or its bracket is
this. -/
def ObjectEnd.seen (p : Place) : ObjectEnd → Except Fault Unit
  | .closed _ => .ok ()
  | .broken b => .error b.seen
  | .brokenKey blanks key stop b => .error (Quoted.broken key (p.offset + blanks.length + 1) stop b)

mutual

/-- The value of a document at this place. -/
def Doc.value (p : Place) : Doc → Except Fault Value
  | .literal .null => .ok .null
  | .literal .yes => .ok (.bool true)
  | .literal .no => .ok (.bool false)
  | .number n => do .ok (.number (← n.number p.offset))
  | .string s => do .ok (.string (← Quoted.string s (p.offset + 1)))
  | .list items close => do
    let q ← p.inside
    let vs ← itemValues q items
    close.seen
    .ok (.list vs)
  | .object members close => do
    let q ← p.inside
    let (ms, q) ← memberValues q members
    close.seen q
    .ok (.object ms)
  | .missing b => .error b.seen
  | .brokenWord b => .error b.seen
  | .brokenString s stop b => .error (Quoted.broken s (p.offset + 1) stop b)

/-- The values of elements, the first of which starts here. -/
def itemValues (p : Place) : List (Item Doc) → Except Fault (List Value)
  | [] => .ok []
  | ⟨before, value, after⟩ :: rest => do
    let v ← value.value { p with offset := p.offset + before.length }
    let vs ← itemValues
      { p with offset := p.offset + before.length + value.width + after.length + 1 } rest
    .ok (v :: vs)

/-- The members that stand in a document, the first of which starts here, and the place behind the
last one and its comma. -/
def memberValues (p : Place) : List (Member Doc) → Except Fault (Members × Place)
  | [] => .ok ([], p)
  | ⟨before, key, beforeColon, afterColon, value, after⟩ :: rest => do
    let k ← Quoted.string key (p.offset + before.length + 1)
    let start := p.offset + before.length + Quoted.width key + beforeColon.length + 1 +
      afterColon.length
    let v ← value.value { p with offset := start }
    let (ms, q) ← memberValues { p with offset := start + value.width + after.length + 1 } rest
    .ok ((k, v) :: ms, q)

end

/-- What is wrong when something else than the value of a document is expected: a fault in the
value itself comes first. Scalars are read to their end, brackets are only seen. -/
def Doc.misfit (p : Place) (d : Doc) (expected : Expected) : Fault :=
  let wrong := fun (found : Found) (place : Nat) =>
    (⟨.shape (.wrongType found expected), .at place⟩ : Fault)
  match d with
  | .literal .null => wrong .null (p.offset + d.width)
  | .literal .yes => wrong (.bool true) (p.offset + d.width)
  | .literal .no => wrong (.bool false) (p.offset + d.width)
  | .number n =>
    match n.number p.offset with
    | .ok x => wrong x.found (p.offset + d.width)
    | .error f => f
  | .string s =>
    match Quoted.string s (p.offset + 1) with
    | .ok text => wrong (.string text) (p.offset + d.width)
    | .error f => f
  | .list _ _ => wrong .sequence p.offset
  | .object _ _ => wrong .map p.offset
  | .missing b => b.seen
  | .brokenWord b => b.seen
  | .brokenString s stop b => Quoted.broken s (p.offset + 1) stop b

/-- What a value is called where something else was expected. -/
def Value.found : Value → Found
  | .null => .null
  | .bool b => .bool b
  | .number n => n.found
  | .string s => .string s
  | .list _ => .sequence
  | .object _ => .map

/-- What is wrong when something else than a value is expected. -/
def Value.misfit (v : Value) (expected : Expected) : Mismatch := .wrongType v.found expected

end CallPool.Json
