import CallPool.Json.Reader

/-!
# Records

A record has named fields in a fixed order. It is read from an object, whose members may stand in
any order and may have other names too, or from a list with the fields in their order. A field that
is absent keeps the value it has in the blank record, unless it is required. No field may occur
twice. Members with other names are passed over.
-/

set_option autoImplicit false

namespace CallPool.Json

/-- A field of a record: its name, whether it must be there, and how it is read into the record. -/
structure Field (α : Type) where
  key : String
  required : Bool
  ofDoc : Place → Doc → Except Fault (α → α)
  ofValue : SurplusRule → Value → Except Mismatch (α → α)

/-- A field that is read with `r` and put in its place by `put`. -/
def Field.of {α β : Type} (key : String) (required : Bool) (r : Reader β) (put : β → α → α) :
    Field α where
  key := key
  required := required
  ofDoc p d := (r.ofDoc p d).map put
  ofValue rule v := (r.ofValue rule v).map put

/-- A kind of record: its name, its fields in order, and the record in which all are absent. -/
structure Record (α : Type) where
  name : String
  fields : List (Field α)
  blank : α

namespace Record

/-- The field of this name. -/
def field? {α : Type} (r : Record α) (key : String) : Option (Field α) :=
  r.fields.find? fun f => f.key == key

/-- The first required field that has not been seen. -/
def missing? {α : Type} (r : Record α) (seen : List String) : Option (Field α) :=
  r.fields.find? fun f => f.required && !seen.contains f.key

/-- Where the reading of an object ends: behind its bracket. -/
def closing (p : Place) (hasMembers : Bool) : ObjectEnd → Nat
  | .closed blanks => p.offset + blanks.length + (if hasMembers then 0 else 1)
  | _ => p.offset

/-- Reads the members of an object into a record, the first of which starts at `p`: `seen` are the
fields that have been read. Gives the record, the fields that were there, and the place behind the
last member. -/
def readMembers {α : Type} (r : Record α) :
    Place → List (Member Doc) → List String → α → Except Fault (α × List String × Place)
  | p, [], seen, a => .ok (a, seen, p)
  | p, m :: rest, seen, a => do
    let key ← Quoted.string m.key (p.ofKey m)
    match r.field? key with
    | none =>
      m.value.passOver
      r.readMembers (p.behindMember m) rest seen a
    | some f =>
      if seen.contains key then
        .error ⟨.shape (.duplicateField key),
          .leavingObject (p.offset + m.before.length + Quoted.width m.key)⟩
      else
        let put ← f.ofDoc (p.ofMember m) m.value
        r.readMembers (p.behindMember m) rest (key :: seen) (put a)

/-- What is wrong with the elements that are left when a record has been read from a list, the first
of them at `p`. -/
def leftOver (p : Place) (items : List (Item Doc)) (close : ListEnd) : Except Fault Unit :=
  match items, close with
  | [], .closed _ => .ok ()
  | [], .broken b =>
    if b.fault = .endInList then .error b.seen
    else .error ⟨.spelling .trailingCharacters, .at b.place⟩
  | i :: _, _ =>
    match i.value with
    | .missing b =>
      if b.fault = .trailingComma then .error b.seen
      else .error ⟨.spelling .trailingCharacters, .at b.place⟩
    | _ => .error ⟨.spelling .trailingCharacters, .at ((p.ofItem i).offset + 1)⟩

/-- Reads the elements of a list into the fields of a record, the first of which starts at `p`:
`count` fields have been read. `name` and `total` are those of the whole record, `last` is the place
behind the bracket if the list ends where its elements do. -/
def readItems {α : Type} (name : String) (total : Nat) (close : ListEnd) :
    List (Field α) → Place → Nat → List (Item Doc) → α → Except Fault α
  | [], p, _, items, a => do
    leftOver p items close
    .ok a
  | f :: fields, p, count, i :: items, a => do
    let put ← f.ofDoc (p.ofItem i) i.value
    readItems name total close fields (p.behindItem i) (count + 1) items (put a)
  | f :: fields, p, count, [], a => do
    close.seen
    if f.required then
      .error ⟨.shape (.wrongLength count (.elements name total)),
        .at (match close with
          | .closed blanks => p.offset + blanks.length + (if count = 0 then 1 else 0)
          | .broken b => b.place)⟩
    else readItems name total close fields p count [] a

/-- Reads the members of an object value into a record. -/
def readValueMembers {α : Type} (r : Record α) (rule : SurplusRule) :
    List (String × Value) → List String → α → Except Mismatch (α × List String)
  | [], seen, a => .ok (a, seen)
  | (key, v) :: rest, seen, a =>
    match r.field? key with
    | none => r.readValueMembers rule rest seen a
    | some f =>
      if seen.contains key then .error (.duplicateField key)
      else do
        let put ← f.ofValue rule v
        r.readValueMembers rule rest (key :: seen) (put a)

/-- Reads the elements of a list value into the fields of a record: `count` fields have been
read, of `length` elements. -/
def readValueItems {α : Type} (name : String) (total length : Nat) (rule : SurplusRule) :
    List (Field α) → Nat → List Value → α → Except Mismatch α
  | [], _, [], a => .ok a
  | [], count, _ :: _, _ =>
    .error (.wrongLength length
      (match rule with
        | .fewer => .fewerElements
        | .exactly => .elementsInSequence count))
  | f :: fields, count, v :: vs, a => do
    let put ← f.ofValue rule v
    readValueItems name total length rule fields (count + 1) vs (put a)
  | f :: fields, count, [], a =>
    if f.required then .error (.wrongLength count (.elements name total))
    else readValueItems name total length rule fields count [] a

/-- Reads a record. -/
def reader {α : Type} (r : Record α) : Reader α where
  ofDoc p d :=
    match d with
    | .object members close => do
      let q ← p.inside
      let (a, seen, q) ← r.readMembers q members [] r.blank
      close.seen q
      match r.missing? seen with
      | some f =>
        .error ⟨.shape (.missingField f.key), .at (closing q (!members.isEmpty) close)⟩
      | none => .ok a
    | .list items close => do
      let q ← p.inside
      readItems r.name r.fields.length close r.fields q 0 items r.blank
    | d => .error (d.misfit p (.record r.name))
  ofValue rule v :=
    match v with
    | .object members => do
      let (a, seen) ← r.readValueMembers rule members [] r.blank
      match r.missing? seen with
      | some f => .error (.missingField f.key)
      | none => .ok a
    | .list vs => readValueItems r.name r.fields.length vs.length rule r.fields 0 vs r.blank
    | v => .error (v.misfit (.record r.name))

end Record

end CallPool.Json
