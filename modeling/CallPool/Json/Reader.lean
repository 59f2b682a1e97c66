import CallPool.Json.Reading
import CallPool.Json.Scan

/-!
# Readers of typed values

A `Reader α` takes an `α` from a document or from a value. Both ways accept the same shapes; from a
document a fault has a place, and the first fault in document order is the one reported.
`Reader.parse` reads a whole text.
-/

set_option autoImplicit false

namespace CallPool.Json

/-- What is said of the elements of a list value that a record did not take: that there should be
fewer, or just as many as were taken. -/
inductive SurplusRule
  | fewer
  | exactly
  deriving DecidableEq

/-- A way to take an `α` from a document and from a value. -/
structure Reader (α : Type) where
  ofDoc : Place → Doc → Except Fault α
  ofValue : SurplusRule → Value → Except Mismatch α

/-- What `read` takes from a text that is one document. Only when that is taken does it matter
whether anything stands behind it. -/
def Text.read {α : Type} (read : Place → Doc → Except Fault α) (t : Text) : Except Fault α := do
  let a ← read (Place.start t.before.length) t.root
  match t.surplus with
  | some place => .error ⟨.spelling .trailingCharacters, .at place⟩
  | none => .ok a

/-- What `read` takes from a text. -/
def readText {α : Type} (read : Place → Doc → Except Fault α) (text : List UInt8) :
    Except Error α :=
  ((scan text).read read).mapError (Fault.error text)

namespace Reader

/-- Reads text. -/
def text : Reader String where
  ofDoc p d :=
    match d with
    | .string s => Quoted.string s (p.offset + 1)
    | d => .error (d.misfit p .text)
  ofValue _ v :=
    match v with
    | .string s => .ok s
    | v => .error (v.misfit .text)

/-- Reads a number and gives what `accept` makes of it; other values do not fit. -/
def ofNumber {α : Type} (expected : Expected) (accept : Number → Except Mismatch α) :
    Reader α where
  ofDoc p d :=
    match d with
    | .number n =>
      match n.number p.offset with
      | .error f => .error f
      | .ok x =>
        match accept x with
        | .ok a => .ok a
        | .error m => .error ⟨.shape m, .at (p.offset + d.width)⟩
    | d => .error (d.misfit p expected)
  ofValue _ v :=
    match v with
    | .number x => accept x
    | v => .error (v.misfit expected)

/-- Reads an integer of 64 bits with a sign. -/
def signed : Reader Int64 :=
  ofNumber .signed fun x =>
    match x with
    | .natural n =>
      if n.toNat < Nat.pow 2 63 then .ok (Int64.ofNat n.toNat)
      else .error (.wrongValue n.toNat .signed)
    | .negative n => .ok (Int64.ofInt (Int.negSucc n.val))
    | .float _ => .error (.wrongType x.found .signed)

/-- Reads an integer of 64 bits without a sign. -/
def unsigned : Reader UInt64 :=
  ofNumber .unsigned fun x =>
    match x with
    | .natural n => .ok n
    | .negative n => .error (.wrongValue (Int.negSucc n.val) .unsigned)
    | .float _ => .error (.wrongType x.found .unsigned)

/-- Reads a floating-point number; integers are converted. -/
def float : Reader Binary64 := ofNumber .float fun x => .ok x.toBinary64

/-- Reads any value, in normal form. -/
def any : Reader Value where
  ofDoc p d := (d.value p).map Value.normal
  ofValue _ v := .ok v.normal

/-- Reads an object as its members, in normal form. -/
def members : Reader Members where
  ofDoc p d :=
    match d with
    | .object ms close => do
      let q ← p.inside
      let (vs, q) ← memberValues q ms
      close.seen q
      .ok (normalMembers vs [])
    | d => .error (d.misfit p .map)
  ofValue _ v :=
    match v with
    | .object ms => .ok (normalMembers ms [])
    | v => .error (v.misfit .map)

/-- Reads `null` as nothing, and all else with `r`. -/
def optional {α : Type} (r : Reader α) : Reader (Option α) where
  ofDoc p d :=
    match d with
    | .literal .null => .ok none
    | d => (r.ofDoc p d).map some
  ofValue rule v :=
    match v with
    | .null => .ok none
    | v => (r.ofValue rule v).map some

/-- The elements of a list, the first of which starts here. -/
def items {α : Type} (r : Reader α) : Place → List (Item Doc) → Except Fault (List α)
  | _, [] => .ok []
  | p, i :: rest => do
    let a ← r.ofDoc (p.ofItem i) i.value
    let as ← items r (p.behindItem i) rest
    .ok (a :: as)

/-- Reads a list, every element with `r`. -/
def list {α : Type} (r : Reader α) : Reader (List α) where
  ofDoc p d :=
    match d with
    | .list is close => do
      let q ← p.inside
      let as ← items r q is
      close.seen
      .ok as
    | d => .error (d.misfit p .sequence)
  ofValue rule v :=
    match v with
    | .list vs => vs.mapM (r.ofValue rule)
    | v => .error (v.misfit .sequence)

/-- Reads a whole text. -/
def parse {α : Type} (r : Reader α) (text : List UInt8) : Except Error α := readText r.ofDoc text

/-- Reads a whole value. -/
def decode {α : Type} (r : Reader α) (v : Value) : Except Error α :=
  (r.ofValue .fewer v).mapError Mismatch.error

end Reader

end CallPool.Json
