import CallPool.Json.Record
import CallPool.Json.Writing
import CallPool.Text.Base64

/-!
# Correlation IDs

A call and its reply carry the same ID. A generated ID has three segments joined by `_`: eight
random bytes in URL-safe base64, the nanoseconds of the clock, and the sequence number of the
generator. The sequence number is a new one each time, whatever the bytes and the clock say, and
can be split off from the right, so no two generated IDs are equal.
-/

set_option autoImplicit false

namespace CallPool

/-- An ID by which a reply is matched to its call. -/
structure CorrelationId where
  text : String
  deriving DecidableEq

namespace CorrelationId

/-- The order of the bytes of two IDs. -/
def order (a b : CorrelationId) : Ordering :=
  if a.text < b.text then .lt else if a.text = b.text then .eq else .gt

/-- Reads an ID, which is written as its text. -/
def reader : Json.Reader CorrelationId where
  ofDoc p d := (Json.Reader.text.ofDoc p d).map CorrelationId.mk
  ofValue rule v := (Json.Reader.text.ofValue rule v).map CorrelationId.mk

/-- The document that an ID is written as. -/
def doc (id : CorrelationId) : Json.Doc := Json.Doc.ofString id.text

/-- The eight random bytes of an ID. -/
abbrev RandomBytes := Vector UInt8 8

/-- The ID of these random bytes, this clock reading and this sequence number. -/
def ofSegments (random : RandomBytes) (nanos : Nat) (sequence : UInt64) : CorrelationId :=
  ⟨String.ofList (Text.Base64.encode random.toList) ++ "_" ++ toString nanos ++ "_" ++
    toString sequence.toNat⟩

/-- What stands in front of the last `_` and behind it. -/
def splitLast (s : List Char) : Option (List Char × List Char) :=
  let behind := (s.reverse.takeWhile (· ≠ '_')).reverse
  match (s.reverse.dropWhile (· ≠ '_')) with
  | [] => none
  | _ :: front => some (front.reverse, behind)

/-- The three segments of an ID, split at `_` from the right: random bytes, nanoseconds, sequence
number. -/
def segments? (id : CorrelationId) : Option (String × String × String) := do
  let (front, sequence) ← splitLast id.text.toList
  let (random, nanos) ← splitLast front
  some (String.ofList random, String.ofList nanos, String.ofList sequence)

/-- A source of IDs: the sequence number of the next one. -/
structure Source where
  sequence : UInt64 := 0
  deriving DecidableEq

/-- Generates an ID: takes the sequence number and moves on to the next. -/
def Source.generate (s : Source) (random : RandomBytes) (nanos : Nat) : CorrelationId × Source :=
  (ofSegments random nanos s.sequence, { s with sequence := s.sequence + 1 })

/-- Generates an ID for each pair of random bytes and clock reading, in order. -/
def Source.generateAll (s : Source) : List (RandomBytes × Nat) → List CorrelationId
  | [] => []
  | (random, nanos) :: rest =>
    let (id, s) := s.generate random nanos
    id :: s.generateAll rest

end CorrelationId

end CallPool
