import CallPool.CorrelationId
import CallPool.Error
import CallPool.Message.Response

/-!
# Names for generated IDs

A script calls its calls by tags, and cannot know the IDs that are generated for them. In a report
`<tag>` stands for the ID of that call; in what the server sends it does so as soon as the server
can know the ID.
-/

set_option autoImplicit false

namespace CallPool.Script

/-- The IDs that were generated, and for which tags. -/
structure Naming where
  source : CorrelationId.Source := { sequence := 0 }
  given : List (CorrelationId × String) := []
  /-- The tags whose IDs the server can know. -/
  known : List String := []
  /-- How many IDs without a tag the server has read. -/
  automatic : Nat := 0

namespace Naming

/-- How a report and a script write the ID of a call. -/
def mark (tag : String) : String := "<" ++ tag ++ ">"

/-- The eight bytes of a number. The IDs of a script are made from their sequence numbers, so that
none of them occurs in another. -/
def bytes (n : UInt64) : CorrelationId.RandomBytes :=
  Vector.ofFn fun i => UInt8.ofNat (n.toNat / Nat.pow 256 (7 - i.val) % 256)

/-- Generates the ID of a call. -/
def generate (n : Naming) (tag : String) : CorrelationId × Naming :=
  let (id, source) := n.source.generate (bytes n.source.sequence) 1700000000000000000
  (id, { n with source := source, given := n.given ++ [(id, tag)] })

/-- Generates an ID for a call without a tag. -/
def generateUnnamed (n : Naming) : CorrelationId × Naming :=
  let (id, source) := n.source.generate (bytes n.source.sequence) 1700000000000000000
  (id, { n with source := source })

/-- The tag of the call for which an ID was generated. -/
def tag? (n : Naming) (id : CorrelationId) : Option String :=
  (n.given.find? fun g => g.1 = id).map Prod.snd

/-- From now on the server can know an ID. -/
def learn (n : Naming) (id : CorrelationId) : Naming :=
  match n.tag? id with
  | some tag => if tag ∈ n.known then n else { n with known := tag :: n.known }
  | none => n

/-- The server has read an ID. One without a tag gets the next of the tags `auto1`, `auto2` and so
on. -/
def meet (n : Naming) (id : CorrelationId) : Naming :=
  match n.tag? id with
  | some _ => n.learn id
  | none =>
    let tag := "auto" ++ toString (n.automatic + 1)
    { n with automatic := n.automatic + 1, given := n.given ++ [(id, tag)] }.learn id

/-- A text with the tags of generated IDs in place of them. -/
def reveal (n : Naming) (s : String) : String :=
  n.given.foldl (fun s g => s.replace g.1.text (mark g.2)) s

/-- A text with generated IDs in place of the tags for them that the server can know. -/
def fill (n : Naming) (s : String) : String :=
  n.given.foldl (fun s g => if g.2 ∈ n.known then s.replace (mark g.2) g.1.text else s) s

/-- An error with tags in place of generated IDs. -/
def revealError (n : Naming) : Error → Error
  | .connectionLost slot id => .connectionLost slot ⟨n.reveal id.text⟩
  | .requestTimeout id ms => .requestTimeout ⟨n.reveal id.text⟩ ms
  | .remote code message => .remote (n.reveal code) (n.reveal message)
  | e => e

/-- The ID in an error. -/
def errorId? : Error → Option CorrelationId
  | .connectionLost _ id => some id
  | .requestTimeout id _ => some id
  | _ => none

end Naming

/-- The text of bytes that are UTF-8. -/
def textOf (bytes : List UInt8) : String := (String.fromUTF8? ⟨bytes.toArray⟩).getD ""

/-- The ID that a frame carries. -/
def frameId? (frame : List UInt8) : Option CorrelationId :=
  match Response.parse frame with
  | .ok r => r.id
  | .error _ => none

end CallPool.Script
