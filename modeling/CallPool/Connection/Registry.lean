import CallPool.CorrelationId

/-!
# The registry of a connection

The registry says which party waits for the reply under which ID. There is at most one party under
an ID: registering a second one displaces the first. A party that leaves removes whatever stands
under its ID, also the entry of another party that displaced it.
-/

set_option autoImplicit false

namespace CallPool

/-- The number of a party of a connection. -/
abbrev Ticket := Nat

/-- The parties that wait for a reply, with the IDs under which they do. -/
structure Registry where
  entries : List (CorrelationId × Ticket)
  deriving DecidableEq

namespace Registry

/-- The registry in which nobody waits. -/
def empty : Registry := ⟨[]⟩

/-- How many parties wait. -/
def size (r : Registry) : Nat := r.entries.length

/-- The IDs under which somebody waits. -/
def ids (r : Registry) : List CorrelationId := r.entries.map Prod.fst

/-- The parties that wait. -/
def tickets (r : Registry) : List Ticket := r.entries.map Prod.snd

/-- Who waits under an ID. -/
def find? (r : Registry) (id : CorrelationId) : Option Ticket :=
  (r.entries.find? fun e => e.1 = id).map Prod.snd

/-- Removes what stands under an ID. -/
def erase (r : Registry) (id : CorrelationId) : Registry :=
  ⟨r.entries.filter fun e => e.1 ≠ id⟩

/-- Registers a party under an ID, in place of the one that stands there. -/
def insert (r : Registry) (id : CorrelationId) (t : Ticket) : Registry :=
  ⟨(r.erase id).entries ++ [(id, t)]⟩

/-- The first of some IDs under which somebody waits. -/
def firstOf? (r : Registry) (ids : List CorrelationId) : Option CorrelationId :=
  ids.find? fun id => (r.find? id).isSome

/-- Removing an ID leaves the entries of the other IDs. -/
theorem mem_erase {r : Registry} {id : CorrelationId} {e : CorrelationId × Ticket} :
    e ∈ (r.erase id).entries ↔ e ∈ r.entries ∧ e.1 ≠ id := by
  simp [erase]

/-- Registering a party under an ID puts it in the place of whoever had that ID. -/
theorem mem_insert {r : Registry} {id : CorrelationId} {t : Ticket} {e : CorrelationId × Ticket} :
    e ∈ (r.insert id t).entries ↔ e ∈ r.entries ∧ e.1 ≠ id ∨ e = (id, t) := by
  simp [insert, erase]

/-- Nobody is found under an ID that has just been removed. -/
theorem find?_erase_self (r : Registry) (id : CorrelationId) : (r.erase id).find? id = none := by
  simp [find?, erase]

end Registry

end CallPool
