import CallPool.Proofs.Connection.Isolation
import Mathlib.Data.List.Pairwise

/-!
# What generated IDs spare

The threads of a process give out each ID once. Where all who are registered have such IDs
(`GeneratedIds`), what is said of waiters holds without the exceptions that are made for those who share
one: the registry of a live connection lists exactly the waiters that are outstanding, nobody takes away
anything but its own entry, and only who was registered when the connection was severed ends with the loss
of it.
-/

set_option autoImplicit false

namespace CallPool.Connection

variable {slot generation began now : Nat} {options : Options} {moments : List Moment} {t : Ticket}
  {id : CorrelationId} {c : Connection}

/-- Nobody else is registered under the ID of a party. -/
theorem GeneratedIds.not_shared (generated : GeneratedIds moments)
    (registered : Event.registered t id ∈ eventsOf moments) : ¬ Shared moments t id := by
  rintro ⟨t', other, registered'⟩
  have symmetric : Std.Symm fun e e' : Event =>
      ∀ b, e.registeredId? = some b → ∀ b', e'.registeredId? = some b' → b ≠ b' :=
    ⟨fun _ _ apart b first b' second => (apart b' second b first).symm⟩
  have apart := (List.pairwise_filterMap.1 generated.nodup).forall registered registered' fun same =>
    other (Event.registered.inj same).1.symm
  exact apart id rfl id rfl rfl

/-- The registry of a live connection lists the waiters that are outstanding. -/
theorem GeneratedIds.entry_iff_outstanding
    (run : Run (Connection.opened slot generation options began) began moments now c)
    (generated : GeneratedIds moments) (live : c.connected = true) :
    (id, t) ∈ c.registry.entries ↔ Outstanding moments t id := by
  rw [entry_iff_not_ousted run live]
  exact and_iff_left (not_ousted_of_distinct run generated.distinct)

/-- No end of a waiter takes away the entry of another one, and no waiter of a live connection ends with
its loss. -/
theorem GeneratedIds.isolated
    (run : Run (Connection.opened slot generation options began) began moments now c)
    (generated : GeneratedIds moments) (live : c.connected = true) : Isolated moments :=
  isolated_of_not_ousted run live fun _ _ => not_ousted_of_distinct run generated.distinct

/-- Who leaves takes its own entry along, and leaves all others as they are. -/
theorem GeneratedIds.departsAlone {p : Party}
    (run : Run (Connection.opened slot generation options began) began moments now c)
    (generated : GeneratedIds moments) (member : p ∈ c.parties) : DepartsAlone c (c.leave p) p :=
  departsAlone_leave (Coherent.of_run run) (.of_run run generated.distinct) member

/-- Who is dropped leaves nothing under its ID. -/
theorem GeneratedIds.unlisted_of_dropped
    (run : Run (Connection.opened slot generation options began) began moments now c)
    (generated : GeneratedIds moments) (registered : Event.registered t id ∈ eventsOf moments)
    (dropped : Dropped moments t) : id ∉ c.registry.ids :=
  fun listed => generated.not_shared registered (shared_of_dropped run dropped listed)

/-- The grounds of a call for ending with the loss of the connection are that it was severed while the
call was registered. -/
theorem GeneratedIds.severs_of_grounds {limit : Duration} {since : Nat} (generated : GeneratedIds moments)
    (registered : Event.registered t id ∈ eventsOf moments)
    (grounds : Grounds moments slot t id limit since now (.error (.connectionLost slot id))) :
    ∃ m ∈ moments, Severs m t id := by
  cases grounds with
  | lost why => exact why.resolve_right (generated.not_shared registered)

end CallPool.Connection
