import CallPool.Proofs.Pool.Making
import CallPool.Proofs.Pool.Relaying

/-!
# The calls that a run passed on

In every run the tickets and parties of the calls that were passed on differ, a call that is under
way was passed on, and each party of a connection belongs to a call that is under way
(`Relays.of_run`).
-/

set_option autoImplicit false

namespace CallPool.Pool

/-- Each connection of a pool has a run of its own, and what is told of it is what it tells. -/
theorem exists_connection_run {options : Options} {start p : Pool} {began now : Nat}
    {moments : List Moment} (made : Pool.new options = .ok start)
    (run : Run start began moments now p) {g : Nat} {c : Connection}
    (found : p.connections[g]? = some c) :
    ∃ slot born own, Connection.Run (Connection.opened slot g start.options born) born own now c ∧
      eventsOf own = toldOf g (eventsOf moments) := by
  have course := (Follows.of_run run).course g
  rw [found, (Fresh.of_new made).connections, List.getElem?_nil] at course
  generalize toldOf g (eventsOf moments) = told at course
  cases course with
  | opens run _ => exact ⟨_, _, _, run, rfl⟩

/-- A connection that is there goes on in a run of its own. -/
theorem exists_connection_run_on {p p' : Pool} {began now : Nat} {moments : List Moment}
    (run : Run p began moments now p') {g : Nat} {c : Connection}
    (found : p.connections[g]? = some c) :
    ∃ c' own, p'.connections[g]? = some c' ∧ Connection.Run c began own now c' ∧
      eventsOf own = toldOf g (eventsOf moments) := by
  have course := (Follows.of_run run).course g
  rw [found] at course
  generalize p'.connections[g]? = x at course
  generalize toldOf g (eventsOf moments) = told at course
  cases course with
  | goesOn run _ => exact ⟨_, _, rfl, run, rfl⟩

/-- In every state of a run the connections are coherent. -/
theorem coherent_of_run {options : Options} {start p : Pool} {began now : Nat}
    {moments : List Moment} (made : Pool.new options = .ok start)
    (run : Run start began moments now p) : Coherent p := by
  intro g c found
  obtain ⟨_, _, _, own, _⟩ := exists_connection_run made run found
  exact .of_run own

/-- What a run tells of the calls that were passed on in it. -/
structure Relays (moments : List Moment) (p : Pool) : Prop where
  /-- Tickets and parties of calls are never given again. -/
  below : ∀ r ∈ relayedIn (eventsOf moments), r.ticket < p.nextTicket ∧
    ∃ c, p.connections[r.generation]? = some c ∧ r.party < c.nextTicket
  tickets_nodup : ((relayedIn (eventsOf moments)).map Relay.ticket).Nodup
  parties_nodup : ((relayedIn (eventsOf moments)).map fun r => (r.generation, r.party)).Nodup
  /-- A call that is under way was passed on. -/
  told : ∀ r ∈ p.relays, r ∈ relayedIn (eventsOf moments)
  /-- Each party of a connection belongs to a call that is under way. -/
  carried : ∀ g c, p.connections[g]? = some c → ∀ w ∈ c.waits,
    ∃ r ∈ p.relays, r.generation = g ∧ r.party = w.ticket

namespace Relays

variable {moments : List Moment} {p p' : Pool} {now : Nat} {a : Action} {es : List Event}

/-- A pool that has just been made has passed on no call. -/
theorem of_fresh (fresh : Fresh p) : Relays [] p where
  below := nofun
  tickets_nodup := List.nodup_nil
  parties_nodup := List.nodup_nil
  told := by
    rw [fresh.relays]
    nofun
  carried := by
    intro g c found
    rw [fresh.connections] at found
    cases found

/-- A call is known by its ticket. -/
theorem eq_of_ticket (h : Relays moments p) {r q : Relay} (r_member : r ∈ relayedIn (eventsOf moments))
    (q_member : q ∈ relayedIn (eventsOf moments)) (same : r.ticket = q.ticket) : r = q :=
  List.inj_on_of_nodup_map h.tickets_nodup r_member q_member same

/-- A call is known by its connection and its party there. -/
theorem eq_of_party (h : Relays moments p) {r q : Relay} (r_member : r ∈ relayedIn (eventsOf moments))
    (q_member : q ∈ relayedIn (eventsOf moments)) (generation : r.generation = q.generation)
    (party : r.party = q.party) : r = q :=
  List.inj_on_of_nodup_map h.parties_nodup r_member q_member (by rw [generation, party])

/-- The tickets and parties that were given before an action stay given. -/
theorem below_of_step (h : Relays moments p) (coherent : Coherent p) (taken : p.step now a = some (p', es))
    {r : Relay} (member : r ∈ relayedIn (eventsOf moments)) :
    r.ticket < p'.nextTicket ∧ ∃ c, p'.connections[r.generation]? = some c ∧ r.party < c.nextTicket := by
  obtain ⟨below, c, found, party⟩ := h.below r member
  refine ⟨Nat.lt_of_lt_of_le below (Relaying.of_step coherent taken).nextTicket_le, ?_⟩
  have course := (Follows.of_step taken).course r.generation
  rw [found] at course
  generalize p'.connections[r.generation]? = x at course
  generalize toldOf r.generation es = told at course
  cases course with
  | goesOn run _ =>
    have le := Connection.nextTicket_le_of_run run (coherent _ c found)
    exact ⟨_, rfl, Nat.lt_of_lt_of_le party le⟩

/-- One more action keeps what is known of the calls. -/
theorem extend (h : Relays moments p) (coherent : Coherent p) (taken : p.step now a = some (p', es)) :
    Relays (moments ++ [⟨now, a, es, p, p'⟩]) p' := by
  have relaying := Relaying.of_step coherent taken
  have new := fun r => relaying.of_mem_relayedIn (r := r)
  have all : relayedIn (eventsOf (moments ++ [⟨now, a, es, p, p'⟩])) =
      relayedIn (eventsOf moments) ++ relayedIn es := by simp
  have tickets_nodup := relaying.nodup_map Relay.ticket h.tickets_nodup <| by
    intro r r_member q q_member
    rw [(new r r_member).2.1]
    exact Nat.ne_of_lt (h.below q q_member).1
  have told : ∀ r, r ∈ p.relays ∨ r ∈ relayedIn es → r ∈ relayedIn (eventsOf moments) ++ relayedIn es := by
    rintro r (older | now)
    · exact List.mem_append_left _ (h.told r older)
    · exact List.mem_append_right _ now
  refine ⟨?_, ?_, ?_, ?_, ?_⟩
  · rw [all]
    intro r member
    rcases List.mem_append.1 member with older | now
    · exact h.below_of_step coherent taken older
    · obtain ⟨_, _, below, c, c', _, party, found', further⟩ := new r now
      exact ⟨below, c', found', by rw [party]; exact further⟩
  · rw [all]
    exact tickets_nodup
  · rw [all]
    refine relaying.nodup_map _ h.parties_nodup ?_
    intro r r_member q q_member same
    obtain ⟨generation, party⟩ := Prod.mk.inj same
    obtain ⟨_, c, found, below⟩ := h.below q q_member
    obtain ⟨_, _, _, d, _, found', next, _⟩ := new r r_member
    rw [generation, found'] at found
    obtain rfl := Option.some.inj found
    rw [party, next] at below
    exact Nat.lt_irrefl _ below
  · rw [all]
    intro r member
    exact told r (relaying.mem_relays member)
  · intro g c' found' w' member
    have carrying : ∃ r, (r ∈ p.relays ∨ r ∈ relayedIn es) ∧ r.generation = g ∧ r.party = w'.ticket := by
      rcases relaying.exists_ticket coherent found' member with ⟨c, found, w, w_member, same⟩ | ⟨r, new, mine⟩
      · obtain ⟨r, r_member, generation, party⟩ := h.carried g c found w w_member
        exact ⟨r, .inl r_member, generation, party.trans same⟩
      · exact ⟨r, .inr new, mine⟩
    obtain ⟨r, r_member, generation, party⟩ := carrying
    -- A call that is over has left its connection, so that it cannot be the one that carries `w'`.
    rcases relaying.kept coherent r_member with there | ⟨q, q_member, same, gone⟩
    · exact ⟨r, there, generation, party⟩
    · obtain rfl : q = r := List.inj_on_of_nodup_map tickets_nodup (told q q_member) (told r r_member) same
      exact absurd party.symm (gone c' (by rw [generation]; exact found') w' member)

/-- What is true of the calls in every run. -/
theorem of_run {options : Options} {start : Pool} {began : Nat} (made : Pool.new options = .ok start)
    (run : Run start began moments now p) : Relays moments p :=
  run.induct_moments (of_fresh (.of_new made)) fun _ _ _ _ _ _ past h taken =>
    h.extend (coherent_of_run made past) taken

end Relays

end CallPool.Pool
