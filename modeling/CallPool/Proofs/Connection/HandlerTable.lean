import CallPool.Proofs.Connection.Isolation

/-!
# What the registry lists

While a connection is live its registry lists the waiters that are outstanding: those that were
registered, for which no response has come, and which have not been dropped. Once it is dead the registry
is empty and stays so. If no ID is registered while a waiter that has it is outstanding, there is one
exception to the first half: a waiter that has its response but has not been dropped yet takes the entry
of the next one with its ID along when it is dropped (`Robbed`). Nobody else loses an entry
(`robbed_iff_ousted`), and nobody is robbed where an ID is left to its waiter until that is dropped.

Main statement: `registry_lists_outstanding`.
-/

set_option autoImplicit false

namespace CallPool.Connection

/-- Whether a waiter has lost its entry to one that had its response before, and is dropped only now. -/
def Robbed (moments : List Moment) (t : Ticket) (id : CorrelationId) : Prop :=
  ∃ older m newer t' response, moments = older ++ m :: newer ∧ (id, t) ∈ m.before.registry.entries ∧
    t' ≠ t ∧ Event.registered t' id ∈ eventsOf older ∧ Event.delivered t' response ∈ eventsOf older ∧
      Drops m.action m.events t'

/-- Whether a reply is there. -/
def Reply.isDelivered : Reply → Bool
  | delivered _ => true
  | _ => false

section Run

variable {slot generation began now : Nat} {options : Options} {moments : List Moment} {t t' : Ticket}
  {id : CorrelationId} {c : Connection}

/-- Whoever has an entry is outstanding. -/
theorem outstanding_of_entry
    (run : Run (Connection.opened slot generation options began) began moments now c)
    (entered : (id, t) ∈ c.registry.entries) : Outstanding moments t id := by
  obtain ⟨w, member, rfl, waiting, awaits⟩ := ((Coherent.of_run run).entry_iff id t).1 entered
  exact (outstanding_iff (Account.of_run run)).2 ⟨w, member, rfl, waiting, by simp [awaits]⟩

/-- Who is registered in one of some moments, and outstanding behind them all, has been outstanding since. -/
theorem Outstanding.of_append {older newer : List Moment} (h : Outstanding (older ++ newer) t id)
    (registered : Event.registered t id ∈ eventsOf older) : Outstanding older t id := by
  obtain ⟨_, undelivered, undropped⟩ := h
  refine ⟨registered, fun response told => undelivered response ?_, fun dropped => undropped ?_⟩
  · rw [eventsOf_append]
    exact List.mem_append_left _ told
  · exact dropped_append.2 (.inl dropped)

/-- Of two waiters that are registered under an ID, one is registered while the other one is outstanding,
if both are at the end. -/
theorem DistinctWhileOutstanding.unique
    (run : Run (Connection.opened slot generation options began) began moments now c)
    (distinct : DistinctWhileOutstanding moments) (first : Outstanding moments t id)
    (second : Outstanding moments t' id) : t = t' := by
  obtain ⟨older, m, newer, rfl, told⟩ := exists_moment_of_mem_eventsOf first.1
  obtain ⟨past, taken, -⟩ := run.at_moment
  have alone := (Passage.of_step (Coherent.of_run past) taken).registered
  have second_told := second.1
  rw [eventsOf_append, eventsOf_cons, List.mem_append, List.mem_append] at second_told
  rcases second_told with earlier | here | later
  · exact absurd (second.of_append earlier) (distinct older m newer t t' id rfl told)
  · exact (alone t id told).1.trans (alone t' id here).1.symm
  · -- The first one was there when the second one came.
    obtain ⟨mid, m', last, rfl, told'⟩ := exists_moment_of_mem_eventsOf later
    have cut : older ++ m :: (mid ++ m' :: last) = (older ++ m :: mid) ++ m' :: last := by simp
    rw [cut] at first
    refine absurd (first.of_append ?_) (distinct (older ++ m :: mid) m' last t' t id cut told')
    rw [eventsOf_append, eventsOf_cons]
    exact List.mem_append_right _ (List.mem_append_left _ told)

/-- Where no ID is registered while a waiter that has it is outstanding, waiters lose their entries to
those alone that are dropped late. -/
theorem robbed_iff_ousted
    (run : Run (Connection.opened slot generation options began) began moments now c)
    (distinct : DistinctWhileOutstanding moments) : Robbed moments t id ↔ Ousted moments t id := by
  constructor
  · rintro ⟨older, m, newer, t', response, same, entered, other, registered, -, drops⟩
    exact ⟨older, m, newer, same, entered, .removed other registered drops⟩
  · rintro ⟨older, m, newer, rfl, entered, ousts⟩
    obtain ⟨past, taken, -⟩ := run.at_moment
    have there := outstanding_of_entry past entered
    cases ousts with
    | displaced registered => exact absurd there (distinct older m newer _ t id rfl registered)
    | @removed t' other registered drops =>
      obtain ⟨p, member, rfl, -⟩ := leaves_of_drops (Coherent.of_run past)
        ((Coherent.of_run past).live_of_entry entered) taken drops
      have account := Account.of_run past
      have earlier : DistinctWhileOutstanding older := fun older' m' newer' t t' id same =>
        distinct older' m' (newer' ++ m :: newer) t t' id (by simp [same])
      -- Without a response it would be outstanding besides the other one.
      by_contra unrobbed
      refine other (earlier.unique past ⟨registered, fun response told => ?_, fun dropped => ?_⟩ there)
      · exact unrobbed ⟨older, m, newer, p.ticket, response, rfl, entered, other, registered, told, drops⟩
      · exact (account.gone p.ticket dropped).2 p.wait (List.mem_map_of_mem member) rfl

/-- To see that no ID is registered while a waiter that has it is outstanding it is enough to look at the
waiters that are there. -/
theorem distinctWhileOutstanding_of_waits
    (run : Run (Connection.opened slot generation options began) began moments now c)
    (answered : ∀ m ∈ moments, ∀ id ∈ m.events.filterMap Event.registeredId?, ∀ w ∈ m.before.waits,
      w.purpose.id? = some id → w.reply.isDelivered = true) : DistinctWhileOutstanding moments := by
  rintro older m newer t t' id rfl told outstanding
  obtain ⟨past, -⟩ := run.at_moment
  obtain ⟨w, member, -, waiting, unanswered⟩ := (outstanding_iff (Account.of_run past)).1 outstanding
  have replied := answered m (by simp) id (List.mem_filterMap.2 ⟨_, told, rfl⟩) w member waiting
  cases reply : w.reply with
  | delivered response => exact unanswered response reply
  | _ => simp [reply, Reply.isDelivered] at replied

/-- In every state of a run in which no ID is registered while a waiter that has it is outstanding: a live
connection has one entry for each outstanding waiter that was not robbed, under its ID, and no other; and
nobody is robbed where an ID is left to its waiter until that is dropped. A dead one has no entry, takes
no waiter and has no load; and a connection that is dead stays dead. -/
theorem registry_lists_outstanding
    (run : Run (Connection.opened slot generation options began) began moments now c)
    (distinct : DistinctWhileOutstanding moments) :
    (c.connected = true → c.registry.ids.Nodup ∧
      (∀ id t, (id, t) ∈ c.registry.entries ↔ Outstanding moments t id ∧ ¬ Robbed moments t id) ∧
      (∀ id, id ∈ c.registry.ids ↔ ∃ t, Outstanding moments t id ∧ ¬ Robbed moments t id) ∧
      (DistinctWhileHeld moments → ∀ t id, ¬ Robbed moments t id)) ∧
    (c.connected = false → c.registry = Registry.empty ∧ (∀ id t, c.register? id t = none) ∧
      c.load = none) ∧
    ∀ older m newer, moments = older ++ m :: newer → m.before.connected = false →
      (∀ m' ∈ m :: newer, m'.after.connected = false) ∧ c.connected = false := by
  have coherent := Coherent.of_run run
  refine ⟨fun live => ?_, fun dead => ?_, ?_⟩
  · have entries : ∀ id t, (id, t) ∈ c.registry.entries ↔
        Outstanding moments t id ∧ ¬ Robbed moments t id := by
      intro id t
      rw [entry_iff_not_ousted run live, robbed_iff_ousted run distinct]
    refine ⟨coherent.ids_nodup, entries, fun id => ?_, fun held t id => ?_⟩
    · unfold Registry.ids
      simp only [List.mem_map, Prod.exists, exists_and_right, exists_eq_right, entries]
    · rw [robbed_iff_ousted run distinct]
      exact not_ousted_of_distinct run held
  · refine ⟨coherent.empty_of_dead dead, fun id t => ?_, ?_⟩
    · simp [register?, dead]
    · simp [load, dead]
  · rintro older m newer rfl dead
    obtain ⟨_, taken, _, _, behind⟩ := run.at_moment
    have dead_after := dead_of_effect (.of_step taken) dead
    obtain ⟨later, at_end⟩ := dead_of_run behind dead_after
    refine ⟨fun m' member => ?_, at_end⟩
    rcases List.mem_cons.1 member with rfl | newer_member
    · exact dead_after
    · exact later m' newer_member

end Run

/-- A waiter has its response, and is dropped only when its ID has been registered again. -/
def lateDrop : List (Nat × Action) := [
  (0, .wait ⟨"x"⟩), (1, .receive (.text "\x7b\"id\":\"x\"\x7d")), (2, .wait ⟨"x"⟩), (3, .cancel 0)]

/-- The second waiter is outstanding on a connection that is live and lists nobody: it has been robbed. -/
theorem robbed_of_lateDrop : ∃ moments now c,
    Run (Connection.opened 0 0 .default 0) 0 moments now c ∧ DistinctWhileOutstanding moments ∧
      c.connected = true ∧ c.registry = Registry.empty ∧ Outstanding moments 1 ⟨"x"⟩ ∧
      Robbed moments 1 ⟨"x"⟩ := by
  have played : ((History.play step (Connection.opened 0 0 .default 0) lateDrop).map fun r =>
      decide (r.2.connected = true ∧ r.2.registry.entries = [] ∧
        (r.2.waits.map fun w => (w.ticket, w.purpose.id?, w.reply.isDelivered)) =
          [(1, some ⟨"x"⟩, false)] ∧
        ∀ m ∈ r.1, ∀ id ∈ m.events.filterMap Event.registeredId?, ∀ w ∈ m.before.waits,
          w.purpose.id? = some id → w.reply.isDelivered = true)) = some true := by decide
  obtain ⟨⟨moments, c⟩, went, computed⟩ := Option.map_eq_some_iff.1 played
  obtain ⟨live, unlisted, waits, answered⟩ := of_decide_eq_true computed
  have run := History.of_play went (show History.inOrder 0 lateDrop = true by decide)
  have distinct := distinctWhileOutstanding_of_waits run answered
  obtain ⟨w, only, shape⟩ := List.map_eq_singleton_iff.1 waits
  obtain ⟨ticket, waiting, unanswered⟩ : w.ticket = 1 ∧ w.purpose.id? = some ⟨"x"⟩ ∧
      w.reply.isDelivered = false := by simpa using shape
  have outstanding : Outstanding moments 1 ⟨"x"⟩ := by
    refine (outstanding_iff (Account.of_run run)).2 ⟨w, by rw [only]; simp, ticket, waiting, ?_⟩
    intro response reply
    rw [reply] at unanswered
    cases unanswered
  obtain ⟨-, entries, -⟩ := (registry_lists_outstanding run distinct).1 live
  refine ⟨moments, _, c, run, distinct, live, congrArg Registry.mk unlisted, outstanding, ?_⟩
  by_contra unrobbed
  have listed := (entries ⟨"x"⟩ 1).2 ⟨outstanding, unrobbed⟩
  rw [unlisted] at listed
  cases listed

end CallPool.Connection
