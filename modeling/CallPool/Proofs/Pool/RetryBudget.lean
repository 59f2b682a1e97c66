import CallPool.Proofs.Pool.LedgerRun

/-!
# The budget of a reconnector

A reconnector of the pool that gives up has begun as many dials as the options allow, all of its own
slot, and all of them have failed. Of these dials, those that it began before some point of the run
are missing behind it (`budget_since`): a loss gets the whole budget exactly if the reconnector that
gives up behind it had begun no dial before it. That is so if the loss finds the slot without a
reconnector. But a connection round can fill a slot while a reconnector for it is at work, since it
presents no token; a loss of that connection starts nothing, and the slot may be given up without
another dial (`budget_of_swallowedLoss`).
-/

set_option autoImplicit false

namespace CallPool.Pool

variable {p p' : Pool} {now : Nat} {past es : List Event}

/-! ## A reconnector is new when it is started -/

/-- No change gives a ticket back. -/
theorem Work.nextTicket_le (work : Work now p es p') : p.nextTicket ≤ p'.nextTicket := by
  rcases work.aside_or_books with other | books
  · exact other.nextTicket_le
  · exact books.nextTicket_le

/-- The end of a reconnector starts none. -/
theorem recovering_not_mem_endReconnector {r q : Reconnector} {filled : Bool} :
    Event.recovering q ∉ (p.endReconnector r filled).2 := by
  intro member
  rcases mem_endReconnector member with same | same
  · cases same
  · cases same

/-- What is done when a reconnector is started. -/
theorem Work.started {r : Reconnector} (work : Work now p es p') (told : Event.recovering r ∈ es) :
    es = [.recovering r] ∧ r.ticket = p.nextTicket ∧ r.attempt = 0 ∧ r.phase = phaseAt r.schedule 0 now ∧
      p'.reconnectors = p.reconnectors ++ [r] ∧ p'.nextTicket = p.nextTicket + 1 := by
  cases work with
  | aside h => cases h.quiet _ told
  | starts isOpen free =>
    rw [recover_of_free isOpen free] at told ⊢
    obtain rfl := Event.recovering.inj (List.mem_singleton.1 told)
    exact ⟨rfl, rfl, rfl, rfl, rfl, rfl⟩
  | joins =>
    obtain rfl := Event.recovering.inj (List.mem_singleton.1 told)
    exact ⟨rfl, rfl, rfl, rfl, rfl, rfl⟩
  | fills _ _ _ _ =>
    rcases List.mem_cons.1 told with first | rest
    · cases first
    · exact absurd rest recovering_not_mem_endReconnector
  | givesUp _ _ =>
    rcases List.mem_cons.1 told with first | rest
    · cases first
    · exact absurd rest recovering_not_mem_endReconnector
  | stops _ _ _ => exact absurd told recovering_not_mem_endReconnector
  | dials _ => cases List.mem_singleton.1 told
  | ends _ _ => cases List.mem_singleton.1 told
  | redials _ _ _ _ => cases List.mem_singleton.1 told
  | fails _ _ _ => cases List.mem_singleton.1 told

/-- A reconnector that is started in a change has a new ticket. -/
theorem Work.recovering {q : Reconnector} (work : Work now p es p') (told : Event.recovering q ∈ es) :
    p.nextTicket ≤ q.ticket :=
  Nat.le_of_eq (work.started told).2.1.symm

/-- A reconnector that is started in a work has a new ticket. -/
theorem Works.recovering {q : Reconnector} (works : Works now p es p')
    (told : Event.recovering q ∈ es) : p.nextTicket ≤ q.ticket := by
  induction works with
  | nil _ => cases told
  | cons work _ ih =>
    rcases List.mem_append.1 told with early | late
    · exact work.recovering early
    · exact Nat.le_trans work.nextTicket_le (ih late)

/-- A reconnector that is started has a ticket that nobody had before. -/
theorem Move.recovering {q : Reconnector} (move : Move now p es p')
    (told : Event.recovering q ∈ es) : p.nextTicket ≤ q.ticket := by
  cases move with
  | works works => exact works.recovering told
  | closes => cases mem_close told
  | drops _ => cases (Aside.cancel p now _).quiet _ told
  | supervises _ _ handled => exact (Works.of_handled handled).recovering told
  | installs _ opens _ installation concludes _ =>
    rcases List.mem_append.1 told with early | late
    · rcases List.mem_append.1 early with noticed | placed
      · cases opens.quiet _ noticed
      · cases installation <;> cases List.mem_singleton.1 placed
    · have rest := concludes.recovering late
      rw [installation.rest] at rest
      exact Nat.le_trans opens.nextTicket_le rest

/-- A reconnector that is started behind a point of a run had begun no dial before it. -/
theorem dialsBy_eq_nil_of_recovering {options : Options} {start : Pool} {began : Nat}
    {older newer : List Moment} {q : Reconnector} (made : Pool.new options = .ok start)
    (run : Run start began (older ++ newer) now p) (told : Event.recovering q ∈ eventsOf newer) :
    dialsBy q.ticket (eventsOf older) = [] := by
  obtain ⟨front, m, back, rfl, seen⟩ := exists_moment_of_mem_eventsOf told
  rw [← List.append_assoc] at run
  obtain ⟨past, taken, _⟩ := run.at_moment
  -- Nothing is told of its ticket before the moment in which it is started.
  have accounts := Ledger.of_run made past
  have unborn := (accounts.unborn q.ticket ((Move.of_step accounts taken).recovering seen)).1
  rw [eventsOf_append, dialsBy_append] at unborn
  exact (List.append_eq_nil_iff.1 unborn).1

/-! ## What is left of a budget -/

/-- The dial of a slot, if an event tells that one began. -/
def Event.dialTo? (s : Nat) : Event → Option Dial
  | .dialed d => if d.slot = s then some d else none
  | _ => none

/-- The dials of a slot that anybody began, in order. -/
def dialsTo (s : Nat) (es : List Event) : List Dial := es.filterMap (Event.dialTo? s)

/-- What a reconnector dials for its slot is part of what is dialed for the slot. -/
theorem length_dialsBy_le {t : Ticket} {s : Nat} (mine : ∀ d ∈ dialsBy t es, d.slot = s) :
    (dialsBy t es).length ≤ (dialsTo s es).length := by
  induction es with
  | nil => exact Nat.le_refl _
  | cons e rest ih =>
    have later : (dialsBy t rest).length ≤ (dialsTo s rest).length := by
      apply ih
      intro d member
      apply mine
      obtain ⟨x, x_member, same⟩ := List.mem_filterMap.1 member
      exact List.mem_filterMap.2 ⟨x, List.mem_cons_of_mem _ x_member, same⟩
    cases first : e.dialBy? t with
    | none =>
      have skipped : dialsBy t (e :: rest) = dialsBy t rest := List.filterMap_cons_none first
      have grows : (dialsTo s rest).length ≤ (dialsTo s (e :: rest)).length :=
        ((List.sublist_cons_self e rest).filterMap _).length_le
      rw [skipped]
      exact Nat.le_trans later grows
    | some d =>
      have counted : dialsBy t (e :: rest) = d :: dialsBy t rest := List.filterMap_cons_some first
      have slot : d.slot = s := by
        apply mine
        rw [counted]
        exact List.mem_cons_self
      have here : e.dialTo? s = some d := by
        cases e with
        | dialed x =>
          simp only [Event.dialBy?] at first
          split at first
          · cases first
            simp only [Event.dialTo?]
            rw [if_pos slot]
          · cases first
        | _ => cases first
      have also : dialsTo s (e :: rest) = d :: dialsTo s rest := List.filterMap_cons_some here
      rw [counted, also, List.length_cons, List.length_cons]
      omega

/-- A pool keeps the options that it is made of. -/
theorem options_of_run {options : Options} {start : Pool} {began : Nat} {moments : List Moment}
    (made : Pool.new options = .ok start) (run : Run start began moments now p) :
    p.options = options := by
  rw [(Follows.of_run run).options]
  exact (Made.of_new made).options

/-- A reconnector of the pool that gives up behind a point of a run, such as the loss of the
connection in its slot, has dialed its slot only, and all its dials have failed. Together, before that
point and since, it began as many as the options allow. So it has had its whole budget since then
exactly if it had begun no dial before, and that is so if it was started since then. The slot has been
dialed since then at least as often as is left of the budget. -/
theorem budget_since {options : Options} {start : Pool} {began : Nat} {older newer : List Moment}
    {r : Reconnector} (made : Pool.new options = .ok start)
    (run : Run start began (older ++ newer) now p) (gaveUp : Event.gaveUp r ∈ eventsOf newer)
    (owned : r.owned = true) :
    (∀ d ∈ dialsBy r.ticket (eventsOf (older ++ newer)), d.slot = r.slot) ∧
    dialsBy r.ticket (eventsOf (older ++ newer)) = failuresOf r.ticket (eventsOf (older ++ newer)) ∧
    (dialsBy r.ticket (eventsOf older)).length + (dialsBy r.ticket (eventsOf newer)).length =
      options.maxReconnectAttempts ∧
    ((dialsBy r.ticket (eventsOf newer)).length = options.maxReconnectAttempts ↔
      dialsBy r.ticket (eventsOf older) = []) ∧
    (∀ q, Event.recovering q ∈ eventsOf newer → q.ticket = r.ticket →
      dialsBy r.ticket (eventsOf older) = []) ∧
    options.maxReconnectAttempts ≤
      (dialsBy r.ticket (eventsOf older)).length + (dialsTo r.slot (eventsOf newer)).length := by
  have seen : Event.gaveUp r ∈ eventsOf (older ++ newer) := by
    rw [eventsOf_append]
    exact List.mem_append_right _ gaveUp
  obtain ⟨_, _, all_failed, spent, mine, regular⟩ := (Ledger.of_run made run).gaveUp r seen
  have schedule : r.schedule.attempts = options.maxReconnectAttempts := by
    rw [regular owned, options_of_run made run]
    rfl
  have parts : dialsBy r.ticket (eventsOf (older ++ newer)) =
      dialsBy r.ticket (eventsOf older) ++ dialsBy r.ticket (eventsOf newer) := by
    rw [eventsOf_append, dialsBy_append]
  have total : (dialsBy r.ticket (eventsOf older)).length +
      (dialsBy r.ticket (eventsOf newer)).length = options.maxReconnectAttempts := by
    rw [← List.length_append, ← parts, all_failed, spent, schedule]
  refine ⟨mine, all_failed, total, ?_, ?_, ?_⟩
  · rw [← List.length_eq_zero_iff]
    omega
  · intro q started same
    rw [← same]
    exact dialsBy_eq_nil_of_recovering made run started
  · have since : (dialsBy r.ticket (eventsOf newer)).length ≤
        (dialsTo r.slot (eventsOf newer)).length := by
      apply length_dialsBy_le
      intro d member
      apply mine
      rw [parts]
      exact List.mem_append_right _ member
    omega

/-- Two connection rounds that overlap, with one attempt for each reconnector: the second round fills
the slot, the first one fails and starts a reconnector, and while that one dials the connection is
lost. -/
def swallowedLoss : List (Nat × Action) := [
  (0, .connect), (0, .connect), (1, .dialSucceeds 3 false), (2, .dialFails 1 (.described "refused")),
  (5000000002, .wakeReconnector 4), (5000000003, .connection 0 (.receive .close)),
  (5000000004, .supervise), (5000000005, .dialFails 5 (.described "refused"))]

/-- A pool of one slot whose reconnectors have one attempt. -/
def oneAttempt : Options := { Options.default with poolSize := 1, maxReconnectAttempts := 1 }

/-- The loss gets nothing of the budget: its reconnector has given up without another dial, nobody else
has dialed the slot either, and neither a notice nor a reconnector is left for it. -/
theorem budget_of_swallowedLoss : ∃ start older loss newer now p r,
    Pool.new oneAttempt = .ok start ∧ Run start 0 (older ++ [loss] ++ newer) now p ∧
      Event.connection 0 (.lost ⟨0, 0⟩) ∈ loss.events ∧ Event.gaveUp r ∈ eventsOf newer ∧
      r.owned = true ∧ r.slot = 0 ∧ dialsTo 0 (eventsOf newer) = [] ∧
      (dialsBy r.ticket (eventsOf (older ++ [loss]))).length = oneAttempt.maxReconnectAttempts ∧
      p.slots = [some 0] ∧ p.liveCount = 0 ∧ p.closed = false ∧ p.notices = [] ∧ p.reconnecting = [] := by
  have played : (Pool.new oneAttempt).toOption.bind (fun start =>
      (History.play step start swallowedLoss).map fun r => decide (
        (r.1[5]?.map fun m => (toldOf 0 m.events).filterMap Connection.Event.notice?) = some [⟨0, 0⟩] ∧
        ((eventsOf (r.1.drop 6)).filterMap fun e => match e with
          | .gaveUp x => some (x.owned, x.slot)
          | _ => none) = [(true, 0)] ∧
        dialsTo 0 (eventsOf (r.1.drop 6)) = [] ∧ r.2.slots = [some 0] ∧ r.2.liveCount = 0 ∧
        r.2.closed = false ∧ r.2.notices = [] ∧ r.2.reconnecting = [])) = some true := by decide
  have ordered : History.inOrder 0 swallowedLoss = true := by decide
  obtain ⟨start, moments, p, made, run, computed⟩ := exists_run_of_script played ordered
  obtain ⟨notices, gaveUps, undialed, rest⟩ := of_decide_eq_true computed
  obtain ⟨loss, there, told⟩ := Option.map_eq_some_iff.1 notices
  have inside : (⟨0, 0⟩ : Notice) ∈ (toldOf 0 loss.events).filterMap Connection.Event.notice? := by
    rw [told]
    exact List.mem_singleton_self _
  obtain ⟨e, seen, notice⟩ := List.mem_filterMap.1 inside
  have lost : e = .lost ⟨0, 0⟩ := by
    cases e with
    | lost n => rw [Option.some.inj notice]
    | _ => cases notice
  rw [lost, mem_toldOf] at seen
  have cut : moments = moments.take 5 ++ [loss] ++ moments.drop 6 := by
    obtain ⟨short, same⟩ := List.getElem?_eq_some_iff.1 there
    rw [← same, List.append_assoc, List.singleton_append, ← List.drop_eq_getElem_cons short,
      List.take_append_drop]
  have given : (true, 0) ∈ (eventsOf (moments.drop 6)).filterMap fun e => match e with
      | .gaveUp x => some (x.owned, x.slot)
      | _ => none := by
    rw [gaveUps]
    exact List.mem_singleton_self _
  obtain ⟨e, gaveUp, same⟩ := List.mem_filterMap.1 given
  cases e with
  | gaveUp r =>
    obtain ⟨owned, slot⟩ := Prod.mk.inj (Option.some.inj same)
    rw [cut] at run
    obtain ⟨_, _, total, _, _, least⟩ := budget_since made run gaveUp owned
    rw [slot, undialed] at least
    refine ⟨start, _, loss, _, _, p, r, made, run, seen, gaveUp, owned, slot, undialed, ?_, rest⟩
    simp only [List.length_nil] at least
    omega
  | _ => cases same

end CallPool.Pool
