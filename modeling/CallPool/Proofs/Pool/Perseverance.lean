import CallPool.Proofs.Pool.Reports
import CallPool.Proofs.Pool.Timetable

/-!
# How long a reconnector goes on

A reconnector works until it has filled its slot or given up, unless its pool is gone or closed or its
caller is dropped (`working_of_run`). In a prompt run it does not work longer than its delays and the
timeouts of its dials take together (`Timetable.now_le`), so that it has ended by then.
-/

set_option autoImplicit false

namespace CallPool

/-- How long the first attempts of a schedule take at most: each of them its delay and a timeout. -/
def Backoff.span (b : Backoff) (timeout : Duration) : Nat → Nat
  | 0 => 0
  | k + 1 => b.span timeout k + ((b.delay k).nanos + timeout.nanos)

/-- More attempts take no less time. -/
theorem Backoff.span_mono (b : Backoff) (timeout : Duration) {k l : Nat} (le : k ≤ l) :
    b.span timeout k ≤ b.span timeout l := by
  induction le with
  | refl => exact Nat.le_refl _
  | step _ ih => exact Nat.le_trans ih (Nat.le_add_right _ _)

namespace Pool

variable {p p' q : Pool} {now : Nat} {past es : List Event} {a : Action} {r : Reconnector}

/-! ## Until it has ended -/

/-- A reconnector has not ended. -/
def Working (r : Reconnector) (p : Pool) : Prop :=
  ∃ q ∈ p.reconnectors, q.ticket = r.ticket ∧ q.orphaned = r.orphaned

/-- Why the work of a reconnector may have ended by itself. -/
inductive Concluded (r : Reconnector) (es : List Event) (p : Pool) : Prop
  | filled (h : Filled r.ticket es)
  | gaveUp {q : Reconnector} (mine : q.ticket = r.ticket) (told : Event.gaveUp q ∈ es)
  | orphaned (h : r.orphaned = true)
  | closed (h : p.closed = true)

namespace Concluded

/-- What has been concluded stays so, as long as a closed pool stays closed. -/
theorem append (h : Concluded r past p) (closed : p.closed = true → q.closed = true) :
    Concluded r (past ++ es) q := by
  cases h with
  | filled h => exact .filled (Filled.append_iff.2 (.inl h))
  | gaveUp mine told => exact .gaveUp mine (List.mem_append_left _ told)
  | orphaned h => exact .orphaned h
  | closed h => exact .closed (closed h)

/-- What is concluded at the end is so whatever went before. -/
theorem of_later (h : Concluded r es p) : Concluded r (past ++ es) p := by
  cases h with
  | filled h => exact .filled (Filled.append_iff.2 (.inr h))
  | gaveUp mine told => exact .gaveUp mine (List.mem_append_right _ told)
  | orphaned h => exact .orphaned h
  | closed h => exact .closed h

end Concluded

/-- A reconnector works as long as the reconnectors stay. -/
theorem Working.of_same (h : Working r p) (same : p'.reconnectors = p.reconnectors) : Working r p' := by
  unfold Working
  rw [same]
  exact h

/-- The end of another reconnector does not matter. -/
theorem Working.endReconnector {x y : Reconnector} {filled : Bool} (member : y ∈ p.reconnectors)
    (other : y.ticket ≠ x.ticket) : Working y (p.endReconnector x filled).1 := by
  rw [endReconnector_rest]
  exact ⟨y, List.mem_filter.2 ⟨member, decide_eq_true other⟩, rfl, rfl⟩

/-- A reconnector works on when one of them goes on. -/
theorem Working.setReconnector {x y next : Reconnector} (ledger : Ledger past p)
    (x_member : x ∈ p.reconnectors) (member : y ∈ p.reconnectors) (ticket : next.ticket = x.ticket)
    (orphaned : next.orphaned = x.orphaned) : Working y (p.setReconnector x.ticket next) := by
  by_cases same : y.ticket = x.ticket
  · obtain rfl := ledger.eq_of_ticket member x_member same
    exact ⟨next, mem_setReconnector member, ticket, orphaned⟩
  · exact ⟨y, mem_setReconnector_of_ne member same, rfl, rfl⟩

/-- A change of the books ends a reconnector only for one of its reasons. -/
theorem Work.working (work : Work now p es p') (ledger : Ledger past p) {y : Reconnector}
    (member : y ∈ p.reconnectors) : Working y p' ∨ Concluded y es p' := by
  have still : p'.reconnectors = p.reconnectors → Working y p' := fun same =>
    Working.of_same ⟨y, member, rfl, rfl⟩ same
  have closed := work.watch.closed
  cases work with
  | aside other => exact .inl (still other.reconnectors)
  | dials _ => exact .inl (still rfl)
  | ends _ _ => exact .inl (still rfl)
  | starts isOpen free =>
    rw [recover_of_free isOpen free]
    exact .inl ⟨y, List.mem_append_left _ member, rfl, rfl⟩
  | joins => exact .inl ⟨y, List.mem_append_left _ member, rfl, rfl⟩
  | @redials x _ x_member _ _ _ =>
    have there : Working y (p.setReconnector x.ticket x.dialing) :=
      .setReconnector ledger x_member member rfl rfl
    exact .inl there
  | @fails d x _ _ x_member _ =>
    by_cases same : y.ticket = x.ticket
    · obtain rfl := ledger.eq_of_ticket member x_member same
      exact .inl ⟨y.failed now, mem_setReconnector (p := p.dropDial d.ticket) member, rfl, rfl⟩
    · exact .inl ⟨y, mem_setReconnector_of_ne (p := p.dropDial d.ticket) member same, rfl, rfl⟩
  | @fills d x _ x_member owner _ =>
    by_cases same : y.ticket = x.ticket
    · right
      refine .filled ⟨d, ?_, List.mem_cons_self⟩
      rw [same]
      exact Dial.isOf_owner owner
    · exact .inl (Working.endReconnector (p := p.dropDial d.ticket) member same)
  | @givesUp x _ _ =>
    by_cases same : y.ticket = x.ticket
    · exact .inr (.gaveUp same.symm List.mem_cons_self)
    · exact .inl (Working.endReconnector member same)
  | @stops x _ x_member _ why =>
    by_cases same : y.ticket = x.ticket
    · obtain rfl := ledger.eq_of_ticket member x_member same
      rcases why with orphaned | shut
      · exact .inr (.orphaned orphaned)
      · exact .inr (.closed (closed.trans shut))
    · exact .inl (Working.endReconnector member same)

/-- In every run a reconnector that was started is at work, or has ended for one of its reasons, or its
caller was dropped. -/
theorem working_of_run {options : Options} {start : Pool} {began : Nat} {moments : List Moment}
    (made : Pool.new options = .ok start) (run : Run start began moments now p) :
    ∀ r, Event.recovering r ∈ eventsOf moments → Working r p ∨ Concluded r (eventsOf moments) p ∨
      ∃ m ∈ moments, m.action = .cancel r.ticket := by
  induction run with
  | start => exact nofun
  | @act moments now p p' a es past taken ih =>
    rw [eventsOf_append, eventsOf_cons, eventsOf_nil, List.append_nil]
    have dropped : ∀ {t}, ((∃ m ∈ moments, m.action = .cancel t) ∨ a = .cancel t) →
        ∃ m ∈ moments ++ [⟨now, a, es, p, p'⟩], m.action = .cancel t := by
      rintro t (⟨m, member, cancels⟩ | rfl)
      · exact ⟨m, List.mem_append_left _ member, cancels⟩
      · exact ⟨_, List.mem_append_right _ (List.mem_singleton_self _), rfl⟩
    suffices carried : ∀ r, Event.recovering r ∈ eventsOf moments ++ es → Working r p' ∨
        Concluded r (eventsOf moments ++ es) p' ∨
          (∃ m ∈ moments, m.action = .cancel r.ticket) ∨ a = .cancel r.ticket by
      intro r told
      rcases carried r told with working | concluded | canceled
      · exact .inl working
      · exact .inr (.inl concluded)
      · exact .inr (.inr (dropped canceled))
    refine carry_of_step (P := fun es q => ∀ r, Event.recovering r ∈ eventsOf moments ++ es →
      Working r q ∨ Concluded r (eventsOf moments ++ es) q ∨
        (∃ m ∈ moments, m.action = .cancel r.ticket) ∨ a = .cancel r.ticket)
      (.of_run made past) (.of_run made past) ?_ ?_ taken
    · intro es q sheds r told
      have older : Event.recovering r ∈ eventsOf moments := by
        rcases List.mem_append.1 told with early | late
        · exact early
        · cases sheds.quiet _ late
      rcases ih r older with ⟨x, member, ticket, orphaned⟩ | concluded | canceled
      · rcases sheds.kept x member with kept | closed | cancels
        · exact .inl ⟨x, kept, ticket, orphaned⟩
        · exact .inr (.inl (.closed closed))
        · rw [ticket] at cancels
          exact .inr (.inr (.inr cancels))
      · exact .inr (.inl (concluded.append sheds.closed))
      · exact .inr (.inr (.inl canceled))
    · intro told q es q' accounts so_far work r recovering
      rw [← List.append_assoc] at recovering ⊢
      have stays_closed : q.closed = true → q'.closed = true := fun closed =>
        work.watch.closed.trans closed
      rcases List.mem_append.1 recovering with early | late
      · rcases so_far r early with ⟨x, member, ticket, orphaned⟩ | concluded | canceled
        · rcases work.working accounts member with ⟨y, y_member, same, same'⟩ | concluded
          · exact .inl ⟨y, y_member, same.trans ticket, same'.trans orphaned⟩
          · right
            left
            cases concluded with
            | filled h =>
              rw [ticket] at h
              exact .of_later (.filled h)
            | gaveUp mine told => exact .of_later (.gaveUp (mine.trans ticket) told)
            | orphaned h => exact .orphaned (orphaned ▸ h)
            | closed h => exact .closed h
        · exact .inr (.inl (concluded.append stays_closed))
        · exact .inr (.inr canceled)
      · obtain ⟨_, _, _, _, reconnectors, _⟩ := work.started late
        refine .inl ⟨r, ?_, rfl, rfl⟩
        rw [reconnectors]
        exact List.mem_append_right _ (List.mem_singleton_self r)
  | rest _ _ _ ih => exact ih

/-! ## How long that takes -/

namespace Timetable

variable {since : Nat} {told : List (Nat × Event)}

/-- The delays count from no later than the attempts before may take. -/
theorem base_le (h : Timetable r since now told p) {k base : Nat}
    (counted : (bases since r.ticket told)[k]? = some base) :
    base ≤ since + r.schedule.span p.options.connectTimeout k := by
  induction k generalizing base with
  | zero =>
    obtain rfl := Option.some.inj counted
    exact Nat.le_refl _
  | succ k ih =>
    obtain ⟨d, listed, late⟩ := h.inTime k base counted
    obtain ⟨_, _, previous, previous_counted, began⟩ := h.dialed k d listed
    have bound := ih previous_counted
    unfold Backoff.span
    omega

/-- A reconnector that is at work has been so no longer than its attempts take at most. -/
theorem now_le (h : Timetable r since now told p) (ledger : Ledger (told.map Prod.snd) p)
    (onTime : OnTime now p) {q : Reconnector} (member : q ∈ p.reconnectors) (mine : q.ticket = r.ticket) :
    now ≤ since + r.schedule.span p.options.connectTimeout r.schedule.attempts := by
  have tally := ledger.tally q member
  have schedule : q.schedule = r.schedule := by rw [h.kin q member mine]
  have within : ∀ {base}, (bases since r.ticket told)[q.attempt]? = some base →
      q.attempt < r.schedule.attempts →
        base + ((r.schedule.delay q.attempt).nanos + p.options.connectTimeout.nanos) ≤
          since + r.schedule.span p.options.connectTimeout r.schedule.attempts := by
    intro base counted more
    have bound := h.base_le counted
    have mono : r.schedule.span p.options.connectTimeout q.attempt +
        ((r.schedule.delay q.attempt).nanos + p.options.connectTimeout.nanos) ≤
          r.schedule.span p.options.connectTimeout r.schedule.attempts :=
      r.schedule.span_mono p.options.connectTimeout more
    omega
  cases phase : q.phase with
  | sleeping due =>
    obtain ⟨base, counted, rfl⟩ := h.sleeping q member mine due phase
    have punctual := onTime.sleeping q member _ phase
    have more := tally.more (by simp [phase])
    rw [schedule] at more
    have bound := within counted more
    omega
  | dialing =>
    obtain ⟨d, only⟩ := tally.dialing phase
    have more := tally.more (by simp [phase])
    rw [schedule] at more
    have there : d ∈ p.dials.filter (Dial.isOf q.ticket) := by
      rw [only]
      exact List.mem_singleton_self d
    have punctual := onTime.dials d (List.mem_of_mem_filter there)
    have listed : (dialsBy r.ticket (told.map Prod.snd))[q.attempt]? = some d := by
      rw [← mine, tally.begun, only, ← tally.failed, List.getElem?_concat_length]
    obtain ⟨_, _, base, counted, began⟩ := h.dialed _ d listed
    have bound := within counted more
    omega
  | spent =>
    have bound := h.base_le (h.spent q member mine phase)
    rw [tally.spent phase, schedule] at bound
    exact bound

end Timetable

end Pool

end CallPool
