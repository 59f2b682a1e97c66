import CallPool.Proofs.Pool.Shedding
import CallPool.Proofs.Pool.RetryBudget
import Mathlib.Data.List.Infix

/-!
# The timetable of a reconnector

In a prompt run no dial is under way longer than its timeout, and no reconnector sleeps longer than it
is due (`OnTime.of_run`). So a reconnector keeps to its schedule: its first dial begins the first delay
after its start, and each further dial begins the next delay after the failure of the dial before. The
instants from which the delays count are its `bases`. `Timetable` says this of all dials that it has
begun, and of the one that it is about to begin; a change of the books matters to it only if the
reconnector dials or fails (`Timetable.redials`, `Timetable.fails`).
-/

set_option autoImplicit false

namespace CallPool.Pool

variable {p p' q : Pool} {now later : Nat} {es : List Event} {a : Action} {t : Ticket}

/-! ## Nothing is late -/

variable {unfit? : Options → Option DialFault}

instance (p : Pool) (now later : Nat) : Decidable (p.mayRest unfit? now later) :=
  inferInstanceAs (Decidable (_ ∧ _))

/-- A pool that may rest has nothing to do for a reconnector, for a dial or for its supervisor. -/
theorem idle_of_mayRest (rests : p.mayRest unfit? now later) :
    (p.supervised = true → p.notices = []) ∧ (∀ d ∈ p.dials, p.dialReady unfit? now d = none) ∧
      ∀ r ∈ p.reconnectors, reconnectorReady now r = none := by
  have idle := rests.1
  unfold ready at idle
  simp only [List.append_eq_nil_iff, List.filterMap_eq_nil_iff] at idle
  obtain ⟨⟨⟨⟨_, supervisor⟩, dials⟩, reconnectors⟩, _⟩ := idle
  refine ⟨fun supervised => ?_, dials, reconnectors⟩
  rw [supervised, Bool.true_and] at supervisor
  split at supervisor
  · cases supervisor
  · rename_i empty
    simpa using empty

/-- No reconnector has slept longer than it should, and no dial has been under way longer. -/
structure OnTime (now : Nat) (p : Pool) : Prop where
  sleeping : ∀ r ∈ p.reconnectors, ∀ due, r.phase = .sleeping due → now ≤ due
  dials : ∀ d ∈ p.dials, now ≤ d.began + p.options.connectTimeout.nanos

/-- Who sleeps before an attempt is due when its delay is over. -/
theorem due_of_phaseAt {schedule : Backoff} {attempt due : Nat}
    (asleep : phaseAt schedule attempt now = .sleeping due) :
    due = now + (schedule.delay attempt).nanos := by
  unfold phaseAt at asleep
  split at asleep
  · exact (Phase.sleeping.inj asleep).symm
  · cases asleep

namespace OnTime

/-- What is on time stays so where reconnectors and dials are only dropped. -/
theorem of_subset (h : OnTime now p) (options : p'.options = p.options)
    (reconnectors : ∀ r ∈ p'.reconnectors, r ∈ p.reconnectors) (dials : ∀ d ∈ p'.dials, d ∈ p.dials) :
    OnTime now p' where
  sleeping := fun r member => h.sleeping r (reconnectors r member)
  dials := by
    rw [options]
    exact fun d member => h.dials d (dials d member)

/-- The end of a reconnector leaves the others on time. -/
theorem endReconnector (h : OnTime now p) (r : Reconnector) (filled : Bool) :
    OnTime now (p.endReconnector r filled).1 := by
  rw [endReconnector_rest]
  exact h.of_subset rfl (fun _ => List.mem_of_mem_filter) fun _ member => member

/-- A dial that begins is on time. -/
theorem dial (h : OnTime now p) (slot : Nat) (owner : Owner) : OnTime now (p.dial now slot owner).1 where
  sleeping := h.sleeping
  dials := by
    intro d member
    rcases List.mem_append.1 member with older | newest
    · exact h.dials d older
    · rw [List.mem_singleton.1 newest]
      exact Nat.le_add_right _ _

/-- A reconnector that is started is on time. -/
theorem addReconnector (h : OnTime now p) {entries : List (Nat × Token)} {nextToken : Token} {slot : Nat}
    {token : Token} {schedule : Backoff} {owned orphaned : Bool} :
    OnTime now ({ p with reconnecting := entries, nextToken := nextToken }.addReconnector now slot token
      schedule owned orphaned).1 where
  sleeping := by
    intro r member due asleep
    rcases List.mem_append.1 member with older | newest
    · exact h.sleeping r older due asleep
    · rw [List.mem_singleton.1 newest] at asleep
      exact due_of_phaseAt asleep ▸ Nat.le_add_right _ _
  dials := h.dials

/-- A reconnector that goes to sleep until later is on time. -/
theorem setReconnector (h : OnTime now p) {next : Reconnector}
    (punctual : ∀ due, next.phase = .sleeping due → now ≤ due) (t : Ticket) :
    OnTime now (p.setReconnector t next) where
  sleeping := by
    intro r member due asleep
    rcases of_mem_setReconnector member with rfl | ⟨older, _⟩
    · exact punctual due asleep
    · exact h.sleeping r older due asleep
  dials := h.dials

/-- Every change leaves a pool on time. -/
theorem of_work (h : OnTime now p) (work : Work now p es p') : OnTime now p' := by
  have dropped : ∀ t, OnTime now (p.dropDial t) := fun t =>
    h.of_subset rfl (fun _ member => member) fun _ => List.mem_of_mem_filter
  cases work with
  | aside other =>
    refine h.of_subset other.options ?_ ?_
    · rw [other.reconnectors]
      exact fun _ member => member
    · rw [other.dials]
      exact fun _ member => member
  | dials _ => exact h.dial _ _
  | ends _ _ => exact dropped _
  | starts isOpen free =>
    rw [recover_of_free isOpen free]
    exact h.addReconnector
  | joins => exact h.addReconnector
  | @redials r _ _ _ _ _ =>
    have awake : ∀ due, r.dialing.phase = .sleeping due → now ≤ due := fun due asleep => by cases asleep
    exact (h.setReconnector awake r.ticket).dial _ _
  | @fails d r _ _ _ _ =>
    refine (dropped d.ticket).setReconnector (fun due asleep => ?_) r.ticket
    have asleep : phaseAt r.schedule (r.attempt + 1) now = .sleeping due := asleep
    exact due_of_phaseAt asleep ▸ Nat.le_add_right _ _
  | fills _ _ _ _ => exact (dropped _).endReconnector _ true
  | givesUp _ _ => exact h.endReconnector _ false
  | stops _ _ _ => exact h.endReconnector _ false

/-- A pool that rests may not rest longer than until somebody is due. -/
theorem of_rest (rests : p.mayRest unfit? now later) : OnTime later p := by
  obtain ⟨_, dials, reconnectors⟩ := idle_of_mayRest rests
  refine ⟨fun r member due asleep => ?_, fun d member => ?_⟩
  · have alarm : due ∈ p.alarms := by
      unfold alarms
      refine List.mem_append_left _ (List.mem_append_right _ (List.mem_filterMap.2 ⟨r, member, ?_⟩))
      unfold reconnectorAlarm
      rw [asleep]
    have unready := reconnectors r member
    unfold reconnectorReady at unready
    rw [asleep] at unready
    have early : ¬ due ≤ now := by simpa using unready
    exact (rests.2 due alarm).resolve_left early
  · have alarm : d.began + p.options.connectTimeout.nanos ∈ p.alarms := by
      unfold alarms
      exact List.mem_append_left _ (List.mem_append_left _ (List.mem_append_right _
        (List.mem_map_of_mem member)))
    have unready := dials d member
    unfold dialReady at unready
    have early : ¬ d.began + p.options.connectTimeout.nanos ≤ now := by
      split at unready
      · cases unready
      · simpa using unready
    exact (rests.2 _ alarm).resolve_left early

end OnTime

/-! ## Instants -/

/-- Events with the instant at which they are told. -/
def stampAt (now : Nat) (es : List Event) : List (Nat × Event) := es.map (Prod.mk now)

/-- What is told in some moments, each event with its instant. -/
def stamped (moments : List Moment) : List (Nat × Event) :=
  moments.flatMap fun m => stampAt m.instant m.events

/-- Events are the same without their instant. -/
@[simp] theorem map_snd_stampAt (now : Nat) (es : List Event) : (stampAt now es).map Prod.snd = es := by
  unfold stampAt
  rw [List.map_map]
  exact List.map_id es

/-- One more moment is told at its instant. -/
@[simp] theorem stamped_concat (moments : List Moment) (m : Moment) :
    stamped (moments ++ [m]) = stamped moments ++ stampAt m.instant m.events := by
  simp [stamped]

/-- What is told with its instants is what is told. -/
@[simp] theorem map_snd_stamped (moments : List Moment) :
    (stamped moments).map Prod.snd = eventsOf moments := by
  unfold stamped eventsOf
  rw [List.map_flatMap]
  simp only [map_snd_stampAt]

/-- An event has the instant of the moment in which it is told. -/
theorem mem_stamped {moments : List Moment} {instant : Nat} {e : Event} :
    (instant, e) ∈ stamped moments ↔ ∃ m ∈ moments, m.instant = instant ∧ e ∈ m.events := by
  simp only [stamped, stampAt, List.mem_flatMap, List.mem_map, Prod.mk.injEq]
  constructor
  · rintro ⟨m, member, e', told, same, rfl⟩
    exact ⟨m, member, same, told⟩
  · rintro ⟨m, member, same, told⟩
    exact ⟨m, member, e, told, same, rfl⟩

/-- The dials of the reconnector with a ticket that failed, each with the instant of its failure. -/
def failuresAt (t : Ticket) (past : List (Nat × Event)) : List (Nat × Dial) :=
  past.filterMap fun e => (e.2.failureOf? t).map (Prod.mk e.1)

/-- The failures in one list behind another are those in both, in order. -/
theorem failuresAt_append (t : Ticket) (past past' : List (Nat × Event)) :
    failuresAt t (past ++ past') = failuresAt t past ++ failuresAt t past' := by
  simp [failuresAt]

/-- What fails at an instant is listed with it. -/
theorem failuresAt_stampAt (t : Ticket) (now : Nat) (es : List Event) :
    failuresAt t (stampAt now es) = (failuresOf t es).map (Prod.mk now) := by
  unfold failuresAt stampAt failuresOf
  rw [List.filterMap_map, List.map_filterMap]
  rfl

/-- The failures are the same without their instants. -/
theorem map_snd_failuresAt (t : Ticket) (past : List (Nat × Event)) :
    (failuresAt t past).map Prod.snd = failuresOf t (past.map Prod.snd) := by
  unfold failuresAt failuresOf
  rw [List.map_filterMap, List.filterMap_map]
  refine List.filterMap_congr fun e _ => ?_
  rw [Option.map_map]
  exact Option.map_id'

/-- The instants from which the delays of a reconnector count: that of its start, and those of the
failures of its dials. -/
def bases (since : Nat) (t : Ticket) (past : List (Nat × Event)) : List Nat :=
  since :: (failuresAt t past).map Prod.fst

/-- Each failure at an instant adds that instant to those from which delays count. -/
theorem bases_append (since : Nat) (t : Ticket) (past : List (Nat × Event)) (now : Nat)
    (es : List Event) : bases since t (past ++ stampAt now es) =
      bases since t past ++ (failuresOf t es).map fun _ => now := by
  unfold bases
  rw [failuresAt_append, failuresAt_stampAt, List.map_append, List.map_map]
  rfl

/-- Delays count from the start and from each failure. -/
theorem length_bases (since : Nat) (t : Ticket) (past : List (Nat × Event)) :
    (bases since t past).length = (failuresOf t (past.map Prod.snd)).length + 1 := by
  rw [← map_snd_failuresAt]
  simp [bases]

/-- What stands at a place stays there with more behind it. -/
theorem getElem?_append_of_some {α : Type} {xs : List α} {i : Nat} {x : α} (there : xs[i]? = some x)
    (ys : List α) : (xs ++ ys)[i]? = some x := by
  rw [List.getElem?_append_left (List.getElem?_eq_some_iff.1 there).1]
  exact there

/-- What is at a place behind which one has been added was there before, or is the one. -/
theorem of_getElem?_concat {α : Type} {xs : List α} {x y : α} {i : Nat}
    (there : (xs ++ [x])[i]? = some y) : xs[i]? = some y ∨ i = xs.length ∧ y = x := by
  by_cases older : i < xs.length
  · rw [List.getElem?_append_left older] at there
    exact .inl there
  · rw [List.getElem?_append_right (Nat.le_of_not_lt older), List.getElem?_singleton] at there
    split at there
    · exact .inr ⟨by omega, (Option.some.inj there).symm⟩
    · cases there

/-- When a reconnector is replaced its ticket is that of the new one. -/
theorem eq_of_mem_setReconnector {next x : Reconnector} (member : x ∈ (p.setReconnector t next).reconnectors)
    (mine : x.ticket = t) : x = next :=
  (of_mem_setReconnector member).resolve_right fun ⟨_, other⟩ => other mine

/-- When one reconnector is replaced, another one was there before. -/
theorem mem_of_mem_setReconnector {next x : Reconnector}
    (member : x ∈ (p.setReconnector t next).reconnectors) (other : next.ticket ≠ x.ticket) :
    x ∈ p.reconnectors := by
  rcases of_mem_setReconnector member with rfl | ⟨older, _⟩
  · exact absurd rfl other
  · exact older

/-- Who is there when a reconnector has ended was there before. -/
theorem mem_of_mem_reconnectors_endReconnector {x y : Reconnector} {filled : Bool}
    (member : y ∈ (p.endReconnector x filled).1.reconnectors) : y ∈ p.reconnectors := by
  rw [endReconnector_rest] at member
  exact List.mem_of_mem_filter member

/-- Who ends because of its dial, or because it is stopped, does not give up. -/
theorem gaveUp_not_mem_endReconnector {x y : Reconnector} {filled : Bool} :
    Event.gaveUp y ∉ (p.endReconnector x filled).2 := by
  intro member
  rcases mem_endReconnector member with same | same <;> cases same

/-! ## The timetable -/

/-- The reconnector `r`, which was started at the instant `since`, has kept to its schedule. -/
structure Timetable (r : Reconnector) (since now : Nat) (past : List (Nat × Event)) (p : Pool) : Prop where
  given : r.ticket < p.nextTicket
  kin : ∀ q ∈ p.reconnectors, q.ticket = r.ticket → q = { r with attempt := q.attempt, phase := q.phase }
  /-- While it sleeps it is due the delay of its attempt after its base. -/
  sleeping : ∀ q ∈ p.reconnectors, q.ticket = r.ticket → ∀ due, q.phase = .sleeping due →
    ∃ base, (bases since r.ticket past)[q.attempt]? = some base ∧
      due = base + (r.schedule.delay q.attempt).nanos
  /-- It is spent for no time. -/
  spent : ∀ q ∈ p.reconnectors, q.ticket = r.ticket → q.phase = .spent →
    (bases since r.ticket past)[q.attempt]? = some now
  dialed : ∀ k d, (dialsBy r.ticket (past.map Prod.snd))[k]? = some d → d.slot = r.slot ∧
    k < r.schedule.attempts ∧ ∃ base, (bases since r.ticket past)[k]? = some base ∧
      d.began = base + (r.schedule.delay k).nanos
  aligned : failuresOf r.ticket (past.map Prod.snd) <+: dialsBy r.ticket (past.map Prod.snd)
  /-- Its dials fail in time. -/
  inTime : ∀ k base, (bases since r.ticket past)[k + 1]? = some base →
    ∃ d, (dialsBy r.ticket (past.map Prod.snd))[k]? = some d ∧
      base ≤ d.began + p.options.connectTimeout.nanos
  quits : ∀ q, Event.gaveUp q ∈ past.map Prod.snd → q.ticket = r.ticket → q.schedule = r.schedule

namespace Timetable

variable {r : Reconnector} {since : Nat} {past : List (Nat × Event)}

/-- What concerns another reconnector leaves the timetable as it is. -/
theorem keep (h : Timetable r since now past p) (options : p'.options = p.options)
    (nextTicket_le : p.nextTicket ≤ p'.nextTicket)
    (kept : ∀ q ∈ p'.reconnectors, q.ticket = r.ticket → q ∈ p.reconnectors)
    (undialed : dialsBy r.ticket es = []) (unfailed : failuresOf r.ticket es = [])
    (quits : ∀ q, Event.gaveUp q ∈ es → q ∈ p.reconnectors) :
    Timetable r since now (past ++ stampAt now es) p' := by
  have same_bases : bases since r.ticket (past ++ stampAt now es) = bases since r.ticket past := by
    rw [bases_append, unfailed, List.map_nil, List.append_nil]
  have same_dials : dialsBy r.ticket ((past ++ stampAt now es).map Prod.snd) =
      dialsBy r.ticket (past.map Prod.snd) := by
    rw [List.map_append, map_snd_stampAt, dialsBy_append, undialed, List.append_nil]
  have same_failures : failuresOf r.ticket ((past ++ stampAt now es).map Prod.snd) =
      failuresOf r.ticket (past.map Prod.snd) := by
    rw [List.map_append, map_snd_stampAt, failuresOf_append, unfailed, List.append_nil]
  refine ⟨Nat.lt_of_lt_of_le h.given nextTicket_le, ?_, ?_, ?_, ?_, ?_, ?_, ?_⟩
  · exact fun q member mine => h.kin q (kept q member mine) mine
  · rw [same_bases]
    exact fun q member mine => h.sleeping q (kept q member mine) mine
  · rw [same_bases]
    exact fun q member mine => h.spent q (kept q member mine) mine
  · rw [same_bases, same_dials]
    exact h.dialed
  · rw [same_dials, same_failures]
    exact h.aligned
  · rw [same_bases, same_dials, options]
    exact h.inTime
  · intro q told mine
    rw [List.map_append, map_snd_stampAt] at told
    rcases List.mem_append.1 told with early | late
    · exact h.quits q early mine
    · rw [h.kin q (quits q late) mine]

/-- A reconnector that has slept enough dials in time. -/
theorem redials (h : Timetable r since now past p) (ledger : Ledger (past.map Prod.snd) p)
    (onTime : OnTime now p) {x : Reconnector} {due : Nat} (member : x ∈ p.reconnectors)
    (mine : x.ticket = r.ticket) (asleep : x.phase = .sleeping due) (ready : due ≤ now) :
    Timetable r since now
      (past ++ stampAt now
        ((p.setReconnector x.ticket x.dialing).dial now x.slot (.reconnector x.ticket)).2)
      ((p.setReconnector x.ticket x.dialing).dial now x.slot (.reconnector x.ticket)).1 := by
  have tally := ledger.tally x member
  obtain ⟨base, counted, base_due⟩ := h.sleeping x member mine due asleep
  have punctual := onTime.sleeping x member due asleep
  have kin := h.kin x member mine
  have slot : x.slot = r.slot := by rw [kin]
  have schedule : x.schedule = r.schedule := by rw [kin]
  have more := tally.more (by simp [asleep])
  have resting := tally.resting (by simp [asleep])
  have begun := tally.begun
  have failed := tally.failed
  rw [resting, List.append_nil] at begun
  rw [schedule] at more
  rw [mine] at begun failed
  let d : Dial := ⟨p.nextTicket, x.slot, .reconnector x.ticket, now⟩
  have own : d.isOf r.ticket = true := Dial.isOf_owner (congrArg Owner.reconnector mine)
  have same_bases : bases since r.ticket (past ++ stampAt now [.dialed d]) =
      bases since r.ticket past := by
    rw [bases_append, failuresOf_dialed, List.map_nil, List.append_nil]
  have dials : dialsBy r.ticket ((past ++ stampAt now [.dialed d]).map Prod.snd) =
      dialsBy r.ticket (past.map Prod.snd) ++ [d] := by
    rw [List.map_append, map_snd_stampAt, dialsBy_append, dialsBy_dialed, if_pos own]
  have failures : failuresOf r.ticket ((past ++ stampAt now [.dialed d]).map Prod.snd) =
      failuresOf r.ticket (past.map Prod.snd) := by
    rw [List.map_append, map_snd_stampAt, failuresOf_append, failuresOf_dialed, List.append_nil]
  have only : ∀ q ∈ (p.setReconnector x.ticket x.dialing).reconnectors, q.ticket = r.ticket →
      q = x.dialing := fun q q_member q_mine => eq_of_mem_setReconnector q_member (q_mine.trans mine.symm)
  change Timetable r since now (past ++ stampAt now [.dialed d]) _
  refine ⟨Nat.lt_succ_of_lt h.given, ?_, ?_, ?_, ?_, ?_, ?_, ?_⟩
  · intro q q_member q_mine
    rw [only q q_member q_mine]
    unfold Reconnector.dialing
    rw [kin]
  · intro q q_member q_mine due asleep
    rw [only q q_member q_mine] at asleep
    cases asleep
  · intro q q_member q_mine spent
    rw [only q q_member q_mine] at spent
    cases spent
  · intro k e there
    rw [dials] at there
    rw [same_bases]
    rcases of_getElem?_concat there with older | ⟨index, rfl⟩
    · exact h.dialed k e older
    · rw [begun, failed] at index
      subst index
      exact ⟨slot, more, base, counted, by change now = _; omega⟩
  · rw [dials, failures]
    exact h.aligned.trans (List.prefix_append _ _)
  · intro k b there
    rw [same_bases] at there
    rw [dials]
    obtain ⟨e, listed, le⟩ := h.inTime k b there
    exact ⟨e, getElem?_append_of_some listed _, le⟩
  · intro q told
    rw [List.map_append, map_snd_stampAt] at told
    exact h.quits q (by simpa using told)

/-- A reconnector whose dial fails goes on from that instant. -/
theorem fails (h : Timetable r since now past p) (ledger : Ledger (past.map Prod.snd) p)
    (onTime : OnTime now p) {d : Dial} {x : Reconnector} {error : Error} (d_member : d ∈ p.dials)
    (member : x ∈ p.reconnectors) (mine : x.ticket = r.ticket) (owner : d.owner = .reconnector x.ticket) :
    Timetable r since now (past ++ stampAt now [.dialEnded d (.error error)])
      ((p.dropDial d.ticket).setReconnector x.ticket (x.failed now)) := by
  have tally := ledger.tally x member
  have kin := h.kin x member mine
  have schedule : x.schedule = r.schedule := by rw [kin]
  have begun := tally.begun
  have failed := tally.failed
  rw [(ledger.dial_of_member d_member member owner).2] at begun
  rw [mine] at begun failed owner
  have own : d.isOf r.ticket = true := Dial.isOf_owner owner
  have new_bases : bases since r.ticket (past ++ stampAt now [.dialEnded d (.error error)]) =
      bases since r.ticket past ++ [now] := by
    rw [bases_append, failuresOf_dialEnded, if_pos own]
    rfl
  have dials : dialsBy r.ticket ((past ++ stampAt now [.dialEnded d (.error error)]).map Prod.snd) =
      dialsBy r.ticket (past.map Prod.snd) := by
    rw [List.map_append, map_snd_stampAt, dialsBy_append, dialsBy_dialEnded, List.append_nil]
  have failures : failuresOf r.ticket
      ((past ++ stampAt now [.dialEnded d (.error error)]).map Prod.snd) =
        failuresOf r.ticket (past.map Prod.snd) ++ [d] := by
    rw [List.map_append, map_snd_stampAt, failuresOf_append, failuresOf_dialEnded, if_pos own]
  have latest : (bases since r.ticket past ++ [now])[x.attempt + 1]? = some now := by
    have length := length_bases since r.ticket past
    rw [failed] at length
    rw [← length, List.getElem?_concat_length]
  have only : ∀ q ∈ ((p.dropDial d.ticket).setReconnector x.ticket (x.failed now)).reconnectors,
      q.ticket = r.ticket → q = x.failed now :=
    fun q q_member q_mine => eq_of_mem_setReconnector q_member (q_mine.trans mine.symm)
  refine ⟨h.given, ?_, ?_, ?_, ?_, ?_, ?_, ?_⟩
  · intro q q_member q_mine
    rw [only q q_member q_mine]
    unfold Reconnector.failed
    rw [kin]
  · intro q q_member q_mine due asleep
    rw [only q q_member q_mine] at asleep ⊢
    rw [new_bases]
    refine ⟨now, latest, ?_⟩
    rw [← schedule]
    exact due_of_phaseAt asleep
  · intro q q_member q_mine _
    rw [only q q_member q_mine, new_bases]
    exact latest
  · intro k e there
    rw [dials] at there
    rw [new_bases]
    obtain ⟨slot, more, base, counted, began⟩ := h.dialed k e there
    exact ⟨slot, more, base, getElem?_append_of_some counted _, began⟩
  · rw [dials, failures, begun]
  · intro k b there
    rw [new_bases] at there
    rw [dials]
    rcases of_getElem?_concat there with older | ⟨index, rfl⟩
    · exact h.inTime k b older
    · have index : k = (failuresOf r.ticket (past.map Prod.snd)).length := by
        rw [length_bases] at index
        exact Nat.succ.inj index
      refine ⟨d, ?_, onTime.dials d d_member⟩
      rw [begun, index, List.getElem?_concat_length]
  · intro q told
    rw [List.map_append, map_snd_stampAt] at told
    exact h.quits q (by simpa using told)

/-- A change of the books keeps the timetable. -/
theorem of_work (h : Timetable r since now past p) (ledger : Ledger (past.map Prod.snd) p)
    (onTime : OnTime now p) (work : Work now p es p') :
    Timetable r since now (past ++ stampAt now es) p' := by
  have options := work.options
  have nextTicket_le := work.nextTicket_le
  have started : ∀ {slot : Nat} {token : Token} {schedule : Backoff} {owned orphaned : Bool}
      {entries : List (Nat × Token)} {nextToken : Token},
      ∀ y ∈ ({ p with reconnecting := entries, nextToken := nextToken }.addReconnector now slot token
        schedule owned orphaned).1.reconnectors, y.ticket = r.ticket → y ∈ p.reconnectors := by
    intro slot token schedule owned orphaned entries nextToken y member mine
    rcases List.mem_append.1 member with older | newest
    · exact older
    · rw [List.mem_singleton.1 newest] at mine
      exact absurd mine (Nat.ne_of_gt h.given)
  cases work with
  | aside other =>
    refine h.keep options nextTicket_le ?_ (dialsBy_of_aside other.quiet _)
      (failuresOf_of_aside other.quiet _) fun q told => by cases other.quiet _ told
    rw [other.reconnectors]
    exact fun _ member _ => member
  | @dials slot owner other =>
    refine h.keep options nextTicket_le (fun _ member _ => member) ?_ rfl (by simp [Pool.dial])
    have foreign : Dial.isOf r.ticket ⟨p.nextTicket, slot, owner, now⟩ = false := decide_eq_false (other _)
    simp [Pool.dial, foreign]
  | @ends d result member other =>
    have foreign : ∀ t, d.owner ≠ .reconnector t := by
      intro t owner
      obtain ⟨x, x_member, rfl⟩ := ledger.owner d member t owner
      exact other x x_member owner
    obtain ⟨undialed, unfailed⟩ := Ledger.silent_of_foreign foreign result r.ticket
    exact h.keep options nextTicket_le (fun _ member _ => member) undialed unfailed (by simp)
  | starts isOpen free =>
    rw [recover_of_free isOpen free] at options nextTicket_le ⊢
    exact h.keep options nextTicket_le started rfl rfl (by simp [Pool.addReconnector])
  | joins => exact h.keep options nextTicket_le started rfl rfl (by simp [Pool.addReconnector])
  | @redials x due member asleep ready _ =>
    by_cases mine : x.ticket = r.ticket
    · exact h.redials ledger onTime member mine asleep ready
    · have others : ∀ y ∈ (p.setReconnector x.ticket x.dialing).reconnectors, y.ticket = r.ticket →
          y ∈ p.reconnectors := fun y member same => mem_of_mem_setReconnector member (same ▸ mine)
      refine h.keep options nextTicket_le others ?_ rfl (by simp [Pool.dial])
      have foreign : Dial.isOf r.ticket ⟨p.nextTicket, x.slot, .reconnector x.ticket, now⟩ = false :=
        Dial.isOf_other rfl (Ne.symm mine)
      change dialsBy r.ticket [.dialed ⟨p.nextTicket, x.slot, .reconnector x.ticket, now⟩] = []
      simp [foreign]
  | @fails d x error d_member member owner =>
    by_cases mine : x.ticket = r.ticket
    · exact h.fails ledger onTime d_member member mine owner
    · have others : ∀ y ∈ ((p.dropDial d.ticket).setReconnector x.ticket (x.failed now)).reconnectors,
          y.ticket = r.ticket → y ∈ p.reconnectors := fun y member same =>
        mem_of_mem_setReconnector member (same ▸ mine)
      refine h.keep options nextTicket_le others rfl ?_ (by simp)
      simp [Dial.isOf_other owner (Ne.symm mine)]
  | @fills d x _ _ _ _ =>
    obtain ⟨undialed, unfailed⟩ := Ledger.silent_endReconnector (p.dropDial d.ticket) x true r.ticket
    refine h.keep options nextTicket_le (fun _ member _ => mem_of_mem_reconnectors_endReconnector
      (p := p.dropDial d.ticket) member) undialed unfailed fun q told => ?_
    rcases List.mem_cons.1 told with same | later
    · cases same
    · exact absurd later gaveUp_not_mem_endReconnector
  | @givesUp x member _ =>
    obtain ⟨undialed, unfailed⟩ := Ledger.silent_endReconnector p x false r.ticket
    refine h.keep options nextTicket_le (fun _ member _ => mem_of_mem_reconnectors_endReconnector member)
      undialed unfailed fun q told => ?_
    rcases List.mem_cons.1 told with same | later
    · rw [Event.gaveUp.inj same]
      exact member
    · exact absurd later gaveUp_not_mem_endReconnector
  | @stops x _ _ _ _ =>
    obtain ⟨undialed, unfailed⟩ := Ledger.silent_endReconnector p x false r.ticket
    exact h.keep options nextTicket_le (fun _ member _ => mem_of_mem_reconnectors_endReconnector member)
      undialed unfailed fun q told => absurd told gaveUp_not_mem_endReconnector

/-- While a pool rests nobody is spent. -/
theorem of_rest (h : Timetable r since now past p) (rests : p.mayRest unfit? now later) :
    Timetable r since later past p := by
  refine ⟨h.given, h.kin, h.sleeping, fun q member _ spent => ?_, h.dialed, h.aligned, h.inTime, h.quits⟩
  have unready := (idle_of_mayRest rests).2.2 q member
  unfold reconnectorReady at unready
  rw [spent] at unready
  cases unready

/-- The timetable of a reconnector that has just been started. -/
theorem of_start (ledger : Ledger (past.map Prod.snd) p) (ticket : r.ticket = p.nextTicket)
    (untried : r.attempt = 0) (phase : r.phase = phaseAt r.schedule 0 now)
    (reconnectors : p'.reconnectors = p.reconnectors ++ [r]) (given : p'.nextTicket = p.nextTicket + 1) :
    Timetable r now now (past ++ stampAt now [.recovering r]) p' := by
  obtain ⟨undialed, unfailed⟩ := ledger.unborn r.ticket (Nat.le_of_eq ticket.symm)
  have dials : dialsBy r.ticket ((past ++ stampAt now [.recovering r]).map Prod.snd) = [] := by
    rw [List.map_append, map_snd_stampAt, dialsBy_append, undialed, dialsBy_recovering, List.append_nil]
  have failures : failuresAt r.ticket past = [] := by
    rw [← map_snd_failuresAt] at unfailed
    exact List.map_eq_nil_iff.1 unfailed
  have only_base : bases now r.ticket (past ++ stampAt now [.recovering r]) = [now] := by
    unfold bases
    rw [failuresAt_append, failures, failuresAt_stampAt, failuresOf_recovering]
    rfl
  have only : ∀ q ∈ p'.reconnectors, q.ticket = r.ticket → q = r := by
    intro q member mine
    rw [reconnectors] at member
    rcases List.mem_append.1 member with older | newest
    · exact absurd (mine.trans ticket) (Nat.ne_of_lt (ledger.ticket_lt q older))
    · exact List.mem_singleton.1 newest
  refine ⟨by rw [ticket, given]; exact Nat.lt_succ_self _, ?_, ?_, ?_, ?_, ?_, ?_, ?_⟩
  · intro q member mine
    rw [only q member mine]
  · intro q member mine due asleep
    rw [only q member mine, phase] at asleep
    rw [only q member mine, untried, only_base]
    exact ⟨now, rfl, due_of_phaseAt asleep⟩
  · intro q member mine _
    rw [only q member mine, untried, only_base]
    rfl
  · rw [dials]
    exact nofun
  · rw [dials, List.map_append, map_snd_stampAt, failuresOf_append, unfailed, failuresOf_recovering]
    exact List.prefix_refl _
  · rw [only_base]
    exact nofun
  · intro q told mine
    rw [List.map_append, map_snd_stampAt] at told
    have older : Event.gaveUp q ∈ past.map Prod.snd := by simpa using told
    exact absurd (mine.trans ticket) (Nat.ne_of_lt (ledger.gaveUp q older).1)

end Timetable

/-- Nothing is late, and every reconnector that was started has kept to its schedule. -/
structure Scheduled (now : Nat) (past : List (Nat × Event)) (p : Pool) : Prop where
  onTime : OnTime now p
  timetable : ∀ since r, (since, Event.recovering r) ∈ past → Timetable r since now past p

namespace Scheduled

variable {past : List (Nat × Event)}

/-- Every change keeps everybody on schedule. -/
theorem of_work (h : Scheduled now past p) (ledger : Ledger (past.map Prod.snd) p)
    (work : Work now p es p') : Scheduled now (past ++ stampAt now es) p' where
  onTime := h.onTime.of_work work
  timetable := by
    intro since r told
    rcases List.mem_append.1 told with early | late
    · exact (h.timetable since r early).of_work ledger h.onTime work
    · obtain ⟨e, here, same⟩ := List.mem_map.1 late
      obtain ⟨rfl, rfl⟩ := Prod.mk.inj same
      obtain ⟨rfl, ticket, untried, phase, reconnectors, given⟩ := work.started here
      exact .of_start ledger ticket untried phase reconnectors given

/-- The first part of an action keeps everybody on schedule. -/
theorem of_sheds (h : Scheduled now past p) (sheds : Sheds a p es q) :
    Scheduled now (past ++ stampAt now es) q where
  onTime := h.onTime.of_subset sheds.options sheds.reconnectors sheds.dials
  timetable := by
    intro since r told
    rcases List.mem_append.1 told with early | late
    · exact (h.timetable since r early).keep sheds.options sheds.nextTicket_le
        (fun q member _ => sheds.reconnectors q member) (dialsBy_of_aside sheds.quiet _)
        (failuresOf_of_aside sheds.quiet _) fun q told => by cases sheds.quiet _ told
    · obtain ⟨e, here, same⟩ := List.mem_map.1 late
      obtain ⟨_, rfl⟩ := Prod.mk.inj same
      cases sheds.quiet _ here

/-- In a prompt run every reconnector keeps to its schedule. -/
theorem of_run {options : Options} {start : Pool} {began : Nat} {moments : List Moment}
    (made : Pool.new options = .ok start) (run : PromptRun unfit? start began moments now p) :
    Scheduled now (stamped moments) p := by
  induction run with
  | start =>
    have fresh := Fresh.of_new made
    refine ⟨⟨?_, ?_⟩, nofun⟩
    · rw [fresh.reconnectors]
      exact nofun
    · rw [fresh.dials]
      exact nofun
  | @act moments now p p' a es past taken ih =>
    have free : Run start began moments now p := past.loosen fun _ _ _ _ => trivial
    have accounts := Ledger.of_run made free
    rw [stamped_concat]
    refine carry_of_step (P := fun es q => Scheduled now (stamped moments ++ stampAt now es) q) accounts
      (.of_run made free) (fun es q sheds => ih.of_sheds sheds) ?_ taken
    intro told q es q' accounts so_far work
    have split : stampAt now (told ++ es) = stampAt now told ++ stampAt now es := List.map_append
    rw [split, ← List.append_assoc]
    refine so_far.of_work ?_ work
    rw [List.map_append, map_snd_stampAt, map_snd_stamped]
    exact accounts
  | rest _ _ allowed ih =>
    exact ⟨.of_rest allowed, fun since r told => (ih.timetable since r told).of_rest allowed⟩

end Scheduled

end CallPool.Pool
