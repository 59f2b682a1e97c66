import CallPool.Proofs.Connection.Lifecycle

/-!
# What a loss does to the calls

A call that is registered when its connection is lost never gets its reply. If the writer is done
with its frame it ends at that very instant, and reports the loss if the frame was written. But a
call whose frame is still on its way out sleeps on: it looks at its reply only after the verdict on
its write, which a writer that is stuck in a write may give much later, or not before the deadline
of the call.

Main statement: `loss_wakes_judged_calls`.
-/

set_option autoImplicit false

namespace CallPool.Connection

/-- How a call ends whose connection is lost in a moment, by the verdict that it has on its write
behind that moment. -/
inductive AfterLoss (slot : Nat) (id : CorrelationId) (limit : Duration) (since : Nat) (m : Moment)
    (newer : List Moment) (t : Ticket) : Verdict → Nat × Outcome → Prop
  | written : AfterLoss slot id limit since m newer t .written
      (m.instant, .error (.connectionLost slot id))
  | failed {fault : WriteFault} : AfterLoss slot id limit since m newer t (.failed fault)
      (m.instant, .error (.send slot fault))
  /-- The verdict comes later, and the call ends then. -/
  | writtenLater {m' : Moment} (member : m' ∈ newer) (judges : Judges m' t .written) :
      AfterLoss slot id limit since m newer t .awaited (m'.instant, .error (.connectionLost slot id))
  | failedLater {m' : Moment} {fault : WriteFault} (member : m' ∈ newer)
      (judges : Judges m' t (.failed fault)) :
      AfterLoss slot id limit since m newer t .awaited (m'.instant, .error (.send slot fault))
  /-- The deadline comes before the verdict. -/
  | timedOut : AfterLoss slot id limit since m newer t .awaited
      (since + limit.nanos, .error (.requestTimeout id limit.millis))

/-- What a party has learnt whose reply is given up is what became of its write. -/
theorem Party.outcome?_of_abandoned {p : Party} {slot : Nat} {id : CorrelationId}
    (waiting : p.purpose.id? = some id) (abandoned : p.reply = .abandoned) :
    p.outcome? slot = match p.verdict with
      | .awaited => none
      | .written => some (.error (.connectionLost slot id))
      | .failed fault => some (.error (.send slot fault)) := by
  unfold outcome?
  rw [waiting, abandoned]
  cases p.verdict <;> rfl

variable {slot generation began now : Nat} {options : Options} {moments older newer : List Moment}
  {m : Moment} {id : CorrelationId} {c c' : Connection}

/-- A party that stays through the loss of its connection stays registered nowhere: its reply is
given up. -/
theorem abandoned_of_lost {notice : Notice} {a : Action} {es : List Event} {p : Party}
    (coherent : Coherent c) (posted : Posted c) (taken : c.step now a = some (c', es))
    (lost : Event.lost notice ∈ es) (member : p ∈ c.parties)
    (entered : (id, p.ticket) ∈ c.registry.entries) :
    ∃ p' ∈ c'.parties, Advance ⟨now, a, es, c, c'⟩ p p' ∧ p'.reply = .abandoned := by
  have effect : Effect c now c' a es := .of_step taken
  have dead := (dead_of_lost effect lost).2
  refine abandoned_of_unlisted coherent posted taken member entered ?_ ?_ ?_
  · rw [(coherent.of_effect effect).empty_of_dead dead]
    nofun
  · intro drops
    rcases effect.of_drops drops with ⟨same, _⟩ | ⟨_, _, _, ⟨_, rfl⟩ | ⟨_, _, _, rfl⟩⟩
    · exact absurd same (Nat.ne_of_lt (coherent.party_lt member))
    · cases lost
    · cases List.mem_singleton.1 lost
  · intro response told
    rw [((Passage.of_step coherent taken).delivered _ _ told).1] at lost
    cases List.mem_singleton.1 lost

/-- A party whose reply is given up ends at the instant of its verdict, if it ends with one. -/
theorem judged_now_of_run {t : Ticket} (run : PromptRun c began moments now c')
    (coherent : Coherent c) (posted : Posted c) (below : t < c.nextTicket)
    (waiting : ∀ p ∈ c.parties, p.ticket = t →
      p.purpose.id? = some id ∧ p.reply = .abandoned ∧ p.verdict = .awaited) :
    ∀ p ∈ c'.parties, p.ticket = t → p.purpose.id? = some id ∧ p.reply = .abandoned ∧
      (p.verdict = .awaited ∨ ∃ m ∈ moments, m.instant = now ∧ Judges m t p.verdict) := by
  induction run with
  | start =>
    intro p member mine
    obtain ⟨own, abandoned, awaits⟩ := waiting p member mine
    exact ⟨own, abandoned, .inl awaits⟩
  | @act ms now d d' a es past taken ih =>
    have run := run_of_prompt past
    intro p' member mine
    rcases Advance.of_step (coherent.along run) (posted.along coherent run) taken member with
      ⟨p, p_member, goes_on⟩ | comes
    · have was_mine := goes_on.ticket.symm.trans mine
      obtain ⟨own, abandoned, judged⟩ := ih p p_member was_mine
      refine ⟨by rw [goes_on.purpose, own], ?_, ?_⟩
      · rcases goes_on.reply with same | ⟨awaits, _⟩
        · rw [same, abandoned]
        · rw [abandoned] at awaits
          cases awaits
      · rcases goes_on.verdict with same | ⟨_, judges⟩
        · rw [same]
          refine judged.imp_right fun ⟨m, m_member, at_once, judges⟩ => ?_
          exact ⟨m, List.mem_append_left _ m_member, at_once, judges⟩
        · rw [was_mine] at judges
          exact .inr ⟨_, List.mem_append_right _ (List.mem_singleton_self _), rfl, judges⟩
    · have further := Nat.lt_of_lt_of_le below (nextTicket_le_of_run run coherent)
      exact absurd (mine.symm.trans comes.ticket) (Nat.ne_of_lt further)
  | rest past _ allowed ih =>
    intro p member mine
    obtain ⟨own, abandoned, judged⟩ := ih p member mine
    refine ⟨own, abandoned, .inl ?_⟩
    rcases judged with awaits | ⟨_, _, _, judges⟩
    · exact awaits
    · -- With a verdict the party would have been ready to end.
      have none_ends := ending?_of_idle allowed.1 member
      cases verdict : p.verdict with
      | awaited => rfl
      | written =>
        rw [Party.ending?_of_outcome? (by rw [Party.outcome?_of_abandoned own abandoned, verdict])]
          at none_ends
        cases none_ends
      | failed fault =>
        rw [Party.ending?_of_outcome? (by rw [Party.outcome?_of_abandoned own abandoned, verdict])]
          at none_ends
        cases none_ends

/-- A call whose reply is given up, and which waits for the verdict on its write, ends with that
verdict or at its deadline. -/
theorem afterLoss_of_awaited {p : Party} {limit : Duration} {since : Nat} {ending : Nat × Outcome}
    (run : PromptRun (Connection.opened slot generation options began) began (older ++ m :: newer)
      now c) (member : p ∈ m.after.parties) (calls : p.purpose = .call id limit since)
    (abandoned : p.reply = .abandoned) (awaits : p.verdict = .awaited)
    (seen : ending ∈ endings newer p.ticket) :
    AfterLoss slot id limit since m newer p.ticket .awaited ending := by
  obtain ⟨_, _, _, upto, _⟩ := (run_of_prompt run).at_moment
  have coherent := Coherent.of_run upto
  have posted := (Posted.opened slot generation options began).along (.opened _ _ _ _) upto
  have below := coherent.party_lt member
  have only : ∀ q ∈ m.after.parties, q.ticket = p.ticket → q = p :=
    fun q q_member same => coherent.party_unique q_member member same
  obtain ⟨i, outcome⟩ := ending
  obtain ⟨m₂, m₂_member, rfl, told⟩ := mem_endings.1 seen
  obtain ⟨mid, later, rfl⟩ := List.append_of_mem m₂_member
  have between := run.behind.at_moment.1
  have free := run_of_prompt between
  have whole := run_of_prompt run
  have cut : older ++ m :: (mid ++ m₂ :: later) = (older ++ m :: mid) ++ m₂ :: later := by simp
  rw [cut] at run whole
  obtain ⟨q, q_member, mine, ends⟩ := party_of_finished whole
    (Nat.lt_of_lt_of_le below (nextTicket_le_of_run free coherent)) told
  have is_call : q.purpose = .call id limit since := by
    refine advance_along free coherent posted below (fun q q_member same => ?_)
      (fun _ _ _ goes_on same => goes_on.purpose.trans same) q q_member mine
    rw [only q q_member same, calls]
  obtain ⟨-, still_abandoned, judged⟩ := judged_now_of_run between coherent posted below
    (fun q q_member same => by
      rw [only q q_member same]
      exact ⟨by rw [calls]; rfl, abandoned, awaits⟩) q q_member mine
  have judges : q.verdict ≠ .awaited → ∃ m₃ ∈ mid ++ m₂ :: later, m₃.instant = m₂.instant ∧
      Judges m₃ p.ticket q.verdict := by
    intro decided
    obtain ⟨m₃, m₃_member, at_once, judges⟩ := judged.resolve_left decided
    exact ⟨m₃, List.mem_append_left _ m₃_member, at_once, judges⟩
  rcases Party.of_ending?_call is_call ends with
    ⟨_, response, replied, _⟩ | ⟨written, _, rfl⟩ | ⟨fault, failed, rfl⟩ | ⟨_, due, rfl⟩
  · rw [still_abandoned] at replied
    cases replied
  · obtain ⟨m₃, m₃_member, at_once, writes⟩ := judges (by rw [written]; nofun)
    rw [written] at writes
    rw [← at_once]
    exact .writtenLater m₃_member writes
  · obtain ⟨m₃, m₃_member, at_once, fails⟩ := judges (by rw [failed]; nofun)
    rw [failed] at fails
    rw [← at_once]
    exact .failedLater m₃_member fails
  · have in_time := le_deadline_of_run run.at_moment.1 q q_member (since + limit.nanos)
      (by rw [is_call]; rfl)
    have exactly : m₂.instant = since + limit.nanos := by omega
    rw [exactly]
    exact .timedOut

/-- A call that is registered when its connection is lost ends as `AfterLoss` says: at that very
instant if the writer is done with its frame, with the loss if the frame was written; otherwise only
when the verdict on its write is there, or at its deadline. -/
theorem loss_wakes_judged_calls {notice : Notice} {p : Party} {limit : Duration} {since : Nat}
    (run : PromptRun (Connection.opened slot generation options began) began (older ++ m :: newer)
      now c) (lost : Event.lost notice ∈ m.events) (member : p ∈ m.before.parties)
    (calls : p.purpose = .call id limit since)
    (entered : (id, p.ticket) ∈ m.before.registry.entries) :
    ∃ verdict, (p.verdict ≠ .awaited → verdict = p.verdict) ∧
      (verdict = .awaited ↔ p.ticket ∈ m.after.underway) ∧
      (∀ ending ∈ endings (older ++ m :: newer) p.ticket,
        AfterLoss slot id limit since m newer p.ticket verdict ending) ∧
      (verdict ≠ .awaited → m.instant < now → ¬ Cancelled (older ++ m :: newer) p.ticket →
        ∃ ending, endings (older ++ m :: newer) p.ticket = [ending]) := by
  have free := run_of_prompt run
  obtain ⟨past, taken, _, upto, _⟩ := free.at_moment
  have coherent := Coherent.of_run upto
  have posted_before := (Posted.opened slot generation options began).along (.opened _ _ _ _) past
  have posted := (Posted.opened slot generation options began).along (.opened _ _ _ _) upto
  obtain ⟨p', member', goes_on, abandoned⟩ :=
    abandoned_of_lost (Coherent.of_run past) posted_before taken lost member entered
  have is_call : p'.purpose = .call id limit since := goes_on.purpose.trans calls
  have same_ticket := goes_on.ticket
  have none_yet : endings (older ++ [m]) p.ticket = [] := by
    have stays : ¬ Dropped (older ++ [m]) p.ticket := fun dropped =>
      ((Account.of_run upto).gone _ dropped).2 p'.wait (List.mem_map_of_mem member') same_ticket
    rw [dropped_iff, not_or, not_not] at stays
    exact stays.1
  have all_later : endings (older ++ m :: newer) p.ticket = endings newer p.ticket := by
    rw [List.append_cons, endings_append, none_yet, List.nil_append]
  have same_slot : m.after.slot = slot := congrArg Notice.slot (place_of_run upto)
  have known : ∀ {outcome : Outcome}, p'.outcome? slot = some outcome →
      (∀ ending ∈ endings newer p.ticket, ending = (m.instant, outcome)) ∧
        ((∃ q ∈ c.parties, q.ticket = p.ticket) → now = m.instant) := by
    intro outcome learnt
    rw [← same_ticket]
    refine ends_at_once run.behind coherent posted (coherent.party_lt member') fun q q_member mine => ?_
    rw [coherent.party_unique q_member member' mine, same_slot]
    exact learnt
  have calls_id : p'.purpose.id? = some id := by rw [is_call]; rfl
  have learns := @Party.outcome?_of_abandoned p' slot id calls_id abandoned
  refine ⟨p'.verdict, ?_, ?_, ?_, ?_⟩
  · intro decided
    exact goes_on.verdict.resolve_right fun ⟨awaits, _⟩ => decided awaits
  · rw [← same_ticket]
    exact posted.awaited_iff p'.errand (List.mem_map_of_mem member')
  · intro ending seen
    rw [all_later] at seen
    cases verdict : p'.verdict with
    | awaited =>
      rw [← same_ticket] at seen ⊢
      exact afterLoss_of_awaited run member' is_call abandoned verdict seen
    | written =>
      rw [verdict] at learns
      rw [(known learns).1 ending seen]
      exact .written
    | failed fault =>
      rw [verdict] at learns
      rw [(known learns).1 ending seen]
      exact .failed
  · intro decided passed not_cancelled
    have gone : ¬ ∃ q ∈ c.parties, q.ticket = p.ticket := by
      intro there
      cases verdict : p'.verdict with
      | awaited => exact decided verdict
      | written =>
        rw [verdict] at learns
        exact absurd ((known learns).2 there) (Nat.ne_of_gt passed)
      | failed fault =>
        rw [verdict] at learns
        exact absurd ((known learns).2 there) (Nat.ne_of_gt passed)
    have entry : Event.registered p.ticket id ∈ eventsOf (older ++ m :: newer) := by
      obtain ⟨w, w_member, mine, waiting, _⟩ := ((Coherent.of_run past).entry_iff id p.ticket).1 entered
      rw [eventsOf_append, ← mine]
      exact List.mem_append_left _ ((Account.of_run past).registered w w_member id waiting)
    rw [exists_party_iff (Account.of_run free) entry, not_not] at gone
    exact exists_ending free gone not_cancelled

/-- A call whose frame is being written when the server closes the connection, by a writer that is
stuck. -/
def stalledCall : List (Nat × Action) := [
  (0, .call ⟨"a"⟩ .ping (Duration.ofSeconds 30)), (0, .beginData), (1, .receive .close),
  (10000000000, .expireWrite), (10000000000, .wake 0)]

/-- The loss does not wake it: it ends ten seconds later, when the writer gives up, and reports that
instead of the loss. -/
theorem sleeps_of_stalledCall : ∃ older m newer now c p,
    PromptRun (Connection.opened 0 0 .default 0) 0 (older ++ m :: newer) now c ∧
      m.instant = 1 ∧ Event.lost ⟨0, 0⟩ ∈ m.events ∧ p ∈ m.before.parties ∧
      p.purpose = .call ⟨"a"⟩ (Duration.ofSeconds 30) 0 ∧
      (⟨"a"⟩, p.ticket) ∈ m.before.registry.entries ∧
      endings (older ++ m :: newer) p.ticket = [(10000000000, .error (.send 0 (.timedOut 10000)))] ∧
      ∃ m' ∈ newer, m'.instant = 10000000000 ∧ Judges m' p.ticket (.failed (.timedOut 10000)) := by
  have played : ((History.play step (Connection.opened 0 0 .default 0) stalledCall).map fun r => decide (
      (r.1[2]?.map fun m => decide (m.instant = 1 ∧
        m.events.filterMap Event.notice? = [⟨0, 0⟩] ∧
        (m.before.parties.map fun p => (p.ticket, p.purpose)) =
          [(0, .call ⟨"a"⟩ (Duration.ofSeconds 30) 0)] ∧
        m.before.registry.entries = [(⟨"a"⟩, 0)] ∧ m.after.underway = [0])) = some true ∧
      (endings r.1 0).map (fun e => (e.1, match e.2 with
          | .error x => some x
          | .ok _ => none)) = [(10000000000, some (.send 0 (.timedOut 10000)))])) = some true := by decide
  obtain ⟨⟨moments, c⟩, run, computed⟩ := Option.map_eq_some_iff.1 played
  obtain ⟨third, ended⟩ := of_decide_eq_true computed
  have history : PromptRun (Connection.opened 0 0 .default 0) 0 moments
      (History.lastInstant 0 stalledCall) c := History.of_play_resting run (by decide)
  obtain ⟨m, there, facts⟩ := Option.map_eq_some_iff.1 third
  obtain ⟨at_one, notices, parties, entries, underway⟩ := of_decide_eq_true facts
  have cut : moments = moments.take 2 ++ m :: moments.drop 3 := by
    obtain ⟨short, same⟩ := List.getElem?_eq_some_iff.1 there
    rw [← same, ← List.drop_eq_getElem_cons short, List.take_append_drop]
  rw [cut] at history ended
  have lost : Event.lost ⟨0, 0⟩ ∈ m.events := by
    obtain ⟨e, told, same⟩ := List.mem_filterMap.1 (notices ▸ List.mem_singleton_self _)
    cases e with
    | lost n => rw [← Option.some.inj same]; exact told
    | _ => cases same
  obtain ⟨p, only, same⟩ := List.map_eq_singleton_iff.1 parties
  obtain ⟨ticket, calls⟩ := Prod.mk.inj same
  have member : p ∈ m.before.parties := only ▸ List.mem_singleton_self _
  have entered : (⟨"a"⟩, p.ticket) ∈ m.before.registry.entries := by simp [entries, ticket]
  obtain ⟨⟨i, outcome⟩, single, shape⟩ := List.map_eq_singleton_iff.1 ended
  obtain ⟨rfl, reported⟩ := Prod.mk.inj shape
  cases outcome with
  | ok _ => cases reported
  | error e =>
    obtain rfl := Option.some.inj reported
    have reports : endings (moments.take 2 ++ m :: moments.drop 3) p.ticket =
        [(10000000000, .error (.send 0 (.timedOut 10000)))] := by
      rw [ticket]
      exact single
    obtain ⟨verdict, _, awaited_iff, after, _⟩ :=
      loss_wakes_judged_calls history lost member calls entered
    obtain rfl := awaited_iff.2 (by simp [underway, ticket])
    refine ⟨_, m, _, _, c, p, history, at_one, lost, member, calls, entered, reports, ?_⟩
    obtain ⟨ending, same, how⟩ : ∃ ending, ending = (10000000000, .error (.send 0 (.timedOut 10000))) ∧
        AfterLoss 0 ⟨"a"⟩ (Duration.ofSeconds 30) 0 m (moments.drop 3) p.ticket .awaited ending :=
      ⟨_, rfl, after _ (reports ▸ List.mem_singleton_self _)⟩
    cases how with
    | writtenLater _ _ => cases (Prod.mk.inj same).2
    | failedLater later judges =>
      obtain ⟨at_last, same_error⟩ := Prod.mk.inj same
      cases same_error
      exact ⟨_, later, at_last, judges⟩
    | timedOut => cases (Prod.mk.inj same).2

end CallPool.Connection
