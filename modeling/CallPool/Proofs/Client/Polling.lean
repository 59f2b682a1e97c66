import CallPool.Client.Poller
import CallPool.Proofs.Client.Answers
import CallPool.Proofs.History

/-!
# What a poller holds

The refreshes of a run stand in the order in which they were begun, each with what it ended with, if it
has ended (`refreshes`). A poller begins one only while it waits, and waits again only when that one has
ended, so all but the last of them have ended, and they ended in this order (`Ledger`). What it holds is
then what the last one that succeeded brought. A step from a poller that has stopped is a stop, so what
it held when it stopped is what it holds from there on.

Main statement: `latest_eq_last_success`.
-/

set_option autoImplicit false

namespace CallPool.Client.Poller

variable {p p' : Poller} {now : Nat} {a : Action} {es : List Event}

/-! ## Single steps -/

/-- A refresh succeeds: it ends with a reply that carries no error, and the payload of that reply is
read as these policies. -/
def Succeeds (o : Pool.Outcome) (policies : PolicyResponse) : Prop :=
  ∃ reply, o = .ok (.reply reply) ∧ reply.Accepts ∧
    PolicyResponse.record.reader.decode reply.payload = .ok policies

/-- A refresh gives policies exactly if its request succeeds with them. -/
theorem refreshed_eq_some_iff {o : Pool.Outcome} {policies : PolicyResponse} :
    refreshed o = some policies ↔ Succeeds o policies := by
  cases o with
  | error e => simp [refreshed, Succeeds]
  | ok value =>
    cases value with
    | reply r =>
      rcases r.accepted_cases with ⟨accepts, taken⟩ | ⟨code, message, refuses, refused⟩
      · have decoded : refreshed (.ok (.reply r)) = some policies ↔
            PolicyResponse.record.reader.decode r.payload = .ok policies := by
          simp only [refreshed, Response.decode, Response.result, taken]
          change ((PolicyResponse.record.reader.decode r.payload).mapError Error.json).toOption = _ ↔ _
          cases PolicyResponse.record.reader.decode r.payload with
          | error e =>
            constructor
            · intro read
              cases read
            · intro read
              cases read
          | ok read => exact Option.some_inj.trans (Except.ok.injEq read policies).symm.to_iff
        rw [decoded]
        constructor
        · exact fun read => ⟨r, rfl, accepts, read⟩
        · rintro ⟨_, same, _, read⟩
          obtain rfl := Pool.Value.reply.inj (Except.ok.inj same)
          exact read
      · have nothing : refreshed (.ok (.reply r)) = none := by
          simp only [refreshed, Response.decode, Response.result, refused]
          rfl
        rw [nothing]
        constructor
        · intro none_some
          cases none_some
        · rintro ⟨_, same, accepts, _⟩
          obtain rfl := Pool.Value.reply.inj (Except.ok.inj same)
          exact absurd refuses accepts.not_refuses
    | _ => simp [refreshed, Succeeds]

/-- A refresh gives nothing exactly if its request does not succeed. -/
theorem refreshed_eq_none_iff {o : Pool.Outcome} :
    refreshed o = none ↔ ∀ policies, ¬ Succeeds o policies := by
  simp only [← refreshed_eq_some_iff]
  exact Option.eq_none_iff_forall_ne_some

/-- What a step does. -/
inductive Turn (p : Poller) (now : Nat) : Action → Poller → List Event → Prop
  | ask (due : p.isDue now = true) : Turn p now (.tick false)
      { p with nextTick := p.tickAfter now, phase := .asking } [.asked]
  | close (due : p.isDue now = true) : Turn p now (.tick true)
      { p with nextTick := p.tickAfter now, phase := .stopped } [.ended]
  | store {o : Pool.Outcome} {policies : PolicyResponse} (asking : p.phase = .asking)
      (brought : refreshed o = some policies) : Turn p now (.conclude o)
        { p with phase := .waiting, latest := some policies, fresh := true } [.stored policies]
  | keep {o : Pool.Outcome} (asking : p.phase = .asking) (failed : refreshed o = none) :
      Turn p now (.conclude o) { p with phase := .waiting } []
  | stop : Turn p now .stop { p with phase := .stopped } (if p.isRunning then [.ended] else [])

/-- Whatever a poller does is one of its turns. -/
theorem turn_of_step (taken : p.step now a = some (p', es)) : Turn p now a p' es := by
  cases a with
  | tick closed =>
    simp only [step] at taken
    split at taken
    · next due =>
      cases closed with
      | true =>
        obtain ⟨rfl, rfl⟩ := Prod.mk.inj (Option.some.inj taken)
        exact .close due
      | false =>
        obtain ⟨rfl, rfl⟩ := Prod.mk.inj (Option.some.inj taken)
        exact .ask due
    · cases taken
  | conclude o =>
    simp only [step] at taken
    split at taken
    · next asking =>
      cases brought : refreshed o with
      | some policies =>
        rw [brought] at taken
        obtain ⟨rfl, rfl⟩ := Prod.mk.inj (Option.some.inj taken)
        exact .store asking brought
      | none =>
        rw [brought] at taken
        obtain ⟨rfl, rfl⟩ := Prod.mk.inj (Option.some.inj taken)
        exact .keep asking brought
    · cases taken
  | stop =>
    obtain ⟨rfl, rfl⟩ := Prod.mk.inj (Option.some.inj taken)
    exact .stop

/-- A refresh that brings nothing changes nothing but that it is over. -/
theorem kept_of_failed {o : Pool.Outcome} (failed : refreshed o = none)
    (taken : p.step now (.conclude o) = some (p', es)) :
    es = [] ∧ p' = { p with phase := .waiting } := by
  cases turn_of_step taken with
  | store _ brought => rw [failed] at brought; cases brought
  | keep => exact ⟨rfl, rfl⟩

/-- A poller whose next tick is there and that finds the pool closed can take that tick, and ends. -/
theorem step_of_closed (due : p.isDue now = true) : p.step now (.tick true) =
    some ({ p with nextTick := p.tickAfter now, phase := .stopped }, [.ended]) := by
  simp [step, due]

/-! ## Refreshes in their order -/

/-- Whether a refresh is begun. -/
def Event.isAsked : Event → Bool
  | asked => true
  | _ => false

/-- What the refresh that is under way ends with, if this is its end. -/
def Action.outcome? : Action → Option Pool.Outcome
  | conclude o => some o
  | _ => none

/-- The refreshes of a run in the order in which they were begun: what the first end behind each of
them is, if there is one. -/
def refreshes : List (Moment Poller Action Event) → List (Option Pool.Outcome)
  | [] => []
  | m :: later =>
    if m.events.any Event.isAsked then
      later.findSome? (fun m' => m'.action.outcome?) :: refreshes later
    else refreshes later

/-- What refreshes ended with, in the order of their ends. -/
def outcomes (ms : List (Moment Poller Action Event)) : List Pool.Outcome :=
  ms.filterMap fun m => m.action.outcome?

/-- One more moment ends what has not ended, if it is an end, and may begin a refresh. -/
theorem refreshes_concat (ms : List (Moment Poller Action Event)) (m : Moment Poller Action Event) :
    refreshes (ms ++ [m]) = (refreshes ms).map (fun o => o.or m.action.outcome?) ++
      if m.events.any Event.isAsked then [none] else [] := by
  induction ms with
  | nil =>
    simp only [List.nil_append, refreshes]
    split <;> simp
  | cons first later ih =>
    simp only [List.cons_append, refreshes, ih]
    split
    · rw [List.findSome?_append, List.map_cons, List.cons_append]
      congr 2
      cases last : m.action.outcome? <;> simp [last]
    · rfl

/-- A moment adds the outcome that it brings, if it brings one. -/
theorem outcomes_concat (ms : List (Moment Poller Action Event)) (m : Moment Poller Action Event) :
    outcomes (ms ++ [m]) = outcomes ms ++ m.action.outcome?.toList := by
  simp only [outcomes, List.filterMap_append, List.filterMap_cons, List.filterMap_nil]
  cases m.action.outcome? <;> rfl

/-- The last of these refreshes that succeeded brought these policies. -/
def LastSuccess (rs : List (Option Pool.Outcome)) (policies : PolicyResponse) : Prop :=
  ∃ older o newer, rs = older ++ some o :: newer ∧ Succeeds o policies ∧
    ∀ o', some o' ∈ newer → ∀ policies', ¬ Succeeds o' policies'

/-- A refresh that has not ended is no success. -/
theorem lastSuccess_iff {os : List Pool.Outcome} {rs pending : List (Option Pool.Outcome)}
    {policies : PolicyResponse} (same : rs = os.map some ++ pending)
    (unended : ∀ o, o ∈ pending → o = none) :
    LastSuccess rs policies ↔ os.reverse.findSome? refreshed = some policies := by
  subst same
  rw [List.findSome?_eq_some_iff]
  constructor
  · rintro ⟨older, o, newer, split, success, behind⟩
    -- The success cannot be among those that have not ended.
    obtain ⟨newer', rfl⟩ : ∃ newer', newer = newer' ++ pending := by
      rcases List.append_eq_append_iff.1 split with ⟨middle, _, split'⟩ | ⟨middle, _, split'⟩
      · cases unended (some o) (by rw [split']; simp)
      · cases middle with
        | nil => cases unended (some o) (by rw [← List.nil_append pending, ← split']; simp)
        | cons first rest =>
          obtain ⟨_, rfl⟩ := List.cons.inj split'
          exact ⟨rest, rfl⟩
    rw [← List.cons_append, ← List.append_assoc] at split
    obtain ⟨front, back, rfl, rfl, ends⟩ := List.map_eq_append_iff.1 (List.append_cancel_right split)
    obtain ⟨o', back', rfl, same, rfl⟩ := List.map_eq_cons_iff.1 ends
    obtain rfl := Option.some.inj same
    refine ⟨back'.reverse, o', front.reverse, by simp, refreshed_eq_some_iff.2 success, ?_⟩
    intro o'' member
    refine refreshed_eq_none_iff.2 (behind o'' ?_)
    exact List.mem_append_left _ (List.mem_map_of_mem (List.mem_reverse.1 member))
  · rintro ⟨back, o, front, split, success, behind⟩
    refine ⟨front.reverse.map some, o, back.reverse.map some ++ pending, ?_,
      refreshed_eq_some_iff.1 success, ?_⟩
    · rw [← List.reverse_reverse os, split]
      simp
    · intro o' member
      rcases List.mem_append.1 member with ended | open_there
      · obtain ⟨o'', there, same⟩ := List.mem_map.1 ended
        obtain rfl := Option.some.inj same
        exact refreshed_eq_none_iff.1 (behind o'' (List.mem_reverse.1 there))
      · cases unended _ open_there

/-! ## Runs -/

/-- The books of a poller: all refreshes but at most one have ended, in the order in which they were
begun; the one that has not is under way, unless the poller has stopped; and what is held is what the
last one brought that brought anything. -/
structure Ledger (ms : List (Moment Poller Action Event)) (p : Poller) : Prop where
  pending : ∃ pending, refreshes ms = (outcomes ms).map some ++ pending ∧
    (p.phase = .waiting → pending = []) ∧ (p.phase = .asking → pending = [none]) ∧
      (pending = [] ∨ pending = [none])
  latest : p.latest = (outcomes ms).reverse.findSome? refreshed

/-- An action that neither begins nor ends a refresh leaves the books as they are, if the poller does
not go on. -/
theorem Ledger.stop {ms : List (Moment Poller Action Event)} (ledger : Ledger ms p)
    (silent : es.any Event.isAsked = false) (no_end : a.outcome? = none)
    (stopped : p'.phase = .stopped) (same : p'.latest = p.latest) :
    Ledger (ms ++ [⟨now, a, es, p, p'⟩]) p' := by
  obtain ⟨pending, split, _, _, few⟩ := ledger.pending
  constructor
  · refine ⟨pending, ?_, by simp [stopped], by simp [stopped], few⟩
    rw [refreshes_concat, outcomes_concat]
    simp [silent, no_end, split]
  · rw [outcomes_concat, same, ledger.latest]
    simp [no_end]

/-- The end of the refresh under way is entered behind those that ended before. -/
theorem Ledger.conclude {ms : List (Moment Poller Action Event)} {o : Pool.Outcome}
    (ledger : Ledger ms p) (asking : p.phase = .asking) (silent : es.any Event.isAsked = false)
    (waiting : p'.phase = .waiting) (same : p'.latest = (refreshed o).or p.latest) :
    Ledger (ms ++ [⟨now, .conclude o, es, p, p'⟩]) p' := by
  obtain ⟨pending, split, _, under_way, _⟩ := ledger.pending
  obtain rfl := under_way asking
  constructor
  · refine ⟨[], ?_, fun _ => rfl, by simp [waiting], .inl rfl⟩
    rw [refreshes_concat, outcomes_concat, split]
    simp [silent, Action.outcome?]
  · rw [outcomes_concat, same, ledger.latest]
    simp only [Action.outcome?, Option.toList_some, List.reverse_append, List.reverse_singleton,
      List.singleton_append, List.findSome?_cons]
    cases refreshed o <;> rfl

/-- A poller that has just been started has no outcomes behind it. -/
theorem ledger_start (interval : Duration) (began : Nat) : Ledger [] (start interval began) := by
  refine ⟨⟨[], rfl, fun _ => rfl, ?_, .inl rfl⟩, rfl⟩
  intro asking
  unfold start at asking
  dsimp only at asking
  split at asking <;> cases asking

/-- A poller is due only while it waits. -/
theorem phase_of_isDue (due : p.isDue now = true) : p.phase = .waiting := by
  simp only [isDue, Bool.and_eq_true, decide_eq_true_eq] at due
  exact due.1

/-- Each step keeps the books. -/
theorem Ledger.of_step {ms : List (Moment Poller Action Event)} (ledger : Ledger ms p)
    (taken : p.step now a = some (p', es)) : Ledger (ms ++ [⟨now, a, es, p, p'⟩]) p' := by
  cases turn_of_step taken with
  | ask due =>
    obtain ⟨pending, split, resting, _, _⟩ := ledger.pending
    obtain rfl := resting (phase_of_isDue due)
    constructor
    · refine ⟨[none], ?_, nofun, fun _ => rfl, .inr rfl⟩
      rw [refreshes_concat, outcomes_concat, split]
      simp [Event.isAsked, Action.outcome?]
    · rw [outcomes_concat]
      simpa [Action.outcome?] using ledger.latest
  | close due => exact ledger.stop rfl rfl rfl rfl
  | store asking brought => exact ledger.conclude asking rfl rfl (by rw [brought]; rfl)
  | keep asking failed => exact ledger.conclude asking rfl rfl (by rw [failed]; rfl)
  | stop => exact ledger.stop (by cases p.isRunning <;> rfl) rfl rfl rfl

/-- In every run of a poller its accounts are right. -/
theorem ledger_of_run {interval : Duration} {began : Nat} {ms : List (Moment Poller Action Event)}
    (run : Run (start interval began) began ms now p) : Ledger ms p :=
  run.induct_moments (ledger_start interval began) fun _ _ _ _ _ _ _ ledger taken =>
    ledger.of_step taken

/-- A poller that has stopped takes no step but to be stopped again, which changes nothing. -/
theorem stop_of_stopped (stopped : p.phase = .stopped) (taken : p.step now a = some (p', es)) :
    a = .stop ∧ es = [] ∧ p' = p := by
  cases turn_of_step taken with
  | ask due => simp [isDue, stopped] at due
  | close due => simp [isDue, stopped] at due
  | store asking => simp [stopped] at asking
  | keep asking => simp [stopped] at asking
  | stop =>
    refine ⟨rfl, by simp [isRunning, stopped], ?_⟩
    rw [← stopped]

/-- A poller that has stopped does nothing more, and stays as it is. -/
theorem stops_of_stopped {began : Nat} {ms : List (Moment Poller Action Event)}
    (stopped : p.phase = .stopped) (run : Run p began ms now p') :
    p' = p ∧ ∀ m ∈ ms, m.action = .stop ∧ m.events = [] ∧ m.after = p := by
  induction run with
  | start => exact ⟨rfl, by simp⟩
  | act _ taken ih =>
    obtain ⟨rfl, older⟩ := ih
    obtain ⟨stop, silent, same⟩ := stop_of_stopped stopped taken
    refine ⟨same, fun m member => ?_⟩
    rcases List.mem_append.1 member with earlier | last
    · exact older m earlier
    · rw [List.mem_singleton.1 last]
      exact ⟨stop, silent, same⟩
  | rest _ _ _ ih => exact ih

/-- The end of a poller, in front of what comes behind it: nothing is begun or stored by it, and behind
it the poller is only stopped again, which cannot be seen and leaves what is held as it is. -/
structure EndsAt (m : Moment Poller Action Event) (newer : List (Moment Poller Action Event))
    (p : Poller) : Prop where
  seen : m.events = if m.before.isRunning then [.ended] else []
  kept : m.after.latest = m.before.latest
  behind : ∀ m' ∈ newer, m'.action = .stop ∧ m'.events = [] ∧ m'.after.latest = m.before.latest
  stopped : p.isRunning = false
  latest : p.latest = m.before.latest

/-- A poller that is stopped, or finds the pool closed, ends there. -/
theorem endsAt_of_run {start : Poller} {began : Nat} {older newer : List (Moment Poller Action Event)}
    {m : Moment Poller Action Event} (run : Run start began (older ++ m :: newer) now p)
    (last : m.action = .stop ∨ m.action = .tick true) : EndsAt m newer p := by
  obtain ⟨t, a, es, before, after⟩ := m
  obtain ⟨_, taken, _⟩ := run.at_moment
  have ends : es = (if before.isRunning then [.ended] else []) ∧ after.latest = before.latest ∧
      after.phase = .stopped := by
    dsimp only at taken last
    cases turn_of_step taken with
    | close due => exact ⟨by simp [isRunning, phase_of_isDue due], rfl, rfl⟩
    | stop => exact ⟨rfl, rfl, rfl⟩
    | ask => rcases last with stop | tick <;> cases ‹_›
    | store => rcases last with stop | tick <;> cases ‹_›
    | keep => rcases last with stop | tick <;> cases ‹_›
  obtain ⟨seen, kept, stopped⟩ := ends
  obtain ⟨rfl, behind⟩ := stops_of_stopped stopped run.behind
  refine ⟨seen, kept, fun m' member => ?_, by simp [isRunning, stopped], kept⟩
  obtain ⟨stop, silent, same⟩ := behind m' member
  exact ⟨stop, silent, by rw [same]; exact kept⟩

/-- At most one refresh is under way, the others ended in the order in which they were begun, and what is
held is what the last one that succeeded brought. A refresh that fails changes nothing but that it is over.
A tick that finds the pool closed can be taken when it is due, and ends the poller without a request; that
and a stop are an end behind which nothing is begun or stored. -/
theorem latest_eq_last_success {interval : Duration} {began : Nat}
    {ms : List (Moment Poller Action Event)} (run : Run (start interval began) began ms now p) :
    (refreshes ms = (outcomes ms).map some ∨ refreshes ms = (outcomes ms).map some ++ [none]) ∧
    (∀ policies, p.latest = some policies ↔ LastSuccess (refreshes ms) policies) ∧
    (p.latest = none ↔ ∀ o, some o ∈ refreshes ms → ∀ policies, ¬ Succeeds o policies) ∧
    (∀ m ∈ ms, ∀ o, m.action = .conclude o → (∀ policies, ¬ Succeeds o policies) →
      m.events = [] ∧ m.after = { m.before with phase := .waiting }) ∧
    (∀ t, p.isDue t = true → p.step t (.tick true) =
      some ({ p with nextTick := p.tickAfter t, phase := .stopped }, [.ended])) ∧
    ∀ older m newer, ms = older ++ m :: newer → m.action = .stop ∨ m.action = .tick true →
      EndsAt m newer p := by
  have ledger := ledger_of_run run
  obtain ⟨pending, split, _, _, few⟩ := ledger.pending
  have unended : ∀ o ∈ pending, o = none := by
    rcases few with rfl | rfl <;> simp
  refine ⟨?_, ?_, ?_, ?_, fun t due => step_of_closed due, ?_⟩
  · rcases few with rfl | rfl
    · exact .inl (by rw [split, List.append_nil])
    · exact .inr split
  · intro policies
    rw [lastSuccess_iff split unended, ledger.latest]
  · rw [ledger.latest, List.findSome?_eq_none_iff]
    refine ⟨fun none_brought o member => ?_, fun none_succeeds o member => ?_⟩
    · rw [split] at member
      rcases List.mem_append.1 member with ended | open_there
      · obtain ⟨o', there, same⟩ := List.mem_map.1 ended
        obtain rfl := Option.some.inj same
        exact refreshed_eq_none_iff.1 (none_brought o' (List.mem_reverse.2 there))
      · cases unended _ open_there
    · refine refreshed_eq_none_iff.2 (none_succeeds o ?_)
      rw [split]
      exact List.mem_append_left _ (List.mem_map_of_mem (List.mem_reverse.1 member))
  · intro m member o ends failed
    obtain ⟨older, newer, rfl⟩ := List.append_of_mem member
    obtain ⟨_, taken, _⟩ := run.at_moment
    exact kept_of_failed (refreshed_eq_none_iff.2 failed) (ends ▸ taken)
  · rintro older m newer rfl last
    exact endsAt_of_run run last

/-- A reply that gives the total of the policies. -/
def totalReply (total : UInt64) : Response :=
  { Response.blank with payload := .object [("total", .number (.natural total))] }

/-- Every 30 seconds, a refresh that succeeds, one that fails and one whose payload has another form, and
then a tick that finds the pool closed. -/
def failingLater : List (Nat × Action) := [
  (0, .tick false), (7, .conclude (.ok (.reply (totalReply 3)))),
  (30000000000, .tick false), (40000000000, .conclude (.error (.connectionLost 0 ⟨"a"⟩))),
  (60000000000, .tick false), (60000000009, .conclude (.ok (.reply .blank))),
  (90000000000, .tick true)]

/-- The first of three refreshes alone succeeded, so that its policies are held at the end, which is the
tick that finds the pool closed. -/
theorem latest_of_failingLater : ∃ older m now p,
    Run (start (.ofSeconds 30) 0) 0 (older ++ [m]) now p ∧ m.action = .tick true ∧ EndsAt m [] p ∧
      (refreshes (older ++ [m])).length = 3 ∧ LastSuccess (refreshes (older ++ [m])) ⟨[], 3⟩ ∧
        p.latest = some ⟨[], 3⟩ := by
  have played : ((History.play step (start (.ofSeconds 30) 0) failingLater).map fun r =>
      (r.1.length, (refreshes r.1).length, r.2.latest)) = some (7, 3, some ⟨[], 3⟩) := by decide
  obtain ⟨⟨ms, p⟩, went, computed⟩ := Option.map_eq_some_iff.1 played
  simp only [Prod.mk.injEq] at computed
  obtain ⟨seven, three, held⟩ := computed
  have run := History.of_play went (show History.inOrder 0 failingLater = true by decide)
  obtain ⟨older, m, rfl⟩ : ∃ older m, ms = older ++ [m] := by
    rcases List.eq_nil_or_concat ms with rfl | ⟨older, m, same⟩
    · cases seven
    · exact ⟨older, m, same.trans List.concat_eq_append⟩
  have six : older.length = 6 := by simpa using seven
  have there : (older ++ [m])[6]? = some m := by simp [← six]
  obtain ⟨_, closed⟩ := History.moment_of_play went there rfl
  obtain ⟨_, latest, _, _, _, ends⟩ := latest_eq_last_success run
  exact ⟨older, m, _, p, run, closed, ends older m [] rfl (.inr closed), three, (latest _).1 held, held⟩

end CallPool.Client.Poller
