import CallPool.Proofs.Connection.Notices
import CallPool.Proofs.Pool.Boundary

/-!
# Requests go where fewest wait

A request that an open pool is asked to send goes to a connection at which no more parties wait than
at any other live one, where at most one more waits from then on; and the pool ends it for want of a
connection exactly if no slot is live. So requests alone never drive the loads of the live connections
further apart than by one, if they are not further apart already.

Main statement: `requests_reach_the_least_busy`, put together from what becomes of a single request
(`Served.of_step`), of the loads (`spread_le_of_passed`), and of those whose request was passed on
(`not_unavailable_of_step`).
-/

set_option autoImplicit false

namespace CallPool

/-- With one entry for an ID at most, a registration adds an entry, or replaces one. -/
theorem Registry.size_insert {r : Registry} (once : r.ids.Nodup) (id : CorrelationId) (t : Ticket) :
    r.size ≤ (r.insert id t).size ∧ (r.insert id t).size ≤ r.size + 1 := by
  have parts : r.size = (r.entries.countP fun e => e.1 = id) + (r.erase id).size := by
    unfold Registry.size Registry.erase
    rw [List.length_eq_countP_add_countP (fun e => decide (e.1 = id)), ← List.countP_eq_length_filter]
    simp
  have one : (r.entries.countP fun e => e.1 = id) ≤ 1 := by
    have counted := List.nodup_iff_count_le_one.1 once id
    unfold Registry.ids List.count at counted
    rw [List.countP_map] at counted
    exact counted
  have size : (r.insert id t).size = (r.erase id).size + 1 := by
    simp [Registry.size, Registry.insert]
  omega

namespace Connection

/-- Nobody who waits on a connection ends for want of one. -/
theorem Party.ending?_ne_unavailable (p : Party) (slot now : Nat) :
    p.ending? slot now ≠ some (.error .noConnectionAvailable) := by
  unfold ending? outcome? surrender?
  cases p.verdict <;> cases p.purpose <;> cases p.reply <;> simp [Purpose.id?, Purpose.deadline?]

/-- A writer that runs is told of the frame that is queued. -/
theorem enqueue_of_running {c : Connection} {item : Outgoing} (running : c.writer ≠ .ended) :
    (c.enqueue item).2 = [.queued item] := by
  unfold enqueue
  split
  · rename_i ended
    exact absurd ended running
  · rfl

/-- Queuing a frame ends nobody. -/
theorem finished_not_mem_enqueue {c : Connection} {item : Outgoing} {t : Ticket} {outcome : Outcome} :
    Event.finished t outcome ∉ (c.enqueue item).2 :=
  fun told => nomatch isTraffic_of_mem_enqueue told

/-- A live connection takes a request: it stays live, at most one more party waits there, and nobody
ends. Unless its writer has ended, it queues the frame of the request. -/
structure Admits (c : Connection) (es : List Event) (c' : Connection) : Prop where
  connected : c'.connected = true
  pending_le : c.pending ≤ c'.pending
  le_pending : c'.pending ≤ c.pending + 1
  unfinished : ∀ t outcome, Event.finished t outcome ∉ es
  queued : c.writer ≠ .ended → ∃ frame, Event.queued ⟨c.nextTicket, frame⟩ ∈ es

/-- A live connection admits a call. -/
theorem Admits.of_call {c c' : Connection} {now : Nat} {id : CorrelationId} {command : Command}
    {limit : Duration} {es : List Event} (coherent : Coherent c) (live : c.connected = true)
    (went : c.step now (.call id command limit) = some (c', es)) : Admits c es c' := by
  cases Takes.of_step went with
  | @calls _ _ _ r entered =>
    obtain ⟨-, live', -, entries, -⟩ := Coherent.waits_of_register? entered
    obtain ⟨-, -, writer, -⟩ := Flow.rest_of_register? entered
    have same := SameWaits.enqueue r ⟨c.nextTicket, (Request.mk command (some id)).frame⟩
    have sizes := Registry.size_insert coherent.ids_nodup id c.nextTicket
    rw [← entries, ← same.registry] at sizes
    refine ⟨same.connected.trans live', sizes.1, sizes.2, ?_, ?_⟩
    · intro t outcome told
      exact finished_not_mem_enqueue ((List.mem_cons.1 told).resolve_left nofun)
    · intro running
      rw [← writer] at running
      rw [enqueue_of_running running]
      exact ⟨_, List.mem_cons_of_mem _ (List.mem_singleton_self _)⟩
  | refuses dead _ =>
    rw [dead] at live
    cases live
  | endsReader how => cases how
  | fails _ how => cases how
  | endsWriter how => cases how with | spoiled _ how => cases how

/-- A live connection admits a command that has no reply. -/
theorem Admits.of_send {c c' : Connection} {now : Nat} {command : Command} {es : List Event}
    (live : c.connected = true) (went : c.step now (.send command) = some (c', es)) :
    Admits c es c' := by
  have same := SameWaits.enqueue (c.join .send .awaited) ⟨c.nextTicket, (Request.mk command none).frame⟩
  cases Takes.of_step went with
  | sends _ =>
    have pending : ((c.join .send .awaited).enqueue
        ⟨c.nextTicket, (Request.mk command none).frame⟩).1.pending = c.pending :=
      congrArg Registry.size same.registry
    refine ⟨same.connected.trans live, Nat.le_of_eq pending.symm, by omega, ?_, ?_⟩
    · exact fun t outcome => finished_not_mem_enqueue
    · intro running
      have still : (c.join .send .awaited).writer ≠ .ended := running
      rw [enqueue_of_running still]
      exact ⟨_, List.mem_singleton_self _⟩
  | refuses dead _ =>
    rw [dead] at live
    cases live
  | endsReader how => cases how
  | fails _ how => cases how
  | endsWriter how => cases how with | spoiled _ how => cases how

/-- A live connection admits every request that is passed on. -/
theorem Admits.of_passed {c c' : Connection} {now : Nat} {a : Pool.Action} {x : Action}
    {es : List Event} (coherent : Coherent c) (live : c.connected = true) (asks : a.passed? = some x)
    (went : c.step now x = some (c', es)) : Admits c es c' := by
  cases a <;> simp only [Pool.Action.passed?, Option.some.injEq, reduceCtorEq] at asks
  · subst asks
    exact .of_call coherent live went
  · subst asks
    exact .of_send live went

end Connection

namespace Pool

/-- How far the loads of the live connections are apart. -/
def spread (p : Pool) : Nat :=
  (p.loads.map Prod.snd).max?.getD 0 - (p.loads.map Prod.snd).min?.getD 0

/-- Loads are no further apart than a bound if no two of them are. -/
theorem spread_le_iff {p : Pool} {k : Nat} : p.spread ≤ k ↔
    ∀ g n g' n', (g, n) ∈ p.loads → (g', n') ∈ p.loads → n ≤ n' + k := by
  have mem_snd : ∀ n, n ∈ p.loads.map Prod.snd ↔ ∃ g, (g, n) ∈ p.loads := by simp
  unfold spread
  cases most : (p.loads.map Prod.snd).max? with
  | none =>
    have nothing : p.loads = [] := by simpa using most
    simp [nothing]
  | some high =>
    obtain ⟨high_member, above⟩ := List.max?_eq_some_iff.1 most
    obtain ⟨low, fewest⟩ := Option.isSome_iff_exists.1 (List.isSome_min?_of_mem high_member)
    obtain ⟨low_member, below⟩ := List.min?_eq_some_iff.1 fewest
    rw [fewest, Option.getD_some, Option.getD_some]
    constructor
    · intro close g n g' n' member member'
      have upper := above n ((mem_snd n).2 ⟨g, member⟩)
      have lower := below n' ((mem_snd n').2 ⟨g', member'⟩)
      omega
    · intro close
      obtain ⟨g, high_member⟩ := (mem_snd high).1 high_member
      obtain ⟨g', low_member⟩ := (mem_snd low).1 low_member
      have apart := close g high g' low high_member low_member
      omega

/-- A request is passed on to a connection that is least busy, which admits it. -/
structure Served (p : Pool) (now : Nat) (x : Connection.Action) (es : List Event) (p' : Pool) (g : Nat)
    (c c' : Connection) : Prop where
  fewest : p.LeastBusy g
  found : p.connections[g]? = some c
  went : ∃ told, c.step now x = some (c', told) ∧ Connection.Admits c told c' ∧
    es = .relayed p.nextTicket g c.nextTicket :: told.map (.connection g)
  slots : p'.slots = p.slots
  connections : p'.connections = p.connections.set g c'

section Step

variable {p p' : Pool} {now : Nat} {a : Action} {x : Connection.Action} {es : List Event}

/-- A request is refused, which changes no load, or served. -/
theorem Served.of_step (coherent : Coherent p) (asks : a.passed? = some x)
    (taken : p.step now a = some (p', es)) :
    ((p.closed = true ∧ es = [.finished p.nextTicket (.error .closed)] ∨
        p.closed = false ∧ (∀ s, p.isLive s = false) ∧
          es = [.finished p.nextTicket (.error .noConnectionAvailable)]) ∧ p'.loads = p.loads) ∨
      p.closed = false ∧ ∃ g c c', Served p now x es p' g c c' := by
  obtain ⟨relays, takes⟩ := relay_of_passed asks p now
  cases Routing.of_relay takes (Option.some.inj (relays.symm.trans taken)) with
  | shut closed reached told =>
    rw [reached]
    exact .inl ⟨.inl ⟨closed, told⟩, rfl⟩
  | unserved isOpen dead reached told =>
    rw [reached]
    exact .inl ⟨.inr ⟨isOpen, dead, told⟩, rfl⟩
  | @served g c c' events rest isOpen fewest _ found went absorbs told =>
    obtain ⟨d, ⟨_, found', live⟩, _⟩ := id fewest
    obtain rfl : c = d := Option.some.inj (found.symm.trans found')
    have admits := Connection.Admits.of_passed (coherent g c found) live asks went
    rw [absorbs.eq_map admits.unfinished] at told
    exact .inr ⟨isOpen, g, c, c', fewest, found, ⟨events, went, admits, told⟩, absorbs.slots,
      absorbs.connections⟩

/-- The loads after a request are those before it, but for that of the connection that got it, which
was least busy and may have one more. -/
theorem Served.load_of_mem {g : Nat} {c c' : Connection} (served : Served p now x es p' g c c')
    {g' n' : Nat} (member : (g', n') ∈ p'.loads) : ∃ n, (g', n) ∈ p.loads ∧ n ≤ n' ∧
      (n' = n ∨ n' ≤ n + 1 ∧ ∀ g'' n'', (g'', n'') ∈ p.loads → n ≤ n'') := by
  obtain ⟨told, _, admits, _⟩ := served.went
  obtain ⟨d, ⟨⟨s, held⟩, there, live⟩, rfl⟩ := mem_loads.1 member
  rw [served.slots] at held
  rw [served.connections] at there
  by_cases mine : g' = g
  · subst mine
    obtain ⟨inside, _⟩ := List.getElem?_eq_some_iff.1 served.found
    rw [List.getElem?_set_self inside] at there
    obtain rfl := Option.some.inj there
    obtain ⟨e, available, fewest⟩ := served.fewest
    obtain rfl : c = e := Option.some.inj (served.found.symm.trans available.2.1)
    refine ⟨c.pending, mem_loads.2 ⟨c, available, rfl⟩, admits.pending_le, .inr ⟨admits.le_pending, ?_⟩⟩
    intro g'' n'' member''
    obtain ⟨e, available', rfl⟩ := mem_loads.1 member''
    exact fewest g'' e available'
  · rw [List.getElem?_set_ne (Ne.symm mine)] at there
    exact ⟨d.pending, mem_loads.2 ⟨d, ⟨⟨s, held⟩, there, live⟩, rfl⟩, Nat.le_refl _, .inl rfl⟩

/-- A request leaves the loads as far apart as they are, or apart by one. -/
theorem spread_le_of_passed (coherent : Coherent p) (asks : a.passed? = some x)
    (taken : p.step now a = some (p', es)) : p'.spread ≤ max p.spread 1 := by
  rcases Served.of_step coherent asks taken with ⟨_, same⟩ | ⟨_, g, c, c', served⟩
  · unfold spread
    rw [same]
    exact Nat.le_max_left _ _
  · rw [spread_le_iff]
    intro g₁ n₁' g₂ n₂' member₁ member₂
    obtain ⟨n₁, was₁, _, grown⟩ := served.load_of_mem member₁
    obtain ⟨n₂, was₂, le₂, _⟩ := served.load_of_mem member₂
    have apart := spread_le_iff.1 (Nat.le_refl p.spread) g₁ n₁ g₂ n₂ was₁ was₂
    rcases grown with same | ⟨more, fewest⟩
    · omega
    · have := fewest g₂ n₂ was₂
      omega

end Step

section Run

variable {options : Options} {start p p' : Pool} {began middle now : Nat}
  {moments older newer : List Moment} {m : Moment} {x : Connection.Action}

/-- Whose request was passed on does not end for want of a connection any more. -/
theorem not_unavailable_of_step {a : Action} {es : List Event} {t : Ticket}
    (made : Pool.new options = .ok start) (run : Run start began moments now p) (unasked : Unasked p t)
    (taken : p.step now a = some (p', es)) :
    Event.finished t (.error .noConnectionAvailable) ∉ es := by
  intro told
  obtain ⟨r, r_member, -, ended, seen, same⟩ := unasked.of_finished taken told
  have relays := Relays.of_run made run
  obtain ⟨_, c, found, below⟩ := relays.below r (relays.told r r_member)
  obtain ⟨q, _, _, ends⟩ := exists_party_of_finished (coherent_of_run made run) taken found below seen
  cases ended with
  | error e =>
    obtain rfl : Error.noConnectionAvailable = e := Except.error.inj same
    exact Connection.Party.ending?_ne_unavailable q _ _ ends
  | ok answer =>
    cases answer with
    | written => cases same
    | reply response =>
      rcases response.accepted_cases with ⟨_, accepted⟩ | ⟨_, _, _, accepted⟩
      · simp [outcomeOf, accepted, Except.map] at same
      · simp [outcomeOf, accepted, Except.map] at same

/-- Who has not asked is never told that no connection is available. -/
theorem not_unavailable_of_run {t : Ticket} (made : Pool.new options = .ok start)
    (past : Run start began older middle p) (unasked : Unasked p t) (run : Run p middle newer now p') :
    Event.finished t (.error .noConnectionAvailable) ∉ eventsOf newer := by
  intro told
  obtain ⟨front, m, back, rfl, seen⟩ := exists_moment_of_mem_eventsOf told
  obtain ⟨upto, taken, _⟩ := run.at_moment
  exact not_unavailable_of_step made (past.append upto) (unasked.of_serves (.of_run upto)) taken seen

/-- In every state of a run in which the pool is open, with any slots empty, dead or live and whatever
waits there, the next request is passed on to a live connection at which no more parties wait than at
any other, and which queues its frame; it is ended for want of a connection, now or ever, exactly if no
slot is live. Whatever else happens, each request leaves the loads of the live connections as far apart
as they are, or apart by one; so if nothing else changes the loads they stay within what they were, or
within one. -/
theorem requests_reach_the_least_busy (made : Pool.new options = .ok start)
    (past : Run start began older middle p) (isOpen : p.closed = false)
    (run : Run p middle newer now p') :
    (∀ m later x, newer = m :: later → m.action.passed? = some x →
      (Event.finished p.nextTicket (.error .noConnectionAvailable) ∈ eventsOf newer ↔
        ∀ s, p.isLive s = false) ∧
      ((∃ s, p.isLive s = true) → ∃ g c c', Served p m.instant x m.events m.after g c c' ∧
        ∃ frame, Event.connection g (.queued ⟨c.nextTicket, frame⟩) ∈ m.events)) ∧
    (∀ m ∈ newer, m.action.passed? ≠ none → m.after.spread ≤ max m.before.spread 1) ∧
    ((∀ m ∈ newer, m.action.passed? ≠ none ∨ m.after.loads = m.before.loads) →
      p'.spread ≤ max p.spread 1 ∧ ((∀ g n, (g, n) ∈ p.loads → n = 0) → p'.spread ≤ 1)) := by
  have one_step : ∀ m ∈ newer, m.action.passed? ≠ none → m.after.spread ≤ max m.before.spread 1 := by
    intro m member asks
    obtain ⟨x, asks⟩ := Option.ne_none_iff_exists'.1 asks
    obtain ⟨front, back, rfl⟩ := List.append_of_mem member
    obtain ⟨upto, taken, _⟩ := run.at_moment
    exact spread_le_of_passed (coherent_of_run made (past.append upto)) asks taken
  refine ⟨?_, one_step, ?_⟩
  · rintro m later x rfl asks
    have run : Run _ _ ([] ++ m :: later) _ _ := run
    obtain ⟨upto, taken, _⟩ := run.at_moment
    obtain rfl := upto.eq_start
    have begun : Run start began (older ++ m :: later) now p' := past.append run
    have coherent := coherent_of_run made past
    have later_silent := not_unavailable_of_run made
      ((past.append upto).append (.act .start taken)) (unasked_of_passed made begun asks)
      run.behind
    rw [eventsOf_cons, List.mem_append]
    rcases Served.of_step coherent asks taken with ⟨⟨closed, _⟩ | ⟨_, dead, told⟩, _⟩ | ⟨_, g, c, c', served⟩
    · rw [isOpen] at closed
      cases closed
    · refine ⟨iff_of_true (.inl ?_) dead, ?_⟩
      · rw [told]
        exact List.mem_singleton_self _
      · rintro ⟨s, live⟩
        rw [dead s] at live
        cases live
    · obtain ⟨d, ⟨⟨s, held⟩, found, live⟩, _⟩ := served.fewest
      have lives := isLive_iff.2 ⟨g, d, held, found, live⟩
      obtain ⟨told, went, admits, events⟩ := served.went
      have silent : Event.finished m.before.nextTicket (.error .noConnectionAvailable) ∉ m.events := by
        rw [events]
        simp
      refine ⟨iff_of_false (fun h => h.elim silent later_silent) fun dead => ?_, fun _ => ?_⟩
      · rw [dead s] at lives
        cases lives
      · obtain rfl : c = d := Option.some.inj (served.found.symm.trans found)
        obtain ⟨slot, born, own, own_run, _⟩ := exists_connection_run made past found
        have running : c.writer ≠ .ended := by
          intro ended
          rw [Connection.dead_of_ended own_run (.inr ended)] at live
          cases live
        obtain ⟨frame, queued⟩ := admits.queued running
        refine ⟨g, c, c', served, frame, ?_⟩
        rw [events]
        exact List.mem_cons_of_mem _ (List.mem_map_of_mem queued)
  · intro quiet
    have bounded : p'.spread ≤ max p.spread 1 := by
      clear isOpen
      induction run with
      | start => exact Nat.le_max_left _ _
      | rest _ _ _ ih => exact ih one_step quiet
      | @act moments instant q q' a es before taken ih =>
        have so_far := ih (fun m member => one_step m (List.mem_append_left _ member))
          fun m member => quiet m (List.mem_append_left _ member)
        rcases quiet _ List.mem_concat_self with asks | same
        · have next := one_step _ List.mem_concat_self asks
          dsimp only at next
          omega
        · have same : q'.loads = q.loads := same
          unfold spread at so_far ⊢
          rw [same]
          exact so_far
    refine ⟨bounded, fun idle => ?_⟩
    have zero : p.spread ≤ 0 := by
      rw [spread_le_iff]
      intro g n g' n' member _
      rw [idle g n member]
      exact Nat.zero_le _
    omega

/-- Connections are opened for three of ten slots, the second of them is lost, and five calls are made. -/
def fiveCalls : List (Nat × Action) := [
  (0, .fill 0 none), (0, .fill 3 none), (0, .fill 5 none), (1, .dialSucceeds 1 false),
  (1, .dialSucceeds 3 false), (1, .dialSucceeds 5 false), (2, .connection 1 (.receive .failure)),
  (3, .call ⟨"a"⟩ .ping (Duration.ofSeconds 2)), (3, .call ⟨"b"⟩ .ping (Duration.ofSeconds 2)),
  (3, .call ⟨"c"⟩ .ping (Duration.ofSeconds 2)), (3, .call ⟨"d"⟩ .ping (Duration.ofSeconds 2)),
  (3, .call ⟨"e"⟩ .ping (Duration.ofSeconds 2))]

/-- They are spread evenly over the other two. -/
theorem even_of_fiveCalls : ∃ start older middle p newer now p', Pool.new .default = .ok start ∧
    Run start 0 older middle p ∧ p.closed = false ∧ Run p middle newer now p' ∧
      p.loads = [(0, 0), (2, 0)] ∧ newer.length = 5 ∧ (∀ m ∈ newer, m.action.passed? ≠ none) ∧
      Event.finished p.nextTicket (.error .noConnectionAvailable) ∉ eventsOf newer ∧
      p'.spread ≤ 1 := by
  have played : (Pool.new .default).toOption.bind (fun start =>
      (History.play step start fiveCalls).map fun r => decide (
        (r.1[7]?.map fun m => (m.before.closed, m.before.isLive 5, m.before.loads)) =
          some (false, true, [(0, 0), (2, 0)]) ∧
        (r.1.drop 7).length = 5 ∧
        ((r.1.drop 7).all fun m => m.action.passed?.isSome) = true)) = some true := by decide
  have ordered : History.inOrder 0 fiveCalls = true := by decide
  obtain ⟨start, moments, p', made, run, computed⟩ := exists_run_of_script played ordered
  obtain ⟨before, five, calls⟩ := of_decide_eq_true computed
  obtain ⟨m, there, before⟩ := Option.map_eq_some_iff.1 before
  obtain ⟨isOpen, live, loads⟩ : m.before.closed = false ∧ m.before.isLive 5 = true ∧
    m.before.loads = [(0, 0), (2, 0)] := by simpa using before
  have there : moments[7]? = some m := there
  rw [drop_at there] at calls five
  have calls : ∀ m' ∈ m :: moments.drop 8, m'.action.passed? ≠ none := by
    intro m' member
    exact Option.isSome_iff_ne_none.1 (List.all_eq_true.1 calls m' member)
  rw [cut_at there] at run
  have past := run.at_moment.1
  obtain ⟨first, _, balanced⟩ := requests_reach_the_least_busy made past isOpen run.onwards
  obtain ⟨x, asks⟩ := Option.ne_none_iff_exists'.1 (calls m List.mem_cons_self)
  refine ⟨start, _, _, m.before, _, _, p', made, past, isOpen, run.onwards, loads, five, calls, ?_, ?_⟩
  · rw [(first m _ x rfl asks).1]
    intro dead
    rw [dead 5] at live
    cases live
  · refine (balanced fun m' member => .inl (calls m' member)).2 ?_
    intro g n member
    rw [loads] at member
    simp only [List.mem_cons, Prod.mk.injEq, List.not_mem_nil, or_false] at member
    omega

end Run

end Pool

end CallPool
