import CallPool.Proofs.Connection.FirstReply
import CallPool.Proofs.Connection.Progress

/-!
# The life of a call

A call has one outcome unless it is cancelled, and has it no later than its deadline. Each outcome
has its grounds in what happened before (`Grounds`): a reply takes a response that was handed over
and a frame that was written, a failed write takes a writer that refused or failed the frame, a lost
connection takes its loss or its end while the call was registered, and a timeout takes that the
deadline is there. A call that comes to a dead connection is refused and queues nothing. From the
moment on at which a call ends or is cancelled nobody waits under its ID, unless that ID belongs to
another party as well.

Main statement: `call_lifecycle`.
-/

set_option autoImplicit false

namespace CallPool

/-- A whole number of milliseconds that fits into 64 bits is told as it is. -/
theorem Duration.millis_of_whole {limit : Duration} {ms : Nat} (whole : limit.nanos = ms * 1000000)
    (small : ms < Nat.pow 2 64) : limit.millis = ms := by
  unfold millis
  rw [whole, Nat.mul_div_cancel ms (by decide)]
  omega

namespace Connection

/-- Whether another party is registered under the ID of a party. -/
def Shared (moments : List Moment) (t : Ticket) (id : CorrelationId) : Prop :=
  ∃ t', t' ≠ t ∧ Event.registered t' id ∈ eventsOf moments

/-- Whether the connection is lost or closed in a moment, while a party is registered. -/
def Severs (m : Moment) (t : Ticket) (id : CorrelationId) : Prop :=
  (id, t) ∈ m.before.registry.entries ∧ m.before.connected = true ∧ m.after.connected = false

/-- What must have happened for a call to end at an instant with an outcome, if its connection was
live when it came. -/
inductive Grounds (past : List Moment) (slot : Nat) (t : Ticket) (id : CorrelationId)
    (limit : Duration) (since now : Nat) : Outcome → Prop
  | answered {response : Response} {item : Outgoing}
      (delivered : Event.delivered t response ∈ eventsOf past) (mine : item.ticket = t)
      (wrote : Event.wrote item ∈ eventsOf past) :
      Grounds past slot t id limit since now (.ok (.reply response))
  /-- The writer refused the frame, or failed it. -/
  | unsent {m : Moment} {fault : WriteFault} (member : m ∈ past) (fails : Judges m t (.failed fault)) :
      Grounds past slot t id limit since now (.error (.send slot fault))
  | lost (why : (∃ m ∈ past, Severs m t id) ∨ Shared past t id) :
      Grounds past slot t id limit since now (.error (.connectionLost slot id))
  | timedOut (due : now = since + limit.nanos) :
      Grounds past slot t id limit since now (.error (.requestTimeout id limit.millis))

section Step

variable {c c' : Connection} {now : Nat} {a : Action} {es : List Event}

/-- A call is refused if the connection is dead, and registered if it is live. -/
theorem call_cases {id : CorrelationId} {command : Command} {limit : Duration}
    (taken : c.step now (.call id command limit) = some (c', es)) :
    (c.connected = false ∧ c' = { c with nextTicket := c.nextTicket + 1 } ∧
      es = [.finished c.nextTicket (.error .noConnectionAvailable)]) ∨
    (c.connected = true ∧ Event.registered c.nextTicket id ∈ es) := by
  cases Takes.of_step taken with
  | calls entered => exact .inr ⟨(Coherent.waits_of_register? entered).1, List.mem_cons_self⟩
  | refuses dead _ => exact .inl ⟨dead, rfl, rfl⟩
  | endsReader how => cases how
  | fails _ how => cases how
  | endsWriter how =>
    cases how with
    | spoiled _ how => cases how

/-- What delivers a response does not sever the connection. -/
theorem live_of_delivered {t : Ticket} {response : Response} (effect : Effect c now c' a es)
    (told : Event.delivered t response ∈ es) : c'.connected = c.connected := by
  cases effect with
  | traffic same _ _ _ => exact same.connected
  | closed _ => cases told
  | lost _ _ quiet _ =>
    rcases List.mem_append.1 told with early | last
    · exact absurd early (not_mem_of_isTraffic quiet rfl)
    · cases List.mem_singleton.1 last
  | registered _ _ _ _ quiet =>
    rcases List.mem_cons.1 told with first | rest
    · cases first
    · exact absurd rest (not_mem_of_isTraffic quiet rfl)
  | sent _ same _ => exact same.connected
  | refused _ same _ _ => rw [same]
  | left _ same _ => rw [same, (Coherent.waits_leave c _).1]
  | delivered _ _ _ same => exact same.connected

/-- What a call ends with says what became of its write and its reply. -/
theorem Party.of_ending?_call {p : Party} {slot since : Nat} {id : CorrelationId} {limit : Duration}
    {outcome : Outcome} (calls : p.purpose = .call id limit since)
    (ends : p.ending? slot now = some outcome) :
    (p.verdict = .written ∧ ∃ response, p.reply = .delivered response ∧
      outcome = .ok (.reply response)) ∨
    (p.verdict = .written ∧ p.reply = .abandoned ∧ outcome = .error (.connectionLost slot id)) ∨
    (∃ fault, p.verdict = .failed fault ∧ outcome = .error (.send slot fault)) ∨
    (p.outcome? slot = none ∧ since + limit.nanos ≤ now ∧
      outcome = .error (.requestTimeout id limit.millis)) := by
  rw [ending?_call calls] at ends
  cases known : p.outcome? slot with
  | none =>
    simp only [known] at ends
    split at ends
    · rename_i due
      exact .inr (.inr (.inr ⟨rfl, due, (Option.some.inj ends).symm⟩))
    · cases ends
  | some learnt =>
    simp only [known, Option.some.injEq] at ends
    subst ends
    unfold outcome? at known
    have own : p.purpose.id? = some id := by rw [calls]; rfl
    cases verdict : p.verdict with
    | awaited => simp [verdict] at known
    | failed fault =>
      simp only [verdict, Option.some.injEq] at known
      exact .inr (.inr (.inl ⟨fault, rfl, known.symm⟩))
    | written =>
      simp only [verdict, own] at known
      cases reply : p.reply with
      | awaited => simp [reply] at known
      | delivered response =>
        simp only [reply, Option.some.injEq] at known
        exact .inl ⟨rfl, response, rfl, known.symm⟩
      | abandoned =>
        simp only [reply, Option.some.injEq] at known
        exact .inr (.inl ⟨rfl, rfl, known.symm⟩)

end Step

variable {slot generation began now : Nat} {options : Options} {moments older newer : List Moment}
  {m : Moment} {id : CorrelationId} {command : Command} {limit : Duration} {c : Connection}

/-- Nobody is handed a response whose connection is severed while it waits. -/
theorem undelivered_of_severs {t : Ticket} {response : Response}
    (run : Run (Connection.opened slot generation options began) began moments now c)
    (member : m ∈ moments) (severs : Severs m t id) :
    Event.delivered t response ∉ eventsOf moments := by
  obtain ⟨before, behind, rfl⟩ := List.append_of_mem member
  obtain ⟨past, taken, middle, -, rest⟩ := run.at_moment
  obtain ⟨entry, live, dead⟩ := severs
  have coherent := Coherent.of_run past
  intro told
  rw [eventsOf_append, eventsOf_cons, List.mem_append, List.mem_append] at told
  rcases told with earlier | now | later
  · obtain ⟨w, w_member, rfl, _, awaits⟩ := (coherent.entry_iff id t).1 entry
    rw [((Account.of_run past).reply w w_member response).2 earlier] at awaits
    cases awaits
  · rw [live_of_delivered (.of_step taken) now, live] at dead
    cases dead
  · obtain ⟨mid, m', last, rfl, told⟩ := exists_moment_of_mem_eventsOf later
    obtain ⟨past', taken', -⟩ := rest.at_moment
    have coherent' : Coherent m'.before := (coherent.of_effect (.of_step taken)).along past'
    obtain ⟨-, inbound, key, -, -, -, found⟩ :=
      (Passage.of_step coherent' taken').delivered t response told
    rw [coherent'.empty_of_dead (dead_of_run past' dead).2] at found
    cases found

/-- A reply is given up when the connection is severed, or because of another party with the ID. -/
theorem severs_or_shared {t : Ticket}
    (run : Run (Connection.opened slot generation options began) began moments now c)
    (member : m ∈ moments) (entered : (id, t) ∈ m.before.registry.entries)
    (given_up : GivesUp m t id) : Severs m t id ∨ Shared moments t id := by
  obtain ⟨before, behind, rfl⟩ := List.append_of_mem member
  obtain ⟨past, taken, -⟩ := run.at_moment
  have coherent := Coherent.of_run past
  cases given_up with
  | severed live dead => exact .inl ⟨entered, live, dead⟩
  | @displaced t' registered =>
    obtain ⟨w, w_member, rfl, -⟩ := (coherent.entry_iff id t).1 entered
    obtain ⟨rfl, -⟩ := (Passage.of_step coherent taken).registered t' id registered
    exact .inr ⟨_, Nat.ne_of_gt (coherent.ticket_lt w w_member), mem_eventsOf.2 ⟨m, member, registered⟩⟩
  | @removed w w_member other waiting _ =>
    have registered := (Account.of_run past).registered w w_member id waiting
    refine .inr ⟨w.ticket, other, ?_⟩
    rw [eventsOf_append]
    exact List.mem_append_left _ registered

/-- The ticket of a party that joins is not given again. -/
theorem nextTicket_lt_of_joins
    (run : Run (Connection.opened slot generation options began) began (older ++ m :: newer) now c)
    (joins : m.action.Joins) : m.before.nextTicket < c.nextTicket := by
  obtain ⟨-, taken, middle, upto, behind⟩ := run.at_moment
  have next := nextTicket_of_joins joins taken
  have further := nextTicket_le_of_run behind (Coherent.of_run upto)
  rw [next] at further
  exact further

/-- The ticket of a call has been given once the call has been made. -/
theorem nextTicket_lt_of_call
    (run : Run (Connection.opened slot generation options began) began (older ++ m :: newer) now c)
    (calls : m.action = .call id command limit) : m.before.nextTicket < c.nextTicket :=
  nextTicket_lt_of_joins run (by rw [calls]; trivial)

/-- The party that a call adds is that of a call, for as long as it is there. -/
theorem purpose_of_call
    (run : Run (Connection.opened slot generation options began) began (older ++ m :: newer) now c)
    (calls : m.action = .call id command limit) :
    ∀ p ∈ c.parties, p.ticket = m.before.nextTicket → p.purpose = .call id limit m.instant := by
  obtain ⟨past, taken, middle, upto, behind⟩ := run.at_moment
  have coherent := Coherent.of_run past
  have posted := (Posted.opened slot generation options began).along (.opened _ _ _ _) past
  refine advance_along behind (Coherent.of_run upto) (posted.of_step coherent taken)
    (nextTicket_lt_of_call upto calls) ?_ fun _ _ _ goes_on same => goes_on.purpose.trans same
  intro p member mine
  rcases Advance.of_step coherent posted taken member with ⟨q, q_member, goes_on⟩ | comes
  · exact absurd (goes_on.ticket.symm.trans mine) (Nat.ne_of_lt (coherent.party_lt q_member))
  · have adds : m.action.purpose? m.instant = some p.purpose := comes.purpose
    rw [calls] at adds
    exact (Option.some.inj adds).symm

/-- Who ends with an outcome is a party that has come earlier and is ready to end with it. -/
theorem party_of_finished {t : Ticket} {outcome : Outcome}
    (run : Run (Connection.opened slot generation options began) began (older ++ m :: newer) now c)
    (below : t < m.before.nextTicket) (told : Event.finished t outcome ∈ m.events) :
    ∃ p ∈ m.before.parties, p.ticket = t ∧ p.ending? slot m.instant = some outcome := by
  obtain ⟨past, taken, -⟩ := run.at_moment
  have same_slot : m.before.slot = slot := congrArg Notice.slot (place_of_run past)
  rcases (Effect.of_step taken).of_finished told with ⟨same, _⟩ | ⟨p, member, mine, ends⟩
  · exact absurd same (Nat.ne_of_lt below)
  · rw [same_slot] at ends
    exact ⟨p, member, mine, ends⟩

/-- How the call that a moment starts has gone until now. -/
structure Lifecycle (slot : Nat) (older : List Moment) (m : Moment) (newer : List Moment) (now : Nat)
    (c : Connection) (id : CorrelationId) (limit : Duration) : Prop where
  /-- It has at most one outcome, and none if it is cancelled. -/
  once : (endings (older ++ m :: newer) m.before.nextTicket).length ≤ 1 ∧
    (Cancelled (older ++ m :: newer) m.before.nextTicket →
      endings (older ++ m :: newer) m.before.nextTicket = [])
  /-- It is unfinished as long as it has no outcome and is not cancelled, and that at no instant
  behind its deadline: there it has one outcome or is cancelled. -/
  unfinished_iff : (∃ p ∈ c.parties, p.ticket = m.before.nextTicket) ↔
    endings (older ++ m :: newer) m.before.nextTicket = [] ∧
      ¬ Cancelled (older ++ m :: newer) m.before.nextTicket
  in_time : (∃ p ∈ c.parties, p.ticket = m.before.nextTicket) → now ≤ m.instant + limit.nanos
  ends : m.instant + limit.nanos < now → ¬ Cancelled (older ++ m :: newer) m.before.nextTicket →
    ∃ ending, endings (older ++ m :: newer) m.before.nextTicket = [ending]
  /-- Once it is finished nobody waits under its ID, but for a party that shares the ID. -/
  removed : Dropped (older ++ m :: newer) m.before.nextTicket → id ∈ c.registry.ids →
    Shared (older ++ m :: newer) m.before.nextTicket id
  /-- It is refused exactly if the connection is dead when it comes, and queues no frame then. -/
  refused_iff : (∃ i, (i, .error .noConnectionAvailable) ∈
    endings (older ++ m :: newer) m.before.nextTicket) ↔ m.before.connected = false
  unqueued : m.before.connected = false → ∀ m' ∈ m :: newer, m.before.nextTicket ∉ m'.after.underway
  /-- Otherwise each outcome comes later and has its grounds in what came before it. -/
  grounded : m.before.connected = true →
    ∀ ending ∈ endings (older ++ m :: newer) m.before.nextTicket, ∃ mid m' later,
      newer = mid ++ m' :: later ∧ m'.instant = ending.1 ∧
        Grounds (older ++ m :: mid) slot m.before.nextTicket id limit m.instant ending.1 ending.2
  /-- It never gets its reply if the connection is severed while it is registered. -/
  unanswered : ∀ m' ∈ older ++ m :: newer, Severs m' m.before.nextTicket id → ∀ i answer,
    (i, .ok answer) ∉ endings (older ++ m :: newer) m.before.nextTicket

/-- What a call ends with that has been registered has its grounds. -/
theorem grounds_of_finished {m' : Moment} {mid later : List Moment} {outcome : Outcome}
    (run : PromptRun (Connection.opened slot generation options began) began
      (older ++ m :: (mid ++ m' :: later)) now c)
    (calls : m.action = .call id command limit)
    (told : Event.finished m.before.nextTicket outcome ∈ m'.events) :
    Grounds (older ++ m :: mid) slot m.before.nextTicket id limit m.instant m'.instant outcome := by
  have cut : older ++ m :: (mid ++ m' :: later) = (older ++ m :: mid) ++ m' :: later := by simp
  rw [cut] at run
  have prompt_past := run.at_moment.1
  have past := run_of_prompt prompt_past
  obtain ⟨p, member, mine, ends⟩ :=
    party_of_finished (run_of_prompt run) (nextTicket_lt_of_call past calls) told
  have is_call := purpose_of_call past calls p member mine
  obtain ⟨judged, settled⟩ := Career.of_run past p member
  rw [mine] at judged settled
  have judges : p.verdict ≠ .awaited →
      ∃ m₂ ∈ older ++ m :: mid, Judges m₂ m.before.nextTicket p.verdict := by
    intro decided
    rcases judged with awaits | ⟨_, waits⟩ | judges
    · exact absurd awaits decided
    · rw [is_call] at waits
      cases waits
    · exact judges
  rcases Party.of_ending?_call is_call ends with
    ⟨written, response, replied, rfl⟩ | ⟨written, abandoned, rfl⟩ | ⟨fault, failed, rfl⟩ |
      ⟨_, due, rfl⟩
  · have delivered := ((Account.of_run past).reply p.wait (List.mem_map_of_mem member) response).1 replied
    rw [show p.wait.ticket = m.before.nextTicket from mine] at delivered
    obtain ⟨m₂, m₂_member, writes⟩ := judges (by rw [written]; nofun)
    rw [written] at writes
    cases writes with
    | written same wrote => exact .answered delivered same (mem_eventsOf.2 ⟨m₂, m₂_member, wrote⟩)
  · rcases settled with awaits | ⟨m₂, m₂_member, settles⟩
    · rw [abandoned] at awaits
      cases awaits
    · rw [abandoned, is_call] at settles
      cases settles with
      | abandoned waiting entered given_up =>
        obtain rfl := Option.some.inj waiting
        refine .lost ((severs_or_shared past m₂_member entered given_up).imp_left ?_)
        exact fun severs => ⟨m₂, m₂_member, severs⟩
  · obtain ⟨m₂, m₂_member, fails⟩ := judges (by rw [failed]; nofun)
    rw [failed] at fails
    exact .unsent m₂_member fails
  · have in_time := le_deadline_of_run prompt_past p member (m.instant + limit.nanos)
      (by rw [is_call]; rfl)
    exact .timedOut (by omega)

/-- A frame that is not on its way out, and whose ticket has been given, never is. -/
theorem not_underway_of_run {t : Ticket} {start : Connection} (run : Run start began moments now c)
    (coherent : Coherent start) (below : t < start.nextTicket) (absent : t ∉ start.underway) :
    t ∉ c.underway ∧ ∀ m ∈ moments, t ∉ m.after.underway := by
  induction run with
  | start => exact ⟨absent, by simp⟩
  | rest _ _ _ ih => exact ih
  | act past taken ih =>
    have further := Nat.lt_of_lt_of_le below (nextTicket_le_of_run past coherent)
    have still : t ∉ _ := fun member =>
      ((Dispatch.of_step (coherent.along past) taken).of_underway member).elim ih.1
        fun comes => Nat.ne_of_lt further comes.1
    refine ⟨still, fun m member => ?_⟩
    rcases List.mem_append.1 member with older | last
    · exact ih.2 m older
    · rw [List.mem_singleton.1 last]
      exact still

/-- A call is unfinished as long as it has no outcome and is not cancelled. -/
theorem unfinished_of_call
    (run : Run (Connection.opened slot generation options began) began (older ++ m :: newer) now c)
    (calls : m.action = .call id command limit) :
    (∃ p ∈ c.parties, p.ticket = m.before.nextTicket) ↔
      ¬ Dropped (older ++ m :: newer) m.before.nextTicket := by
  have account := Account.of_run run
  obtain ⟨-, taken, -⟩ := run.at_moment
  rw [calls] at taken
  rcases call_cases taken with ⟨_, _, only⟩ | ⟨_, registered⟩
  · have dropped : Dropped (older ++ m :: newer) m.before.nextTicket := by
      refine ⟨m, by simp, .inl ⟨.error .noConnectionAvailable, ?_⟩⟩
      rw [only]
      exact List.mem_singleton_self _
    refine ⟨fun ⟨p, member, mine⟩ => ?_, fun stays => absurd dropped stays⟩
    exact absurd mine ((account.gone _ dropped).2 p.wait (List.mem_map_of_mem member))
  · exact exists_party_iff account (mem_eventsOf.2 ⟨m, by simp, registered⟩)

/-- A call that is registered has all its outcomes later. -/
theorem later_of_ending {ending : Nat × Outcome}
    (run : Run (Connection.opened slot generation options began) began (older ++ m :: newer) now c)
    (live : m.before.connected = true)
    (seen : ending ∈ endings (older ++ m :: newer) m.before.nextTicket) :
    ∃ mid m' later, newer = mid ++ m' :: later ∧ m'.instant = ending.1 ∧
      Event.finished m.before.nextTicket ending.2 ∈ m'.events := by
  obtain ⟨past, taken, -⟩ := run.at_moment
  obtain ⟨m', member, at_instant, told⟩ := mem_endings.1 seen
  rcases List.mem_append.1 member with earlier | here
  · have dropped : Dropped older m.before.nextTicket := ⟨m', earlier, .inl ⟨_, told⟩⟩
    exact absurd ((Account.of_run past).gone _ dropped).1 (Nat.lt_irrefl _)
  · rcases List.mem_cons.1 here with rfl | later
    · rcases (Effect.of_step taken).of_finished told with ⟨_, dead⟩ | ⟨p, p_member, mine, _⟩
      · rw [live] at dead
        cases dead
      · exact absurd mine (Nat.ne_of_lt ((Coherent.of_run past).party_lt p_member))
    · obtain ⟨mid, behind, rfl⟩ := List.append_of_mem later
      exact ⟨mid, m', behind, rfl, at_instant, told⟩

/-- Each outcome of a call that is registered comes later and has its grounds. -/
theorem grounds_of_ending
    (run : PromptRun (Connection.opened slot generation options began) began
      (older ++ m :: newer) now c)
    (calls : m.action = .call id command limit) (live : m.before.connected = true) :
    ∀ ending ∈ endings (older ++ m :: newer) m.before.nextTicket, ∃ mid m' later,
      newer = mid ++ m' :: later ∧ m'.instant = ending.1 ∧
        Grounds (older ++ m :: mid) slot m.before.nextTicket id limit m.instant ending.1 ending.2 := by
  intro ending seen
  obtain ⟨mid, m', later, rfl, at_instant, told⟩ := later_of_ending (run_of_prompt run) live seen
  refine ⟨mid, m', later, rfl, at_instant, ?_⟩
  rw [← at_instant]
  exact grounds_of_finished run calls told

/-- A call that comes to a dead connection is refused at once, and queues no frame then. -/
theorem refused_of_dead
    (run : Run (Connection.opened slot generation options began) began (older ++ m :: newer) now c)
    (calls : m.action = .call id command limit) (dead : m.before.connected = false) :
    (m.instant, .error .noConnectionAvailable) ∈ endings (older ++ m :: newer) m.before.nextTicket ∧
      m.after.underway = m.before.underway := by
  obtain ⟨-, taken, -⟩ := run.at_moment
  rw [calls] at taken
  rcases call_cases taken with ⟨_, same, only⟩ | ⟨live, _⟩
  · refine ⟨mem_endings.2 ⟨m, by simp, rfl, ?_⟩, by rw [same]; rfl⟩
    rw [only]
    exact List.mem_singleton_self _
  · rw [dead] at live
    cases live

/-- A call that comes to a dead connection never has a frame on its way out. -/
theorem unqueued_of_dead
    (run : Run (Connection.opened slot generation options began) began (older ++ m :: newer) now c)
    (calls : m.action = .call id command limit) (dead : m.before.connected = false) :
    ∀ m' ∈ m :: newer, m.before.nextTicket ∉ m'.after.underway := by
  obtain ⟨past, -, middle, upto, behind⟩ := run.at_moment
  have posted := (Posted.opened slot generation options began).along (.opened _ _ _ _) past
  have absent : m.before.nextTicket ∉ m.after.underway := by
    rw [(refused_of_dead run calls dead).2]
    exact fun member => Nat.lt_irrefl _ (posted.underway_lt _ member)
  intro m' member
  rcases List.mem_cons.1 member with rfl | later
  · exact absent
  · exact (not_underway_of_run behind (Coherent.of_run upto) (nextTicket_lt_of_call upto calls)
      absent).2 m' later

/-- Who is listed under an ID whose party is gone is another party with that ID. -/
theorem shared_of_dropped {t : Ticket}
    (run : Run (Connection.opened slot generation options began) began moments now c)
    (dropped : Dropped moments t) (listed : id ∈ c.registry.ids) : Shared moments t id := by
  have account := Account.of_run run
  obtain ⟨⟨_, t'⟩, entry, rfl⟩ := List.mem_map.1 listed
  obtain ⟨w, member, rfl, waiting, _⟩ := ((Coherent.of_run run).entry_iff _ t').1 entry
  exact ⟨w.ticket, (account.gone _ dropped).2 w member, account.registered w member _ waiting⟩

/-- A call whose connection is severed while it is registered never gets its reply. -/
theorem unanswered_of_severs {m' : Moment} {i : Nat} {answer : Answer}
    (run : PromptRun (Connection.opened slot generation options began) began
      (older ++ m :: newer) now c)
    (calls : m.action = .call id command limit) (member : m' ∈ older ++ m :: newer)
    (severs : Severs m' m.before.nextTicket id) :
    (i, .ok answer) ∉ endings (older ++ m :: newer) m.before.nextTicket := by
  intro seen
  have free := run_of_prompt run
  by_cases live : m.before.connected = true
  · obtain ⟨mid, m₂, later, rfl, _, grounds⟩ := grounds_of_ending run calls live _ seen
    have cut : older ++ m :: (mid ++ m₂ :: later) = (older ++ m :: mid) ++ m₂ :: later := by simp
    cases grounds with
    | answered delivered _ _ =>
      apply undelivered_of_severs free member severs
      rw [cut, eventsOf_append]
      exact List.mem_append_left _ delivered
  · -- A call that is refused has no other outcome.
    have refused := (refused_of_dead free calls (by simpa using live)).1
    obtain ⟨only, same⟩ := List.length_eq_one_iff.1
      (Nat.le_antisymm (endings_once free _).1 (List.length_pos_of_mem refused))
    rw [same, List.mem_singleton] at refused seen
    cases seen.trans refused.symm

/-- How a call goes, whatever happens in whatever order: `Lifecycle` lists it. A timeout is reported
in milliseconds, exactly if the limit is a whole number of them. The call does end, for a prompt run
can be carried on to any later instant by what the connection does by itself. -/
theorem call_lifecycle
    (run : PromptRun (Connection.opened slot generation options began) began
      (older ++ m :: newer) now c)
    (calls : m.action = .call id command limit) :
    Lifecycle slot older m newer now c id limit ∧
      (∀ ms < Nat.pow 2 64, limit.nanos = ms * 1000000 → limit.millis = ms) ∧
      (0 < options.pingPeriod.nanos → ∀ later, now ≤ later → ∃ further c',
        PromptRun (Connection.opened slot generation options began) began
          (older ++ m :: (newer ++ further)) later c' ∧ ByItself further) := by
  have free := run_of_prompt run
  have unfinished := unfinished_of_call free calls
  have grounded := grounds_of_ending run calls
  have in_time : (∃ p ∈ c.parties, p.ticket = m.before.nextTicket) →
      now ≤ m.instant + limit.nanos := by
    rintro ⟨p, member, mine⟩
    exact le_deadline_of_run run p member _ (by rw [purpose_of_call free calls p member mine]; rfl)
  refine ⟨⟨endings_once free _, ?_, in_time, ?_, shared_of_dropped free, ?_,
    unqueued_of_dead free calls, grounded, ?_⟩, ?_, ?_⟩
  · rw [unfinished, dropped_iff, not_or, not_not]
  · intro late not_cancelled
    have finished : Dropped (older ++ m :: newer) m.before.nextTicket := by
      by_contra stays
      have on_time := in_time (unfinished.2 stays)
      omega
    exact exists_ending free finished not_cancelled
  · constructor
    · rintro ⟨i, seen⟩
      by_contra live
      obtain ⟨_, _, _, _, _, grounds⟩ := grounded (by simpa using live) _ seen
      cases grounds
    · exact fun dead => ⟨m.instant, (refused_of_dead free calls dead).1⟩
  · exact fun m' member severs i answer => unanswered_of_severs run calls member severs
  · exact fun ms small whole => Duration.millis_of_whole whole small
  · intro period later le
    obtain ⟨further, c', carried, alone⟩ := carry_on (Coherent.of_run free)
      (by rw [options_of_run free]; exact period) le
    have together := run.append carried
    rw [List.append_assoc, List.cons_append] at together
    exact ⟨further, c', together, alone⟩

/-- A call whose reply comes in before its frame is written. -/
def earlyReply : List (Nat × Action) := [
  (0, .call ⟨"a"⟩ .ping (Duration.ofSeconds 2)), (0, .beginData),
  (5, .receive (.text "\x7b\"id\":\"a\"\x7d")), (7, .completeWrite), (7, .wake 0),
  (3000000000, .receive .ping)]

/-- It ends when its frame is written, and with the reply. -/
theorem lifecycle_of_earlyReply : ∃ m newer now c answer,
    PromptRun (Connection.opened 0 0 .default 0) 0 ([] ++ m :: newer) now c ∧
      m.action = .call ⟨"a"⟩ .ping (Duration.ofSeconds 2) ∧
      Lifecycle 0 [] m newer now c ⟨"a"⟩ (Duration.ofSeconds 2) ∧
      endings (m :: newer) m.before.nextTicket = [(7, .ok answer)] := by
  have played : ((History.play step (Connection.opened 0 0 .default 0) earlyReply).map fun r =>
      (endings r.1 0).map fun e => (e.1, e.2.toOption.isSome)) = some [(7, true)] := by decide
  obtain ⟨⟨moments, c⟩, run, facts⟩ := Option.map_eq_some_iff.1 played
  obtain ⟨m, newer, rfl, -, calls, before⟩ := History.eq_cons_of_play run
  have history : PromptRun (Connection.opened 0 0 .default 0) 0 ([] ++ m :: newer)
      (History.lastInstant 0 earlyReply) c := History.of_play_resting run (by decide)
  obtain ⟨⟨i, outcome⟩, only, shape⟩ := List.map_eq_singleton_iff.1 facts
  obtain ⟨rfl, is_ok⟩ := Prod.mk.inj shape
  cases outcome with
  | error _ => cases is_ok
  | ok answer =>
    refine ⟨m, newer, _, c, answer, history, calls, (call_lifecycle history calls).1, ?_⟩
    rw [before]
    exact only

end Connection

end CallPool
