import CallPool.Proofs.Message.Frames
import CallPool.Proofs.Pool.Boundary

/-!
# Echoes

A server that sends the frame of a call back has answered the call: read as a response, the frame has
the ID of the call, and carries no error. So if what a connection handed to the socket for an echo comes
in on it while the call waits, the call is handed just that response, and its caller ends with the
payload that it sent (`echo_of_comesBack`).

Main statement: `request_frames_decode`.
-/

set_option autoImplicit false

namespace CallPool

/-- A request is no answer to another call than its own, and refuses nothing. -/
theorem Request.reflected_accepts (r : Request) : r.reflected.Accepts := .inl rfl

/-- What is reflected of a request with an ID answers that ID, whoever else is registered. -/
theorem Request.reflected_answers {r : Request} {i : CorrelationId} (named : r.id = some i)
    (nonempty : i.text ≠ "") (registry : Registry) : r.reflected.Answers registry i :=
  ⟨nonempty, .inl named⟩

namespace Connection

/-- An inbound message whose content reads as a response is that response. -/
theorem Inbound.response?_of_content? {inbound : Inbound} {content : List UInt8} {response : Response}
    (carries : inbound.content? = some content) (read : Response.parse content = .ok response) :
    inbound.response? = some response := by
  cases inbound with
  | text _ =>
    obtain rfl := Option.some.inj carries
    exact congrArg Except.toOption read
  | binary _ =>
    obtain rfl := Option.some.inj carries
    exact congrArg Except.toOption read
  | _ => cases carries

section Frame

variable {slot generation began now : Nat} {options : Options} {older newer : List Moment} {m : Moment}
  {id : CorrelationId} {command : Command} {limit : Duration} {c c' : Connection} {item : Outgoing}

/-- A call queues its own frame. -/
theorem frame_of_queued {es : List Event} (taken : c.step now (.call id command limit) = some (c', es))
    (told : Event.queued item ∈ es) : item.frame = (Request.mk command (some id)).frame := by
  cases Takes.of_step taken with
  | calls entered =>
    unfold enqueue at told
    split at told
    · simp at told
    · obtain rfl : item = ⟨c.nextTicket, (Request.mk command (some id)).frame⟩ := by simpa using told
      rfl
  | refuses _ _ => simp at told
  | endsReader how => cases how
  | fails _ how => cases how
  | endsWriter how =>
    cases how with
    | spoiled _ how => cases how

/-- What is handed to the socket for a call is its own frame. -/
theorem frame_of_handed
    (run : Run (Connection.opened slot generation options began) began (older ++ m :: newer) now c)
    (calls : m.action = .call id command limit) (told : Event.handed item ∈ eventsOf (older ++ m :: newer))
    (mine : item.ticket = m.before.nextTicket) :
    item.frame = (Request.mk command (some id)).frame := by
  have queued : Event.queued item ∈ eventsOf (older ++ m :: newer) :=
    mem_queuedIn.1 ((Queued.of_run run).in_order.subset (mem_handedIn.2 told))
  obtain ⟨past, taken, _, upto, behind⟩ := run.at_moment
  rw [eventsOf_append, eventsOf_cons, List.mem_append, List.mem_append] at queued
  -- Tickets are given in order, so that only the call itself can have queued a frame with this one.
  rcases queued with earlier | here | later
  · have below := (Queued.of_run past).tickets_lt item (mem_queuedIn.2 earlier)
    exact absurd mine (Nat.ne_of_lt below)
  · rw [calls] at taken
    exact frame_of_queued taken here
  · obtain ⟨front, m', back, rfl, seen⟩ := exists_moment_of_mem_eventsOf later
    obtain ⟨middle, taken', _⟩ := behind.at_moment
    have further := nextTicket_le_of_run middle (Coherent.of_run upto)
    have given : m.after.nextTicket = m.before.nextTicket + 1 := by
      rw [calls] at taken
      exact nextTicket_of_joins (a := .call id command limit) trivial taken
    rw [((Flow.of_step taken').of_queued seen).2.1] at mine
    rw [given, mine] at further
    exact absurd further (Nat.not_succ_le_self _)

end Frame

end Connection

namespace Pool

/-- In a run of a pool an echo is asked for and passed on to a connection, and later, while the call
waits, what the connection handed to the socket for it comes in there. -/
structure ComesBack (older : List Moment) (m : Moment) (between : List Moment) (m' : Moment)
    (payload : Json.Value) (id : CorrelationId) (g : Nat) (party : Ticket) : Prop where
  asked : ∃ limit, m.action = .call id (Client.Ask.echo payload).command limit
  relayed : Event.relayed m.before.nextTicket g party ∈ m.events
  reflected : ∃ inbound item, m'.action = .connection g (.receive inbound) ∧
    inbound.content? = some item.frame ∧ item.ticket = party ∧
      Event.connection g (.handed item) ∈ eventsOf (older ++ m :: between)
  waiting : ∃ c, m'.before.connections[g]? = some c ∧ c.registry.find? id = some party

/-- Whether the frame of a party was written as a whole. -/
def Written (past : List Event) (g : Nat) (party : Ticket) : Prop :=
  ∃ item, item.ticket = party ∧ Event.connection g (.wrote item) ∈ past

/-- What becomes of an echo whose frame comes back in a moment `m'`, and what its caller gets. -/
structure Echoes (older : List Moment) (m' : Moment) (newer : List Moment) (now : Nat) (p : Pool)
    (payload : Json.Value) (t : Ticket) (g : Nat) (party : Ticket) (response : Response) : Prop where
  /-- The call is handed the response, and nothing else happens. -/
  handed : m'.events = [.connection g (.delivered party response)]
  /-- However the call ends after its frame was written, the client returns the payload. -/
  returns : ∀ mid last later outcome, newer = mid ++ last :: later →
    Written (eventsOf (older ++ m' :: mid)) g party → Event.finished t outcome ∈ last.events →
      (Client.Ask.echo payload).conclude outcome = .ok (.payload payload)
  /-- And if it has not ended by then, it can do so at once. -/
  wakes : Written (eventsOf (older ++ m' :: newer)) g party →
    (∃ c, p.connections[g]? = some c ∧ ∃ q ∈ c.parties, q.ticket = party) →
      ∃ p' outcome, p.step now (.connection g (.wake party)) =
          some (p', [.connection g (.finished party (.ok (.reply response))), .finished t outcome]) ∧
        (Client.Ask.echo payload).conclude outcome = .ok (.payload payload)

section Run

variable {options : Options} {start p p' : Pool} {began now : Nat} {older between newer : List Moment}
  {m m' : Moment} {payload : Json.Value} {id : CorrelationId} {command : Command} {limit : Duration}
  {g : Nat} {party : Ticket}

/-- A call that was passed on is made in the run of its connection, as the party that it was told. -/
theorem exists_call_run_of_relayed (made : Pool.new options = .ok start)
    (run : Run start began (older ++ m :: newer) now p) (calls : m.action = .call id command limit)
    (relayed : Event.relayed m.before.nextTicket g party ∈ m.events) :
    ∃ c slot born own x own',
      Connection.Run (Connection.opened slot g start.options born) born (own ++ x :: own') now c ∧
      p.connections[g]? = some c ∧ x.action = .call id command limit ∧ x.before.nextTicket = party ∧
      eventsOf (own ++ x :: own') = toldOf g (eventsOf (older ++ m :: newer)) := by
  rcases exists_call_run made run calls with
    ⟨_, _, _, refused⟩ | ⟨g', c, slot, born, own, x, own', own_run, found, called, relayed', same⟩
  · rw [refused] at relayed
    cases List.mem_singleton.1 relayed
  · have told : ∀ r : Relay, Event.relayed r.ticket r.generation r.party ∈ m.events →
        r ∈ relayedIn (eventsOf (older ++ m :: newer)) :=
      fun r seen => mem_relayedIn.2 (mem_eventsOf.2 ⟨m, by simp, seen⟩)
    have one : (⟨m.before.nextTicket, g', x.before.nextTicket⟩ : Relay) =
        ⟨m.before.nextTicket, g, party⟩ :=
      (Relays.of_run made run).eq_of_ticket (told _ relayed') (told _ relayed) rfl
    obtain ⟨_, rfl, rfl⟩ := Relay.mk.inj one
    exact ⟨c, slot, born, own, x, own', own_run, found, called, rfl, same⟩

/-- The client gets the payload of an accepted response. -/
theorem conclude_echo {response : Response} (accepts : response.Accepts) (payload : Json.Value) :
    (Client.Ask.echo payload).conclude (outcomeOf (.ok (.reply response))) =
      .ok (.payload response.payload) := by
  simp [outcomeOf, accepts.accepted_eq, Client.Ask.conclude, Client.Ask.answer, Response.result, Except.map]

/-- A call whose frame comes back is handed it. -/
theorem handed_of_comesBack {response : Response} (made : Pool.new options = .ok start)
    (run : Run start began (older ++ m :: (between ++ m' :: newer)) now p)
    (back : ComesBack older m between m' payload id g party)
    (read : Response.parse (Request.mk (.echo payload) (some id)).frame = .ok response)
    (answers : ∀ registry, response.Answers registry id) :
    m'.events = [.connection g (.delivered party response)] := by
  obtain ⟨limit, calls⟩ := back.asked
  obtain ⟨inbound, item, receives, carries, mine, handed⟩ := back.reflected
  obtain ⟨c, found, waiting⟩ := back.waiting
  rw [← List.cons_append, ← List.append_assoc] at run
  obtain ⟨past, taken, _⟩ := run.at_moment
  obtain ⟨_, _, _, own, x, own', own_run, _, called, ticket, same⟩ :=
    exists_call_run_of_relayed made past calls back.relayed
  rw [← mem_toldOf, ← same] at handed
  have frame := Connection.frame_of_handed own_run called handed (mine.trans ticket.symm)
  rw [frame] at carries
  rw [receives] at taken
  obtain ⟨d, d', events, found', went, absorbs⟩ :=
    exists_of_stepConnection (g := g) (a := .receive inbound) taken
  obtain rfl : c = d := Option.some.inj (found.symm.trans found')
  obtain rfl := Connection.delivered_of_receive went (Connection.Inbound.response?_of_content? carries read)
    (answers c.registry) waiting
  exact absorbs.eq_map (by simp)

/-- A party that can end does so when it is woken, and its caller is told. -/
theorem step_wake {moments : List Moment} {c : Connection} {q : Connection.Party} {t : Ticket}
    {ended : Connection.Outcome} (relays : Relays moments p) (found : p.connections[g]? = some c)
    (there : c.party? party = some q) (ends : q.ending? c.slot now = some ended)
    (known : (⟨t, g, party⟩ : Relay) ∈ p.relays) :
    ∃ p', p.step now (.connection g (.wake party)) =
      some (p', [.connection g (.finished party ended), .finished t (outcomeOf ended)]) := by
  have asked : p.relays.find? (fun r => r.generation = g ∧ r.party = party) = some ⟨t, g, party⟩ := by
    have one_there : (p.relays.find? fun r => r.generation = g ∧ r.party = party).isSome = true :=
      List.find?_isSome.2 ⟨_, known, by simp⟩
    obtain ⟨r, first⟩ := Option.isSome_iff_exists.1 one_there
    have mine : r.generation = g ∧ r.party = party := by simpa using List.find?_some first
    rw [first, relays.eq_of_party (relays.told r (List.mem_of_find?_eq_some first))
      (relays.told _ known) mine.1 mine.2]
  refine ⟨{ p.setConnection g (c.leave q) with
    relays := p.relays.filter fun r => r.ticket ≠ t }, ?_⟩
  simp only [step, startsParty, Bool.false_eq_true, if_false, stepConnection, found, Connection.step, there,
    ends, Option.bind_eq_bind, Option.bind_some, absorbAll, absorb, setConnection, asked, List.append_nil]

/-- A call that is handed a response has been answered with it once its frame was written. -/
theorem answered_of_written {response : Response} (mid : List Moment)
    (handed : m'.events = [.connection g (.delivered party response)])
    (written : Written (eventsOf ((older ++ m :: between) ++ m' :: mid)) g party) :
    Connection.Answered (toldOf g (eventsOf (older ++ m :: (between ++ m' :: mid)))) party response := by
  obtain ⟨item, mine, wrote⟩ := written
  rw [List.append_assoc, List.cons_append] at wrote
  refine ⟨mem_toldOf.2 (mem_eventsOf.2 ⟨m', by simp, ?_⟩), item, mine, mem_toldOf.2 wrote⟩
  rw [handed]
  exact List.mem_singleton_self _

/-- A call that was answered can be woken at any time, and its caller ends with the answer. -/
theorem step_wake_of_answered {c : Connection} {q : Connection.Party} {response : Response}
    (made : Pool.new options = .ok start) (run : Run start began (older ++ m :: newer) now p)
    (calls : m.action = .call id command limit)
    (relayed : Event.relayed m.before.nextTicket g q.ticket ∈ m.events)
    (found : p.connections[g]? = some c) (member : q ∈ c.parties)
    (answered : Connection.Answered (toldOf g (eventsOf (older ++ m :: newer))) q.ticket response) :
    ∃ p', p.step now (.connection g (.wake q.ticket)) =
      some (p', [.connection g (.finished q.ticket (.ok (.reply response))),
        .finished m.before.nextTicket (outcomeOf (.ok (.reply response)))]) := by
  have relays := Relays.of_run made run
  obtain ⟨d, slot, born, own, x, own', own_run, found', called, ticket, same⟩ :=
    exists_call_run_of_relayed made run calls relayed
  obtain rfl : c = d := Option.some.inj (found.symm.trans found')
  have ends : q.ending? c.slot now = some (.ok (.reply response)) := by
    rw [show c.slot = slot from congrArg Notice.slot (Connection.place_of_run own_run)]
    exact Connection.ending?_of_answered own_run called member ticket.symm (same ▸ answered)
  obtain ⟨r, known, generation, r_party⟩ := relays.carried g c found q.wait (List.mem_map_of_mem member)
  obtain rfl : r = ⟨m.before.nextTicket, g, q.ticket⟩ :=
    relays.eq_of_party (relays.told r known)
      (mem_relayedIn.2 (mem_eventsOf.2 ⟨m, by simp, relayed⟩)) generation r_party
  exact step_wake relays found (Connection.party?_of_mem (Connection.Coherent.of_run own_run) member) ends known

/-- What comes of an echo whose frame comes back. -/
theorem echo_of_comesBack {response : Response} (made : Pool.new options = .ok start)
    (run : Run start began (older ++ m :: (between ++ m' :: newer)) now p)
    (back : ComesBack older m between m' payload id g party)
    (read : Response.parse (Request.mk (.echo payload) (some id)).frame = .ok response)
    (answers : ∀ registry, response.Answers registry id) (accepts : response.Accepts)
    (carries : response.payload = payload) :
    Echoes (older ++ m :: between) m' newer now p payload m.before.nextTicket g party response := by
  have handed := handed_of_comesBack made run back read answers
  obtain ⟨limit, calls⟩ := back.asked
  have concluded := conclude_echo accepts payload
  rw [carries] at concluded
  refine ⟨handed, ?_, ?_⟩
  · rintro mid last later outcome rfl written told
    rw [show older ++ m :: (between ++ m' :: (mid ++ last :: later)) =
      (older ++ m :: (between ++ m' :: mid)) ++ last :: later by simp] at run
    obtain ⟨past, taken, _⟩ := run.at_moment
    have relayed : Event.relayed m.before.nextTicket g party ∈
        eventsOf (older ++ m :: (between ++ m' :: mid)) := mem_eventsOf.2 ⟨m, by simp, back.relayed⟩
    rw [((ends_of_call made past calls taken told).reply_iff response).2
      ⟨⟨g, party, relayed, answered_of_written mid handed written⟩, accepts⟩]
    simpa [outcomeOf, accepts.accepted_eq, Except.map] using concluded
  · rintro written ⟨c, found, q, member, rfl⟩
    obtain ⟨p', wakes⟩ := step_wake_of_answered made run calls back.relayed found member
      (answered_of_written newer handed written)
    exact ⟨p', _, wakes, concluded⟩

end Run

end Pool

/-- A generated ID is never empty. -/
theorem CorrelationId.text_ofSegments_ne_empty (random : RandomBytes) (nanos : Nat) (sequence : UInt64) :
    (ofSegments random nanos sequence).text ≠ "" := by
  intro empty
  have shown := congrArg String.toList empty
  simp [ofSegments] at shown

/-- The text of a frame is read as the command that was sent, and as a response with the kind of the
command, what it carries, the ID if one was given, and nothing else. So if the frame of an echo comes
back while the call waits under its ID, the call is handed the payload that was sent, and the client
returns it. -/
theorem request_frames_decode (command : Command) (id : Option CorrelationId)
    (normal : command.IsNormal) (back : command.FloatsReadBack)
    (room : (Request.mk command id).doc.depth ≤ Json.nestingLimit) :
    Command.parse (Request.mk command id).frame = .ok command ∧
      Response.parse (Request.mk command id).frame =
        .ok ⟨command.messageType, command.payloadValue, id, none, none, none⟩ ∧
      ∀ payload i, command = .echo payload → id = some i → i.text ≠ "" →
        ∀ (options : Options) (start p : Pool) (began now : Nat) (older between newer : List Pool.Moment)
          (m m' : Pool.Moment) (g : Nat) (party : Ticket), Pool.new options = .ok start →
          Pool.Run start began (older ++ m :: (between ++ m' :: newer)) now p →
          Pool.ComesBack older m between m' payload i g party →
            Pool.Echoes (older ++ m :: between) m' newer now p payload m.before.nextTicket g party
              ⟨command.messageType, payload, some i, none, none, none⟩ := by
  have reflected := Request.parse_response normal back room
  refine ⟨Request.parse_command normal back room, reflected, ?_⟩
  rintro payload i rfl rfl nonempty options start p began now older between newer m m' g party made run
    comes_back
  exact Pool.echo_of_comesBack made run comes_back reflected
    (Request.reflected_answers (r := ⟨.echo payload, some i⟩) rfl nonempty)
    (Request.reflected_accepts ⟨.echo payload, some i⟩) rfl

namespace Pool

/-- An ID as it is generated. -/
def mirroredId : CorrelationId := .ofSegments (Vector.replicate 8 0) 0 0

/-- A payload with a list and a floating-point number. -/
def mirroredPayload : Json.Value := .object [("list", .list [.null, .number (.negative ⟨4, by decide⟩)]),
  ("tenth", .number (.float tenth))]

/-- The text of the frame in which the payload is sent. -/
def mirroredFrame : List UInt8 := (Request.mk (.echo mirroredPayload) (some mirroredId)).frame

/-- The server sends the frame of an echo back, even before the write of it is done. -/
def mirroredEcho : List (Nat × Action) := [
  (0, .fill 0 none), (1, .dialSucceeds 1 false),
  (2, .call mirroredId (.echo mirroredPayload) (Duration.ofSeconds 30)), (3, .connection 0 .beginData),
  (4, .connection 0 (.receive (.binary mirroredFrame))), (5, .connection 0 .completeWrite)]

/-- In the run of the script the echo is written, and its reflection comes back to the one who asked, who
still waits. -/
theorem comesBack_of_mirroredEcho : ∃ start older m between m' newer p c,
    Pool.new .default = .ok start ∧ Run start 0 (older ++ m :: (between ++ m' :: newer)) 5 p ∧
      m.before.nextTicket = 2 ∧ ComesBack older m between m' mirroredPayload mirroredId 0 0 ∧
      Written (eventsOf ((older ++ m :: between) ++ m' :: newer)) 0 0 ∧
      p.connections[0]? = some c ∧ ∃ q ∈ c.parties, q.ticket = 0 := by
  have played : (Pool.new .default).toOption.bind (fun start =>
      (History.play step start mirroredEcho).map fun r => decide (
        (r.1[2]?.map fun m => (m.before.nextTicket, m.events.filterMap Event.relay?)) =
          some (2, [⟨2, 0, 0⟩]) ∧
        (r.1[4]?.map fun m => m.before.connections[0]?.map fun c => c.registry.find? mirroredId) =
          some (some (some 0)) ∧
        Connection.handedIn (toldOf 0 (eventsOf ((r.1.drop 3).take 1))) = [⟨0, mirroredFrame⟩] ∧
        ((toldOf 0 (eventsOf ((r.1.drop 3).drop 2))).any fun e => match e with
          | .wrote item => item.ticket = 0
          | _ => false) = true ∧
        (r.2.connections[0]?.map fun c => c.parties.map fun q => q.ticket) = some [0])) = some true := by
    decide +kernel
  obtain ⟨start, moments, p, made, went, computed⟩ := exists_play_of_script played
  obtain ⟨passed, waits, handed, wrote, there⟩ := of_decide_eq_true computed
  obtain ⟨m, m_there, passed⟩ := Option.map_eq_some_iff.1 passed
  obtain ⟨given, passed⟩ := Prod.mk.inj passed
  obtain ⟨m', m'_there, waits⟩ := Option.map_eq_some_iff.1 waits
  change moments[2]? = some m at m_there
  change moments[2 + 1 + 1]? = some m' at m'_there
  obtain ⟨c, found, tickets⟩ := Option.map_eq_some_iff.1 there
  have run : Run start 0 moments 5 p := History.of_play went (by decide)
  rw [cut_at_both m_there m'_there] at run
  refine ⟨start, _, m, _, m', _, p, c, made, run, given, ⟨⟨Duration.ofSeconds 30, ?_⟩, ?_, ?_, ?_⟩, ?_,
    found, ?_⟩
  · exact (History.moment_of_play went m_there rfl).2
  · rw [given]
    refine mem_relayedIn (r := ⟨2, 0, 0⟩).1 ?_
    rw [relayedIn, passed]
    exact List.mem_singleton_self _
  · refine ⟨.binary mirroredFrame, ⟨0, mirroredFrame⟩, ?_, rfl, rfl, ?_⟩
    · exact (History.moment_of_play went m'_there rfl).2
    · have listed := List.mem_singleton_self (⟨0, mirroredFrame⟩ : Connection.Outgoing)
      rw [← handed, Connection.mem_handedIn, mem_toldOf] at listed
      simp [listed]
  · exact Option.map_eq_some_iff.1 waits
  · obtain ⟨e, told, shows⟩ := List.any_eq_true.1 wrote
    rw [mem_toldOf] at told
    cases e with
    | wrote item =>
      refine ⟨item, of_decide_eq_true shows, ?_⟩
      rw [eventsOf_append, eventsOf_cons, List.mem_append, List.mem_append]
      exact .inr (.inr told)
    | _ => cases shows
  · have member : 0 ∈ c.parties.map fun q => q.ticket := by
      rw [tickets]
      exact List.mem_singleton_self _
    exact List.mem_map.1 member

end Pool

/-- The call is handed the payload, and ends with it. -/
theorem decodes_of_mirroredEcho :
    Command.parse Pool.mirroredFrame = .ok (.echo Pool.mirroredPayload) ∧
      ∃ start older m between m' newer p q outcome, Pool.new .default = .ok start ∧
        Pool.Run start 0 (older ++ m :: (between ++ m' :: newer)) 5 p ∧
        Pool.ComesBack older m between m' Pool.mirroredPayload Pool.mirroredId 0 0 ∧
        p.step 5 (.connection 0 (.wake 0)) = some (q, [
          .connection 0 (.finished 0 (.ok (.reply
            ⟨"echo", Pool.mirroredPayload, some Pool.mirroredId, none, none, none⟩))),
          .finished 2 outcome]) ∧
        (Client.Ask.echo Pool.mirroredPayload).conclude outcome = .ok (.payload Pool.mirroredPayload) := by
  have normal : (Command.echo Pool.mirroredPayload).IsNormal := by
    unfold Command.IsNormal
    rfl
  have back : (Command.echo Pool.mirroredPayload).FloatsReadBack := by
    simp only [Command.FloatsReadBack, Pool.mirroredPayload, Json.Value.FloatsReadBack,
      Json.FieldsReadBack, Json.ItemsReadBack, reduceCtorEq, false_implies, implies_true, true_and, and_true,
      Json.Number.float.injEq, forall_eq']
    rfl
  obtain ⟨command, _, echoes⟩ := request_frames_decode (.echo Pool.mirroredPayload)
    (some Pool.mirroredId) normal back (by decide)
  obtain ⟨start, older, m, between, m', newer, p, c, made, run, given, comes_back, written, there⟩ :=
    Pool.comesBack_of_mirroredEcho
  have echo := echoes _ _ rfl rfl (CorrelationId.text_ofSegments_ne_empty _ _ _) .default start p 0 5
    older between newer m m' 0 0 made run comes_back
  obtain ⟨q, outcome, wakes, concludes⟩ := echo.wakes written ⟨c, there⟩
  rw [given] at wakes
  exact ⟨command, start, older, m, between, m', newer, p, q, outcome, made, run, comes_back, wakes, concludes⟩

end CallPool
