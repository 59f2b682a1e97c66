import CallPool.Proofs.Connection.FirstReply
import CallPool.Proofs.Pool.Relays

/-!
# No reply crosses over

A response that comes in on a connection of a pool is handed to at most one call, and that call was
passed on to the same connection before, is still under way, and has been handed no other response.
The response answers the ID of the call, and is the first that does so since the call was registered.
What a caller gets as its reply is what its call was handed.
-/

set_option autoImplicit false

namespace CallPool.Pool

/-- The party and the response, if an event tells that one was handed the other. -/
def Event.handover? : Event → Option ((Nat × Ticket) × Response)
  | .connection g (.delivered party response) => some ((g, party), response)
  | _ => none

/-- Which parties were handed which responses, in order. -/
def handoversIn (es : List Event) : List ((Nat × Ticket) × Response) := es.filterMap Event.handover?

/-- A handover is one that a connection tells of. -/
theorem mem_handoversIn {g : Nat} {party : Ticket} {response : Response} {es : List Event} :
    ((g, party), response) ∈ handoversIn es ↔ Event.connection g (.delivered party response) ∈ es := by
  unfold handoversIn
  rw [List.mem_filterMap]
  constructor
  · rintro ⟨e, member, same⟩
    unfold Event.handover? at same
    split at same
    · cases same
      exact member
    · cases same
  · intro member
    exact ⟨_, member, rfl⟩

variable {p p' : Pool} {now : Nat} {a : Action} {es : List Event} {g : Nat} {party : Ticket}
  {response : Response}

/-- A response is handed over only when a frame comes in on the connection. -/
theorem exists_receive_of_handover (taken : p.step now a = some (p', es))
    (told : Event.connection g (.delivered party response) ∈ es) :
    ∃ inbound, a = .connection g (.receive inbound) := by
  have told' : Connection.Event.delivered party response ∈ toldOf g es := mem_toldOf.2 told
  have caused : ∃ inbound, a.Causes g (.receive inbound) := by
    have received : ∀ {c c' : Connection} {own : List Connection.Moment} {began : Nat},
        Connection.Run c began own now c' → (∀ m ∈ own, a.Causes g m.action) →
          Connection.Event.delivered party response ∈ eventsOf own →
            ∃ inbound, a.Causes g (.receive inbound) := by
      intro c c' own began run causes told
      obtain ⟨older, m, newer, rfl, seen⟩ := exists_moment_of_mem_eventsOf told
      obtain ⟨_, went, _⟩ := run.at_moment
      obtain ⟨inbound, receives⟩ := Connection.receives_of_delivered went seen
      exact ⟨inbound, receives ▸ causes m (by simp)⟩
    have course := (Follows.of_step taken).course g
    generalize p.connections[g]? = x at course
    generalize p'.connections[g]? = x' at course
    generalize toldOf g es = told at course told'
    cases course with
    | absent => cases told'
    | opens run causes => exact received run causes told'
    | goesOn run causes => exact received run causes told'
  obtain ⟨inbound, own | ⟨asked, _⟩ | asked⟩ := caused
  · cases own
  · exact ⟨inbound, asked⟩
  · cases a <;> cases asked

variable {options : Options} {start : Pool} {began : Nat} {older moments : List Moment}

/-- A response that is handed over in a run is a delivery in the run of its connection. -/
theorem exists_delivery (made : Pool.new options = .ok start) (past : Run start began older now p)
    (taken : p.step now a = some (p', es))
    (told : Event.connection g (.delivered party response) ∈ es) :
    ∃ inbound c id slot born own, a = .connection g (.receive inbound) ∧
      inbound.response? = some response ∧ p.connections[g]? = some c ∧
      Connection.Run (Connection.opened slot g start.options born) born own now c ∧
      eventsOf own = toldOf g (eventsOf older) ∧
      Connection.Delivery own c (.receive inbound) [.delivered party response] party response id ∧
      es = [.connection g (.delivered party response)] := by
  obtain ⟨inbound, rfl⟩ := exists_receive_of_handover taken told
  simp only [step, startsParty, Bool.false_eq_true, if_false] at taken
  obtain ⟨c, c', events, found, went, absorbs⟩ := exists_of_stepConnection taken
  obtain ⟨slot, born, own, run, told_before⟩ := exists_connection_run made past found
  rw [← mem_toldOf, absorbs.told] at told
  obtain ⟨id, delivery⟩ := Connection.Delivery.of_run run went told
  obtain ⟨inbound', same, read⟩ := delivery.read
  cases same
  have only := delivery.only
  subst only
  exact ⟨inbound, c, id, slot, born, own, rfl, read, found, run, told_before, delivery,
    absorbs.eq_map (by simp)⟩

/-- An action hands over one response at most. -/
theorem length_handoversIn_le (made : Pool.new options = .ok start)
    (past : Run start began older now p) (taken : p.step now a = some (p', es)) :
    (handoversIn es).length ≤ 1 := by
  cases handed : handoversIn es with
  | nil => exact Nat.zero_le _
  | cons d rest =>
    obtain ⟨⟨g, party⟩, response⟩ := d
    have told : Event.connection g (.delivered party response) ∈ es := by
      rw [← mem_handoversIn, handed]
      exact List.mem_cons_self
    obtain ⟨_, _, _, _, _, _, _, _, _, _, _, _, rfl⟩ := exists_delivery made past taken told
    rw [← handed]
    exact Nat.le_refl _

/-- In every run each call is handed one response at most. -/
theorem nodup_handoversIn (made : Pool.new options = .ok start) (run : Run start began moments now p) :
    ((handoversIn (eventsOf moments)).map Prod.fst).Nodup := by
  induction run with
  | start => exact List.nodup_nil
  | rest _ _ _ ih => exact ih
  | @act older now p p' a es past taken once =>
    have all : handoversIn (eventsOf (older ++ [⟨now, a, es, p, p'⟩])) =
        handoversIn (eventsOf older) ++ handoversIn es := by
      simp [handoversIn]
    rw [all, List.map_append, List.nodup_append]
    refine ⟨once, ?_, ?_⟩
    · have few := length_handoversIn_le made past taken
      match handed : handoversIn es with
      | [] => exact List.nodup_nil
      | [d] => exact List.nodup_singleton _
      | _ :: _ :: _ =>
        rw [handed] at few
        simp at few
    · intro x x_member y y_member same
      subst same
      obtain ⟨⟨_, earlier⟩, earlier_member, rfl⟩ := List.mem_map.1 x_member
      obtain ⟨⟨⟨g, party⟩, response⟩, member, rfl⟩ := List.mem_map.1 y_member
      obtain ⟨_, _, _, _, _, own, _, _, _, _, told, delivery, _⟩ :=
        exists_delivery made past taken (mem_handoversIn.1 member)
      apply delivery.undelivered earlier
      rw [told, mem_toldOf]
      exact mem_handoversIn.1 earlier_member

/-- A caller that gets a reply has a call that was handed it. -/
theorem exists_handover_of_reply {t : Ticket} (made : Pool.new options = .ok start)
    (past : Run start began older now p) (taken : p.step now a = some (p', es))
    (told : Event.finished t (.ok (.reply response)) ∈ es) :
    ∃ r ∈ relayedIn (eventsOf older), r.ticket = t ∧
      Event.connection r.generation (.delivered r.party response) ∈ eventsOf older := by
  have relaying := Relaying.of_step (coherent_of_run made past) taken
  obtain ⟨r, member, same, finished⟩ := relaying.repliesFrom t response told
  have unhanded : Event.connection r.generation (.delivered r.party response) ∉ es := by
    intro handed
    obtain ⟨_, _, _, _, _, _, _, _, _, _, _, _, rfl⟩ := exists_delivery made past taken handed
    cases List.mem_singleton.1 finished
  have relays := Relays.of_run made past
  have there : ∃ c, p.connections[r.generation]? = some c := by
    rcases List.mem_append.1 member with older | new
    · obtain ⟨_, c, found, _⟩ := relays.below r (relays.told r older)
      exact ⟨c, found⟩
    · obtain ⟨_, _, _, c, _, found, _⟩ := relaying.of_mem_relayedIn new
      exact ⟨c, found⟩
  obtain ⟨c, found⟩ := there
  obtain ⟨slot, born, own, run, told_before⟩ := exists_connection_run made past found
  have handed : Connection.Event.delivered r.party response ∈ eventsOf own := by
    have course := (Follows.of_step taken).course r.generation
    rw [found] at course
    rw [← mem_toldOf] at finished unhanded
    generalize p'.connections[r.generation]? = x at course
    generalize toldOf r.generation es = told_now at course finished unhanded
    cases course with
    | goesOn run_now _ =>
      -- Seen as one run, the connection hands over the response before it tells of the end.
      obtain ⟨front, m, back, rfl, seen⟩ := exists_moment_of_mem_eventsOf finished
      have whole := run.append run_now
      rw [← List.append_assoc] at whole
      obtain ⟨before, went, _⟩ := whole.at_moment
      have delivered := Connection.delivered_of_finished before went seen
      rw [eventsOf_append, List.mem_append] at delivered
      refine delivered.resolve_right fun now => unhanded ?_
      rw [eventsOf_append]
      exact List.mem_append_left _ now
  refine ⟨r, ?_, same, ?_⟩
  · rcases List.mem_append.1 member with older | new
    · exact relays.told r older
    · obtain ⟨_, _, _, d, _, found', next, _⟩ := relaying.of_mem_relayedIn new
      obtain rfl : c = d := Option.some.inj (found.symm.trans found')
      have below := (Connection.Account.of_run run).delivered_lt _ _ handed
      rw [next] at below
      exact absurd below (Nat.lt_irrefl _)
  · rw [← mem_toldOf, ← told_before]
    exact handed

/-- How a call came to be handed a response in a moment, given what was before. -/
structure Handover (older : List Moment) (m : Moment) (r : Relay) (id : CorrelationId)
    (response : Response) : Prop where
  /-- The call was passed on to its connection before, and registered there under its ID. -/
  started : ∃ before call between, older = before ++ call :: between ∧
    (∃ command limit, call.action = .call id command limit) ∧
    Event.relayed r.ticket r.generation r.party ∈ call.events ∧
    Event.connection r.generation (.registered r.party id) ∈ call.events
  /-- The response is what comes in on that connection. -/
  read : ∃ inbound, m.action = .connection r.generation (.receive inbound) ∧
    inbound.response? = some response
  /-- The call is under way, and its party waits. -/
  pending : r ∈ m.before.relays
  waiting : ∃ c, m.before.connections[r.generation]? = some c ∧
    (∃ party ∈ c.parties, party.ticket = r.party ∧ party.purpose.id? = some id ∧
      party.reply = .awaited) ∧
    response.Answers c.registry id
  /-- No response that came in since the call was registered answered its ID. -/
  first : ∀ before m' between c inbound response', older = before ++ m' :: between →
    Event.connection r.generation (.registered r.party id) ∈ eventsOf before →
    m'.action = .connection r.generation (.receive inbound) → inbound.response? = some response' →
    m'.before.connections[r.generation]? = some c → ¬ response'.Answers c.registry id

/-- A party that is handed a response is that of a call, which comes to it as it should. -/
theorem exists_handover (made : Pool.new options = .ok start) {newer : List Moment} {m : Moment}
    (run : Run start began (older ++ m :: newer) now p)
    (told : Event.connection g (.delivered party response) ∈ m.events) :
    ∃ ticket id, Handover older m ⟨ticket, g, party⟩ id response := by
  obtain ⟨past, taken, _⟩ := run.at_moment
  obtain ⟨inbound, c, id, slot, born, own, receives, read, found, own_run, told_before, delivery, _⟩ :=
    exists_delivery made past taken told
  have registered : Event.connection g (.registered party id) ∈ eventsOf older := by
    rw [← mem_toldOf, ← told_before]
    exact delivery.registered
  obtain ⟨before, call, between, same, seen⟩ := exists_moment_of_mem_eventsOf registered
  obtain ⟨waiter, waiter_member, waiter_ticket, waiter_id, awaits⟩ := delivery.waiting
  have waits : waiter.wait ∈ c.waits := List.mem_map_of_mem waiter_member
  have relays := Relays.of_run made past
  obtain ⟨⟨ticket, g', party'⟩, pending, generation, r_party⟩ :=
    relays.carried g c found waiter.wait waits
  obtain rfl : g = g' := generation.symm
  obtain rfl : party = party' := (r_party.trans waiter_ticket).symm
  refine ⟨ticket, id, ?_, ⟨inbound, receives, read⟩, pending,
    ⟨c, found, ⟨waiter, waiter_member, waiter_ticket, waiter_id, awaits⟩, delivery.answers⟩, ?_⟩
  · have call_run := past
    rw [same] at call_run
    obtain ⟨call_past, call_taken, _⟩ := call_run.at_moment
    have relaying := Relaying.of_step (coherent_of_run made call_past) call_taken
    obtain ⟨asked, passed⟩ := relaying.of_registered (coherent_of_run made call_past) seen
    have known : (⟨call.before.nextTicket, g, party⟩ : Relay) ∈ relayedIn (eventsOf older) := by
      rw [mem_relayedIn, same, eventsOf_append, eventsOf_cons]
      exact List.mem_append_right _ (List.mem_append_left _ passed)
    -- The call that registered the party is the one that is under way for it.
    obtain rfl := congrArg Relay.ticket (relays.eq_of_party (relays.told _ pending) known rfl rfl)
    exact ⟨before, call, between, same, asked, passed, seen⟩
  · intro before' m' between' c' inbound' response' same' registered' receives' read' found'
    subst same'
    obtain ⟨past', taken', middle, up_to, behind⟩ := past.at_moment
    rw [receives'] at taken'
    simp only [step, startsParty, Bool.false_eq_true, if_false] at taken'
    obtain ⟨d, d', events, found_d, went, absorbs⟩ := exists_of_stepConnection taken'
    obtain rfl : c' = d := Option.some.inj (found'.symm.trans found_d)
    obtain ⟨slot', born', own', run', told'⟩ := exists_connection_run made past' found'
    have found_after : m'.after.connections[g]? = some d' := by
      rw [absorbs.connections]
      exact connections_setConnection found'
    obtain ⟨c'', own'', found'', run'', _⟩ := exists_connection_run_on behind found_after
    obtain rfl : c = c'' := Option.some.inj (found.symm.trans found'')
    -- The run of the connection up to now has the earlier response in the middle.
    have late : m'.instant ≤ middle := (up_to.instant_mem_range.2 m' (by simp)).2
    have whole := ((History.act run' went).linger (fun _ _ _ => trivial) late).append run''
    rw [← List.append_cons] at whole
    refine Connection.unanswered_of_run whole ?_ rfl read' waits awaits
    rw [told', mem_toldOf]
    exact waiter_ticket.symm ▸ registered'

/-- In every run of a pool: what is handed over is handed to a call that was passed on to that
connection before and still waits there, and is the first response since then that answers its ID;
a frame is handed to at most one call and a call is handed at most one frame, for the calls and the
parties correspond; and what a caller gets as its reply was handed to its call. -/
theorem no_reply_crosses_over (made : Pool.new options = .ok start)
    (run : Run start began moments now p) :
    (∀ older m newer g party response, moments = older ++ m :: newer →
      Event.connection g (.delivered party response) ∈ m.events →
        ∃ ticket id, Handover older m ⟨ticket, g, party⟩ id response) ∧
    (∀ m ∈ moments, (handoversIn m.events).length ≤ 1) ∧
    ((handoversIn (eventsOf moments)).map Prod.fst).Nodup ∧
    (((relayedIn (eventsOf moments)).map Relay.ticket).Nodup ∧
      ((relayedIn (eventsOf moments)).map fun r => (r.generation, r.party)).Nodup) ∧
    ∀ older m newer ticket response, moments = older ++ m :: newer →
      Event.finished ticket (.ok (.reply response)) ∈ m.events →
        ∃ r ∈ relayedIn (eventsOf older), r.ticket = ticket ∧
          Event.connection r.generation (.delivered r.party response) ∈ eventsOf older := by
  have relays := Relays.of_run made run
  refine ⟨?_, ?_, nodup_handoversIn made run, ⟨relays.tickets_nodup, relays.parties_nodup⟩, ?_⟩
  · rintro older m newer g party response rfl told
    exact exists_handover made run told
  · intro m member
    obtain ⟨older, newer, rfl⟩ := List.append_of_mem member
    obtain ⟨past, taken, _⟩ := run.at_moment
    exact length_handoversIn_le made past taken
  · rintro older m newer ticket response rfl told
    obtain ⟨past, taken, _⟩ := run.at_moment
    exact exists_handover_of_reply made past taken told

/-- Two calls on two connections, the replies to them in the other order, of which one has an ID of
its own, and a reply that is too late. -/
def crossedReplies : List (Nat × Action) := [
  (0, .fill 0 none), (0, .fill 1 none), (1, .dialSucceeds 1 false), (1, .dialSucceeds 3 false),
  (2, .call ⟨"a"⟩ .ping (Duration.ofSeconds 2)), (2, .call ⟨"b"⟩ .ping (Duration.ofSeconds 2)),
  (3, .connection 1 (.receive (.text "\x7b\"id\":\"b\"\x7d"))),
  (4, .connection 0 (.receive (.text "\x7b\"id\":\"x\",\"replyTo\":\"a\"\x7d"))),
  (5, .connection 0 (.receive (.text "\x7b\"id\":\"a\"\x7d")))]

/-- Each of the two calls is handed its reply, and the reply that is too late goes to nobody. -/
theorem handovers_of_crossedReplies : ∃ start moments now p,
    Pool.new .default = .ok start ∧ Run start 0 moments now p ∧
      (handoversIn (eventsOf moments)).map Prod.fst = [(1, 0), (0, 0)] ∧
      ∃ older m newer ticket id response, moments = older ++ m :: newer ∧
        Handover older m ⟨ticket, 0, 0⟩ id response := by
  have played : (Pool.new .default).toOption.bind (fun start =>
      (History.play step start crossedReplies).map fun r =>
        (handoversIn (eventsOf r.1)).map Prod.fst) = some [(1, 0), (0, 0)] := by decide
  have ordered : History.inOrder 0 crossedReplies = true := by decide
  obtain ⟨start, moments, p, made, run, handed⟩ := exists_run_of_script played ordered
  have member : (0, 0) ∈ (handoversIn (eventsOf moments)).map Prod.fst := by
    rw [handed]
    decide
  obtain ⟨⟨_, response⟩, told, rfl⟩ := List.mem_map.1 member
  obtain ⟨older, m, newer, rfl, seen⟩ := exists_moment_of_mem_eventsOf (mem_handoversIn.1 told)
  obtain ⟨ticket, id, handover⟩ :=
    (no_reply_crosses_over made run).1 older m newer 0 0 response rfl seen
  exact ⟨start, _, _, p, made, run, handed, older, m, newer, ticket, id, response, rfl, handover⟩

end CallPool.Pool
