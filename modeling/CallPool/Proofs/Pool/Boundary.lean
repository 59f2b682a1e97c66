import CallPool.Proofs.Client.Answers
import CallPool.Proofs.Connection.Replies
import CallPool.Proofs.Pool.Callers

/-!
# The error boundary

A call of a pool ends in one of three ways. It gets the reply that answered it, it fails with what
that reply refuses it with, or it fails because the other side could not be asked. Which of them it
is depends on the reply alone: whoever asks may ignore every error but a refusal. Errors of dialing,
of the configuration or of reading never come out of a call.

A call is told only what its party ended with (`Unasked.of_finished`), and its party ends where the
connection says so (`exists_party_of_finished`), after the run of that connection in which the call was
made (`exists_call_run`).

Main statement: `only_refusals_come_through`.
-/

set_option autoImplicit false

namespace CallPool

/-- Whether an error is one of dialing, of the configuration, of the library itself or of reading. -/
def Error.isForeign : Error → Bool
  | config _ => true
  | connect _ _ => true
  | connectionTimeout _ => true
  | protocol _ => true
  | json _ => true
  | url _ => true
  | _ => false

/-- An error that counts as degraded is not foreign. -/
theorem Error.isForeign_of_isDegraded {e : Error} (degraded : e.isDegraded = true) :
    e.isForeign = false := by
  cases e with
  | noConnectionAvailable | requestTimeout | connectionLost | send | closed => rfl
  | _ => cases degraded

namespace Pool

/-- What was told says that a call was passed on to a connection, which handed it a response and wrote
its frame. -/
def Answered (past : List Event) (t : Ticket) (response : Response) : Prop :=
  ∃ g party, Event.relayed t g party ∈ past ∧ Connection.Answered (toldOf g past) party response

/-- What a call ends with, after what was told so far. -/
structure Ends (past : List Event) (t : Ticket) (outcome : Outcome) : Prop where
  /-- It gets a reply exactly if it was answered with that very reply, which carries no error. -/
  reply_iff : ∀ r, outcome = .ok (.reply r) ↔ Answered past t r ∧ r.Accepts
  /-- It is refused exactly if it was answered with a refusal, and just as that says. -/
  remote_iff : ∀ code message, outcome = .error (.remote code message) ↔
    ∃ r, Answered past t r ∧ r.Refuses code message
  /-- It was not answered exactly if the other side could not be asked. -/
  degraded_iff : (∃ e, outcome = .error e ∧ e.isDegraded = true) ↔ ∀ r, ¬ Answered past t r
  /-- It was answered once at most. -/
  once : ∀ r r', Answered past t r → Answered past t r' → r' = r
  /-- There is nothing else that it ends with. -/
  kinds : (∃ r, outcome = .ok (.reply r)) ∨
    (∃ code message, outcome = .error (.remote code message) ∧ message ≠ "") ∨
      ∃ e, outcome = .error e ∧ e.isDegraded = true
  own : ∀ e, outcome = .error e → e.isForeign = false

namespace Ends

variable {past : List Event} {t : Ticket} {response : Response}

/-- A call whose only answer carries no error ends with that. -/
theorem of_accepts (answered : ∀ r, Answered past t r ↔ r = response) (accepts : response.Accepts) :
    Ends past t (.ok (.reply response)) where
  reply_iff := by
    intro r
    rw [answered]
    constructor
    · intro same
      obtain rfl := Value.reply.inj (Except.ok.inj same)
      exact ⟨rfl, accepts⟩
    · rintro ⟨rfl, _⟩
      rfl
  remote_iff := by
    intro code message
    refine ⟨nofun, ?_⟩
    rintro ⟨r, replied, refuses⟩
    obtain rfl := (answered r).1 replied
    exact absurd refuses accepts.not_refuses
  degraded_iff := ⟨nofun, fun unanswered => absurd ((answered response).2 rfl) (unanswered response)⟩
  once := fun r r' first second => ((answered r').1 second).trans ((answered r).1 first).symm
  kinds := .inl ⟨response, rfl⟩
  own := nofun

/-- A call whose only answer is a refusal is refused. -/
theorem of_refuses {code message : String} (answered : ∀ r, Answered past t r ↔ r = response)
    (refuses : response.Refuses code message) : Ends past t (.error (.remote code message)) where
  reply_iff := by
    intro r
    refine ⟨nofun, ?_⟩
    rintro ⟨replied, accepts⟩
    obtain rfl := (answered r).1 replied
    exact absurd refuses accepts.not_refuses
  remote_iff := by
    intro code' message'
    constructor
    · intro same
      obtain ⟨rfl, rfl⟩ := Error.remote.inj (Except.error.inj same)
      exact ⟨response, (answered response).2 rfl, refuses⟩
    · rintro ⟨r, replied, refuses'⟩
      obtain rfl := (answered r).1 replied
      obtain ⟨rfl, rfl⟩ := refuses.unique refuses'
      rfl
  degraded_iff := by
    refine ⟨?_, fun unanswered => absurd ((answered response).2 rfl) (unanswered response)⟩
    rintro ⟨e, same, degraded⟩
    rw [← Except.error.inj same] at degraded
    cases degraded
  once := fun r r' first second => ((answered r').1 second).trans ((answered r).1 first).symm
  kinds := .inr (.inl ⟨code, message, rfl, refuses.message_ne_empty⟩)
  own := by
    intro e same
    rw [← Except.error.inj same]
    rfl

/-- A call without an answer ends because the other side could not be asked. -/
theorem of_degraded {e : Error} (unanswered : ∀ r, ¬ Answered past t r) (degraded : e.isDegraded = true) :
    Ends past t (.error e) where
  reply_iff := fun r => ⟨nofun, fun h => absurd h.1 (unanswered r)⟩
  remote_iff := by
    intro code message
    constructor
    · intro same
      rw [Except.error.inj same] at degraded
      cases degraded
    · rintro ⟨r, replied, _⟩
      exact absurd replied (unanswered r)
  degraded_iff := ⟨fun _ => unanswered, fun _ => ⟨e, rfl, degraded⟩⟩
  once := fun r _ first _ => absurd first (unanswered r)
  kinds := .inr (.inr ⟨e, rfl, degraded⟩)
  own := by
    intro e' same
    rw [← Except.error.inj same]
    exact Error.isForeign_of_isDegraded degraded

/-- A caller whose party ends with its answer, or because the other side could not be asked. -/
theorem of_party {ended : Connection.Outcome}
    (answered : ∀ r, ended = .ok (.reply r) ↔ Answered past t r)
    (kinds : (∃ r, ended = .ok (.reply r)) ∨ ∃ e, ended = .error e ∧ e.isDegraded = true) :
    Ends past t (outcomeOf ended) := by
  rcases kinds with ⟨response, rfl⟩ | ⟨e, rfl, degraded⟩
  · have only : ∀ r, Answered past t r ↔ r = response := by
      intro r
      rw [← answered]
      constructor
      · intro same
        exact (Connection.Answer.reply.inj (Except.ok.inj same)).symm
      · rintro rfl
        rfl
    rcases response.accepted_cases with ⟨accepts, accepted⟩ | ⟨code, message, refuses, accepted⟩
    · simpa [outcomeOf, accepted, Except.map] using of_accepts only accepts
    · simpa [outcomeOf, accepted, Except.map] using of_refuses only refuses
  · exact of_degraded (fun r replied => nomatch (answered r).2 replied) degraded

/-- A caller that ends although nothing was passed on for it. -/
theorem of_unpassed {e : Error} (unpassed : ∀ g party, Event.relayed t g party ∉ past)
    (degraded : e.isDegraded = true) : Ends past t (.error e) :=
  of_degraded (fun _ ⟨g, party, relayed, _⟩ => unpassed g party relayed) degraded

end Ends

section Step

variable {p p' : Pool} {now g : Nat} {a : Action} {es : List Event} {c : Connection} {party : Ticket}
  {ended : Connection.Outcome}

/-- A party of a connection of a pool ends when it is woken, with what it has come to by then. -/
theorem exists_party_of_finished (coherent : Coherent p) (taken : p.step now a = some (p', es))
    (found : p.connections[g]? = some c) (below : party < c.nextTicket)
    (told : Event.connection g (.finished party ended) ∈ es) :
    ∃ q ∈ c.parties, q.ticket = party ∧ q.ending? c.slot now = some ended := by
  have woken : a = .connection g (.wake party) := by
    have course := (Follows.of_step taken).course g
    rw [found] at course
    have inside := mem_toldOf.2 told
    generalize toldOf g es = seen at course inside
    generalize p'.connections[g]? = y at course
    cases course with
    | goesOn run allowed =>
      obtain ⟨earlier, m, later, rfl, seen⟩ := exists_moment_of_mem_eventsOf inside
      obtain ⟨past, went, _⟩ := run.at_moment
      have causes := allowed m (by simp)
      rcases (Connection.Effect.of_step went).of_drops (.inl ⟨ended, seen⟩) with
        ⟨new, _⟩ | ⟨_, _, _, ⟨_, silent⟩ | ⟨_, wakes, _⟩⟩
      · have further := Connection.nextTicket_le_of_run past (coherent g c found)
        exact absurd new (Nat.ne_of_lt (Nat.lt_of_lt_of_le below further))
      · rw [silent] at seen
        cases seen
      · rw [wakes] at causes
        rcases causes with own | ⟨same, _⟩ | passed
        · cases own
        · exact same
        · cases a <;> cases passed
  subst woken
  have went : p.stepConnection now g (.wake party) = some (p', es) := taken
  obtain ⟨d, d', events, found', wakes, absorbs⟩ := exists_of_stepConnection went
  obtain rfl : d = c := Option.some.inj (found'.symm.trans found)
  have inside : Connection.Event.finished party ended ∈ events := absorbs.told ▸ mem_toldOf.2 told
  rcases (Connection.Effect.of_step wakes).of_finished inside with ⟨new, _⟩ | there
  · exact absurd new (Nat.ne_of_lt below)
  · exact there

end Step

section Run

variable {options : Options} {start p p' : Pool} {began now : Nat} {older newer : List Moment} {m : Moment}
  {id : CorrelationId} {command : Command} {limit : Duration} {outcome : Outcome}

/-- A call is refused at once, or it is made in the run of a connection that it is passed on to. -/
theorem exists_call_run (made : Pool.new options = .ok start)
    (run : Run start began (older ++ m :: newer) now p) (calls : m.action = .call id command limit) :
    (m.after.relays = m.before.relays ∧ ∃ e, e.isDegraded = true ∧
      m.events = [.finished m.before.nextTicket (.error e)]) ∨
    ∃ g c slot born own x own',
      Connection.Run (Connection.opened slot g start.options born) born (own ++ x :: own') now c ∧
      p.connections[g]? = some c ∧ x.action = .call id command limit ∧
      Event.relayed m.before.nextTicket g x.before.nextTicket ∈ m.events ∧
      eventsOf (own ++ x :: own') = toldOf g (eventsOf (older ++ m :: newer)) := by
  obtain ⟨past, taken, _⟩ := run.at_moment
  have asks : m.action.passed? = some (.call id command limit) := by rw [calls]; rfl
  rcases passed_cases asks taken with
    ⟨e, which, after, refused⟩ | ⟨g, c, c', events, rest, found, went, absorbs, passed⟩
  · refine .inl ⟨by rw [after]; rfl, e, ?_, refused⟩
    rcases which with rfl | rfl
    · rfl
    · rfl
  · obtain ⟨slot, born, own, before, same⟩ := exists_connection_run made past found
    have there : m.after.connections[g]? = some c' := by
      rw [absorbs.connections]
      exact connections_setConnection found
    obtain ⟨d, own', found', behind, same'⟩ := exists_connection_run_on run.behind there
    have whole := (History.act before went).append behind
    rw [List.append_assoc, List.singleton_append] at whole
    refine .inr ⟨g, d, slot, born, own, _, own', whole, found', rfl, ?_, ?_⟩
    · rw [passed]
      exact List.mem_cons_self
    · have told : toldOf g m.events = events := by
        rw [passed, ← absorbs.told]
        rfl
      simp [same, same', told]

/-- A call that ends later has been answered, or could not be. -/
theorem ends_of_call {a : Action} {es : List Event} (made : Pool.new options = .ok start)
    (run : Run start began (older ++ m :: newer) now p) (calls : m.action = .call id command limit)
    (taken : p.step now a = some (p', es)) (told : Event.finished m.before.nextTicket outcome ∈ es) :
    Ends (eventsOf (older ++ m :: newer)) m.before.nextTicket outcome := by
  have relays := Relays.of_run made run
  have unasked := unasked_of_passed made run (by rw [calls]; rfl)
  have since := Serves.of_run run.behind
  obtain ⟨r, r_member, mine, ended, seen, rfl⟩ := (unasked.of_serves since).of_finished taken told
  have r_told := relays.told r r_member
  rcases exists_call_run made run calls with
    ⟨unchanged, _⟩ | ⟨g, c, slot, born, own, x, own', own_run, found, called, relayed, same⟩
  · -- A call that was refused has no party, so that none of the calls under way is this one.
    exfalso
    rcases since.relays r r_member with there | new
    · rw [unchanged] at there
      have past := run.at_moment.1
      have below := ((Relays.of_run made past).below r ((Relays.of_run made past).told r there)).1
      exact Nat.ne_of_lt below mine
    · rw [mine] at new
      exact Nat.not_le_of_lt unasked.1 new
  · have passed :
        Event.relayed m.before.nextTicket g x.before.nextTicket ∈ eventsOf (older ++ m :: newer) :=
      mem_eventsOf.2 ⟨m, by simp, relayed⟩
    obtain rfl : r = ⟨m.before.nextTicket, g, x.before.nextTicket⟩ :=
      relays.eq_of_ticket r_told (mem_relayedIn.2 passed) mine
    obtain ⟨q, q_member, q_mine, ends⟩ := exists_party_of_finished (coherent_of_run made run) taken found
      (Connection.nextTicket_lt_of_call own_run called) seen
    have place : c.slot = slot := congrArg Notice.slot (Connection.place_of_run own_run)
    rw [place] at ends
    refine .of_party ?_ (Connection.kinds_of_call own_run called q_member q_mine ends)
    intro response
    rw [Connection.reply_iff_of_call own_run called q_member q_mine ends, same, q_mine]
    constructor
    · exact fun answered => ⟨g, _, passed, answered⟩
    · rintro ⟨g', party', passed', answered⟩
      have one : (⟨m.before.nextTicket, g', party'⟩ : Relay) =
          ⟨m.before.nextTicket, g, x.before.nextTicket⟩ :=
        relays.eq_of_ticket (mem_relayedIn.2 passed') (mem_relayedIn.2 passed) rfl
      obtain ⟨_, rfl, rfl⟩ := Relay.mk.inj one
      exact answered

/-- A call that ends at once was refused, by the pool or by the connection that it chose. -/
theorem ends_of_refusal (made : Pool.new options = .ok start)
    (run : Run start began (older ++ m :: newer) now p) (calls : m.action = .call id command limit)
    (told : Event.finished m.before.nextTicket outcome ∈ m.events) :
    Ends (eventsOf older) m.before.nextTicket outcome := by
  obtain ⟨past, taken, _⟩ := run.at_moment
  have asks : m.action.passed? = some (.call id command limit) := by rw [calls]; rfl
  have unpassed : ∀ g party, Event.relayed m.before.nextTicket g party ∉ eventsOf older := by
    intro g party relayed
    have given := (Relays.of_run made past).below ⟨m.before.nextTicket, g, party⟩
      (mem_relayedIn.2 relayed)
    exact Nat.lt_irrefl _ given.1
  rcases passed_cases asks taken with
    ⟨e, which, _, refused⟩ | ⟨g, c, c', events, rest, _, went, absorbs, passed⟩
  · rw [refused, List.mem_singleton] at told
    obtain ⟨_, rfl⟩ := Event.finished.inj told
    rcases which with rfl | rfl
    · exact .of_unpassed unpassed rfl
    · exact .of_unpassed unpassed rfl
  · rw [passed] at told
    rcases List.mem_cons.1 told with same | behind
    · cases same
    · rcases absorbs.only _ behind with ⟨_, same⟩ | ⟨r, _, _, ended, finished, same⟩
      · cases same
      · obtain ⟨_, rfl⟩ := Event.finished.inj same
        rcases (Connection.Effect.of_step went).of_drops (.inl ⟨ended, finished⟩) with
          ⟨_, _, _, only⟩ | ⟨_, _, _, ⟨cancels, _⟩ | ⟨_, wakes, _⟩⟩
        · rw [only, List.mem_singleton] at finished
          obtain ⟨_, rfl⟩ := Connection.Event.finished.inj finished
          exact .of_unpassed unpassed rfl
        · cases cancels
        · cases wakes

/-- Whatever a call asks for, whatever the state of the pool, whatever comes in and however sockets fail:
the call ends with the reply that it was answered with if that carries no error, with what that reply
refuses it with if it carries one, and if it was not answered with an error that says that the other side
could not be asked. A reply answers a call once the frame of the call has been written. A typed call adds
one error, that the payload of a reply which carries no error is not what was asked for. And whether a
reply is a refusal makes no difference to the connection that it comes in on. -/
theorem only_refusals_come_through (made : Pool.new options = .ok start)
    (run : Run start began (older ++ m :: newer) now p) (calls : m.action = .call id command limit) :
    (∀ earlier m' later outcome, m :: newer = earlier ++ m' :: later →
      Event.finished m.before.nextTicket outcome ∈ m'.events →
        Ends (eventsOf (older ++ earlier)) m.before.nextTicket outcome ∧
        ∀ (ask : Client.Ask) (e : Error), ask.conclude outcome = .error e ↔ outcome = .error e ∨
          ∃ r j, outcome = .ok (.reply r) ∧ Client.Undecodable ask r j ∧ e = .json j) ∧
    ∀ (c : Connection) (instant : Nat) (inbound inbound' : Connection.Inbound)
      (response response' : Response),
      inbound.response? = some response → inbound'.response? = some response' →
        response.correlationKeys = response'.correlationKeys →
          Connection.Alike c instant inbound inbound' response response' := by
  refine ⟨?_, fun c instant _ _ _ _ read read' keys => Connection.alike_of_keys c instant read read' keys⟩
  intro earlier m' later outcome cut told
  have ends : Ends (eventsOf (older ++ earlier)) m.before.nextTicket outcome := by
    rcases List.cons_eq_append_iff.1 cut with ⟨rfl, same⟩ | ⟨mid, rfl, rfl⟩
    · obtain ⟨rfl, _⟩ := List.cons.inj same
      rw [List.append_nil]
      exact ends_of_refusal made run calls told
    · rw [← List.cons_append, ← List.append_assoc] at run
      obtain ⟨past, taken, _⟩ := run.at_moment
      exact ends_of_call made past calls taken told
  refine ⟨ends, fun ask e => ask.conclude_eq_error_iff fun response same => ?_⟩
  exact ((ends.reply_iff response).1 same).2.accepted_eq

end Run

/-- The refusal that an event tells a caller of. -/
def Event.refusal? : Event → Option (Ticket × String × String)
  | .finished t (.error (.remote code message)) => some (t, code, message)
  | _ => none

/-- An event is a refusal of a caller exactly if that ends with a remote error. -/
theorem Event.refusal?_eq_some_iff {e : Event} {t : Ticket} {code message : String} :
    e.refusal? = some (t, code, message) ↔ e = .finished t (.error (.remote code message)) := by
  constructor
  · intro refusal
    unfold refusal? at refusal
    split at refusal
    · obtain ⟨rfl, rfl, rfl⟩ : _ ∧ _ ∧ _ := by simpa using refusal
      rfl
    · cases refusal
  · rintro rfl
    rfl

/-- A call is answered with an error that has a code and no message. -/
def wordlessRefusal : List (Nat × Action) := [
  (0, .fill 0 none), (1, .dialSucceeds 1 false), (2, .call ⟨"a"⟩ .ping (Duration.ofSeconds 2)),
  (3, .connection 0 .beginData), (4, .connection 0 .completeWrite),
  (5, .connection 0 (.receive (.text "\x7b\"id\":\"a\",\"error\":\"denied\"\x7d"))),
  (6, .connection 0 (.wake 0))]

/-- It is refused with the code in place of the words. -/
theorem ends_of_wordlessRefusal : ∃ start older m newer earlier m' later now p,
    Pool.new .default = .ok start ∧ Run start 0 (older ++ m :: newer) now p ∧
      m :: newer = earlier ++ m' :: later ∧
      Event.finished m.before.nextTicket (.error (.remote "denied" "denied")) ∈ m'.events ∧
      Ends (eventsOf (older ++ earlier)) m.before.nextTicket (.error (.remote "denied" "denied")) := by
  have played : (Pool.new .default).toOption.bind (fun start =>
      (History.play step start wordlessRefusal).map fun r => decide (
        (r.1[2]?.any fun m => match m.action with | .call _ _ _ => true | _ => false) = true ∧
        (r.1[2]?.map fun m => m.before.nextTicket) = some 2 ∧
        ((r.1.drop 2)[4]?.map fun m => m.events.filterMap Event.refusal?) =
          some [(2, "denied", "denied")])) = some true := by decide
  have ordered : History.inOrder 0 wordlessRefusal = true := by decide
  obtain ⟨start, moments, p, made, run, computed⟩ := exists_run_of_script played ordered
  obtain ⟨is_call, given, refused⟩ := of_decide_eq_true computed
  obtain ⟨m, there, ticket⟩ := Option.map_eq_some_iff.1 given
  obtain ⟨m', there', refusals⟩ := Option.map_eq_some_iff.1 refused
  obtain ⟨id, command, limit, calls⟩ : ∃ id command limit, m.action = .call id command limit := by
    rw [there] at is_call
    cases action : m.action with
    | call id command limit => exact ⟨id, command, limit, rfl⟩
    | _ => simp [action] at is_call
  have told : Event.finished m.before.nextTicket (.error (.remote "denied" "denied")) ∈ m'.events := by
    have listed : (2, "denied", "denied") ∈ m'.events.filterMap Event.refusal? := by
      rw [refusals]
      exact List.mem_singleton_self _
    obtain ⟨e, member, same⟩ := List.mem_filterMap.1 listed
    rw [ticket, ← Event.refusal?_eq_some_iff.1 same]
    exact member
  have cut := cut_at there'
  rw [show moments.drop 2 = m :: moments.drop 3 from drop_at there] at cut
  have split : moments = moments.take 2 ++ m :: moments.drop 3 := cut_at there
  rw [split] at run
  exact ⟨start, _, m, _, _, m', _, _, p, made, run, cut, told,
    ((only_refusals_come_through made run calls).1 _ _ _ _ cut told).1⟩

/-- The refusal that an event tells a party of a connection to have been handed. -/
def Event.handedRefusal? : Event → Option (Nat × Ticket × String × Option String)
  | .connection g (.delivered party response) =>
    response.error.map fun code => (g, party, code, response.message)
  | _ => none

/-- The caller that an event tells to have failed because its frame was not written. -/
def Event.unsent? : Event → Option Ticket
  | .finished t (.error (.send _ _)) => some t
  | _ => none

/-- A refusal comes in for a call whose frame is still being written, and that write takes too long. -/
def refusalDuringWrite : List (Nat × Action) := [
  (0, .fill 0 none), (1, .dialSucceeds 1 false), (2, .call ⟨"a"⟩ .ping (Duration.ofSeconds 20)),
  (3, .connection 0 .beginData),
  (4, .connection 0 (.receive (.text "\x7b\"id\":\"a\",\"error\":\"denied\"\x7d"))),
  (10000000003, .connection 0 .expireWrite), (10000000003, .connection 0 (.wake 0))]

/-- The call is handed a reply that carries an error, and ends because its frame was not written: the
verdict on the write is looked at first. -/
theorem unsent_of_refusalDuringWrite : ∃ start older m newer now p g party response slot fault,
    Pool.new .default = .ok start ∧ Run start 0 (older ++ m :: newer) now p ∧
      (∃ id command limit, m.action = .call id command limit) ∧
      Event.relayed m.before.nextTicket g party ∈ m.events ∧
      Event.connection g (.delivered party response) ∈ eventsOf newer ∧
      response.Refuses "denied" "denied" ∧
      Event.finished m.before.nextTicket (.error (.send slot fault)) ∈ eventsOf newer := by
  have played : (Pool.new .default).toOption.bind (fun start =>
      (History.play step start refusalDuringWrite).map fun r => decide (
        (r.1[2]?.any fun m => match m.action with | .call _ _ _ => true | _ => false) = true ∧
        (r.1[2]?.map fun m => (m.before.nextTicket, relayedIn m.events)) = some (2, [⟨2, 0, 0⟩]) ∧
        (eventsOf (r.1.drop 3)).filterMap Event.handedRefusal? = [(0, 0, "denied", none)] ∧
        (eventsOf (r.1.drop 3)).filterMap Event.unsent? = [2])) = some true := by decide +kernel
  have ordered : History.inOrder 0 refusalDuringWrite = true := by decide
  obtain ⟨start, moments, p, made, run, computed⟩ := exists_run_of_script played ordered
  obtain ⟨is_call, given, refusals, failures⟩ := of_decide_eq_true computed
  obtain ⟨m, there, told⟩ := Option.map_eq_some_iff.1 given
  obtain ⟨ticket, relays⟩ := Prod.mk.inj told
  have calls : ∃ id command limit, m.action = .call id command limit := by
    rw [there] at is_call
    cases action : m.action with
    | call id command limit => exact ⟨id, command, limit, rfl⟩
    | _ => simp [action] at is_call
  have relayed : Event.relayed 2 0 0 ∈ m.events :=
    mem_relayedIn.1 (by rw [relays]; exact List.mem_singleton_self _)
  obtain ⟨e, handed, refuses⟩ := List.mem_filterMap.1 (refusals ▸ List.mem_singleton_self _)
  obtain ⟨e', ended, failed⟩ := List.mem_filterMap.1 (failures ▸ List.mem_singleton_self _)
  obtain ⟨response, rfl, carried, worded⟩ : ∃ response, e = .connection 0 (.delivered 0 response) ∧
      response.error = some "denied" ∧ response.message = none := by
    unfold Event.handedRefusal? at refuses
    split at refuses
    · obtain ⟨code, error, same⟩ := Option.map_eq_some_iff.1 refuses
      obtain ⟨rfl, rfl, rfl, message⟩ : _ ∧ _ ∧ _ ∧ _ := by simpa using same
      exact ⟨_, rfl, error, message⟩
    · cases refuses
  obtain ⟨slot, fault, rfl⟩ : ∃ slot fault, e' = .finished 2 (.error (.send slot fault)) := by
    unfold Event.unsent? at failed
    split at failed
    · obtain rfl := Option.some.inj failed
      exact ⟨_, _, rfl⟩
    · cases failed
  have split : moments = moments.take 2 ++ m :: moments.drop 3 := cut_at there
  rw [split] at run
  refine ⟨start, _, m, _, _, p, 0, 0, response, slot, fault, made, run, calls, ?_, handed,
    ⟨carried, by decide, .inr ⟨.inl worded, rfl⟩⟩, ?_⟩
  · rw [ticket]
    exact relayed
  · rw [ticket]
    exact ended

end Pool

end CallPool
