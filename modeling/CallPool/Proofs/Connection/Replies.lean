import CallPool.Proofs.Connection.Writes

/-!
# What a reply does

A reply is handed to a party by its keys alone: what it says, and be it a refusal, changes neither whom
it goes to nor what becomes of the connection (`receive_of_response`). A call has been answered once it
was handed a reply and its frame was written as a whole. Then it ends with just that reply, and
otherwise with an error of its own connection (`reply_iff_of_call`, `kinds_of_call`).
-/

set_option autoImplicit false

namespace CallPool.Connection

/-- What was told says that a party was handed a response, and that its frame was written. -/
def Answered (past : List Event) (t : Ticket) (response : Response) : Prop :=
  Event.delivered t response ∈ past ∧ ∃ item, item.ticket = t ∧ Event.wrote item ∈ past

/-- Hands a response to a party, if there is one for it. -/
def handTo (c : Connection) (party : Option Ticket) (response : Response) : Connection × List Event :=
  match party with
  | none => (c, [])
  | some t => (c.update t fun p => { p with reply := .delivered response }, [.delivered t response])

/-- What the keys of a response make of a connection that hears it: who waits under the first of them
does so no more, and is the one to be handed the response. -/
def address (c : Connection) (now : Nat) (keys : List CorrelationId) : Connection × Option Ticket :=
  let heard := { c with reader := .listening now }
  match c.registry.firstOf? keys with
  | none => (heard, none)
  | some id =>
    match c.registry.find? id with
    | none => (heard, none)
    | some t => ({ heard with registry := c.registry.erase id }, some t)

/-- A connection refuses two frames, or hands what each of them holds to one party, if there is one for
it, and becomes the same but for that. -/
def Alike (c : Connection) (now : Nat) (inbound inbound' : Inbound) (response response' : Response) : Prop :=
  c.step now (.receive inbound) = none ∧ c.step now (.receive inbound') = none ∨
    ∃ (d : Connection) (party : Option Ticket),
      c.step now (.receive inbound) = some (d.handTo party response) ∧
      c.step now (.receive inbound') = some (d.handTo party response')

section Step

variable {c : Connection} {now : Nat} {inbound : Inbound} {response : Response}

/-- To deliver a response is to hand it to the one who waits for it, if anybody does. -/
theorem deliver_eq_handTo (c : Connection) (now : Nat) (response : Response) :
    ({ c with reader := .listening now } : Connection).deliver response =
      (c.address now response.correlationKeys).1.handTo (c.address now response.correlationKeys).2
        response := by
  unfold deliver address
  dsimp only
  cases c.registry.firstOf? response.correlationKeys with
  | none => rfl
  | some id =>
    dsimp only
    cases c.registry.find? id with
    | none => rfl
    | some t => rfl

/-- Of a response that comes in only the keys say what becomes of the connection, and whom it goes to. -/
theorem receive_of_response (read : inbound.response? = some response) :
    c.receive now inbound = (c.address now response.correlationKeys).1.handTo
      (c.address now response.correlationKeys).2 response := by
  have taken : ∀ content : List UInt8, (Response.parse content).toOption = some response →
      ({ c with reader := .listening now } : Connection).take content =
        (c.address now response.correlationKeys).1.handTo
          (c.address now response.correlationKeys).2 response := by
    intro content reads
    unfold take
    cases parsed : Response.parse content with
    | error _ =>
      rw [parsed] at reads
      cases reads
    | ok r =>
      rw [parsed] at reads
      obtain rfl := Option.some.inj reads
      exact deliver_eq_handTo c now r
  cases inbound with
  | text content => exact taken _ read
  | binary content => exact taken _ read
  | _ => cases read

/-- Two responses with the same keys make the same of a connection, and go to the same party. -/
theorem alike_of_keys {inbound' : Inbound} {response' : Response} (c : Connection) (now : Nat)
    (read : inbound.response? = some response) (read' : inbound'.response? = some response')
    (keys : response.correlationKeys = response'.correlationKeys) :
    Alike c now inbound inbound' response response' := by
  unfold Alike
  simp only [step]
  cases c.reader with
  | ended => exact .inl ⟨rfl, rfl⟩
  | listening since =>
    refine .inr ⟨(c.address now response.correlationKeys).1, (c.address now response.correlationKeys).2,
      congrArg some (receive_of_response read), ?_⟩
    rw [keys]
    exact congrArg some (receive_of_response read')

end Step

section Run

variable {slot generation began now later : Nat} {options : Options} {older newer : List Moment} {m : Moment}
  {id : CorrelationId} {command : Command} {limit : Duration} {c : Connection} {p : Party}
  {outcome : Outcome}

/-- A call that was answered can end with its answer at any time. -/
theorem ending?_of_answered
    (run : Run (Connection.opened slot generation options began) began (older ++ m :: newer) now c)
    (calls : m.action = .call id command limit) (member : p ∈ c.parties)
    (mine : p.ticket = m.before.nextTicket) {response : Response}
    (answered : Answered (eventsOf (older ++ m :: newer)) p.ticket response) :
    p.ending? slot later = some (.ok (.reply response)) := by
  obtain ⟨delivered, item, same, wrote⟩ := answered
  have is_call := purpose_of_call run calls p member mine
  have written := verdict_of_wrote run wrote p member same.symm
  have replied : p.reply = .delivered response :=
    ((Account.of_run run).reply p.wait (List.mem_map_of_mem member) response).2 delivered
  apply Party.ending?_of_outcome?
  unfold Party.outcome?
  rw [written, is_call, replied]
  rfl

/-- A call that ends does so with a reply exactly if it was answered with it. -/
theorem reply_iff_of_call
    (run : Run (Connection.opened slot generation options began) began (older ++ m :: newer) now c)
    (calls : m.action = .call id command limit) (member : p ∈ c.parties)
    (mine : p.ticket = m.before.nextTicket) (ends : p.ending? slot later = some outcome)
    (response : Response) :
    outcome = .ok (.reply response) ↔ Answered (eventsOf (older ++ m :: newer)) p.ticket response := by
  have is_call := purpose_of_call run calls p member mine
  have reply := (Account.of_run run).reply p.wait (List.mem_map_of_mem member) response
  constructor
  · rintro rfl
    rcases Party.of_ending?_call is_call ends with
      ⟨written, _, replied, same⟩ | ⟨_, _, same⟩ | ⟨_, _, same⟩ | ⟨_, _, same⟩
    · obtain rfl := Answer.reply.inj (Except.ok.inj same)
      refine ⟨reply.1 replied, ?_⟩
      rcases (Career.of_run run p member).judged with awaits | ⟨_, waits⟩ | ⟨m', m'_member, judges⟩
      · rw [written] at awaits
        cases awaits
      · rw [is_call] at waits
        cases waits
      · rw [written] at judges
        cases judges with
        | written same wrote => exact ⟨_, same, mem_eventsOf.2 ⟨m', m'_member, wrote⟩⟩
    · cases same
    · cases same
    · cases same
  · intro answered
    rw [ending?_of_answered run calls member mine answered] at ends
    exact (Option.some.inj ends).symm

/-- A call that ends without a reply could not be answered. -/
theorem kinds_of_call
    (run : Run (Connection.opened slot generation options began) began (older ++ m :: newer) now c)
    (calls : m.action = .call id command limit) (member : p ∈ c.parties)
    (mine : p.ticket = m.before.nextTicket) (ends : p.ending? slot later = some outcome) :
    (∃ response, outcome = .ok (.reply response)) ∨
      ∃ e, outcome = .error e ∧ e.isDegraded = true := by
  rcases Party.of_ending?_call (purpose_of_call run calls p member mine) ends with
    ⟨_, response, _, rfl⟩ | ⟨_, _, rfl⟩ | ⟨_, _, rfl⟩ | ⟨_, _, rfl⟩
  · exact .inl ⟨response, rfl⟩
  · exact .inr ⟨_, rfl, rfl⟩
  · exact .inr ⟨_, rfl, rfl⟩
  · exact .inr ⟨_, rfl, rfl⟩

end Run

end CallPool.Connection
