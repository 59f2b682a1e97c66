import CallPool.Connection.Run

/-!
# What a connection does when it takes an action

`Takes` lists all that an action can do to a connection, and on what grounds. It is read off
`Connection.step` once (`Takes.of_step`), so that what all actions keep is proved from its cases. An
action that can have several results has a case for each of them, and those that have the same result
share one: the reader ends on four grounds (`EndsReader`), a write comes to nothing on two (`Spoils`),
and the writer ends between two frames on three (`EndsWriter`).
-/

set_option autoImplicit false

namespace CallPool.Connection

/-- What a frame that comes in carries, if it can carry anything. -/
def Inbound.content? : Inbound → Option (List UInt8)
  | .text content => some content.toUTF8.data.toList
  | .binary content => some content
  | _ => none

/-- The response that an inbound frame holds, if it holds one. -/
def Inbound.response? : Inbound → Option Response
  | .text content => (Response.parse content.toUTF8.data.toList).toOption
  | .binary content => (Response.parse content).toOption
  | _ => none

/-- Hands a response to a party, and removes the ID under which it waited. -/
def handOver (c : Connection) (id : CorrelationId) (t : Ticket) (response : Response) : Connection :=
  { c.update t (fun p => { p with reply := .delivered response }) with
    registry := c.registry.erase id }

/-- Why the reader ends. -/
inductive EndsReader (c : Connection) (now : Nat) : Action → Prop
  | hungUp {inbound : Inbound} (gone : inbound = .close ∨ inbound = .failure) :
      EndsReader c now (.receive inbound)
  | silence {since : Nat} (listening : c.reader = .listening since)
      (due : since + c.options.pongWait.nanos ≤ now) : EndsReader c now .expireReader
  | told (stopping : c.stopping = true) : EndsReader c now .stopReader
  | forced : EndsReader c now .abortReader

/-- Why the write that is under way comes to nothing. -/
inductive Spoils (c : Connection) (now : Nat) : Action → WriteFault → Prop
  | broken {reason : String} : Spoils c now (.failWrite reason) (.described reason)
  | expired {began : Nat} (since : c.writer.began? = some began)
      (due : began + c.options.writeWait.nanos ≤ now) :
      Spoils c now .expireWrite (.timedOut c.writeLimit)

/-- Why the writer ends while it writes no queued frame, what it tells first, and with what the frames
that it leaves behind have failed. -/
inductive EndsWriter (c : Connection) (now : Nat) : Action → List Event → WriteFault → Prop
  | parted {began : Nat} (closing : c.writer = .closing began) :
      EndsWriter c now .completeWrite [.closeSent] .connectionClosed
  | spoiled {a : Action} {fault : WriteFault} {began : Nat}
      (busy : c.writer = .ping began ∨ c.writer = .closing began) (how : Spoils c now a fault) :
      EndsWriter c now a [] .connectionClosed
  | forced (running : c.writer ≠ .ended) (unwriting : ∀ item began, c.writer ≠ .data item began) :
      EndsWriter c now .abortWriter [] .loopStopped

/-- What an action makes of a connection that takes it, and what is told. -/
inductive Takes (c : Connection) (now : Nat) : Action → Connection → List Event → Prop
  | calls {id : CorrelationId} {command : Command} {limit : Duration} {r : Connection}
      (entered : (c.join (.call id limit now) .awaited).register? id c.nextTicket = some r) :
      Takes c now (.call id command limit)
        (r.enqueue ⟨c.nextTicket, (Request.mk command (some id)).frame⟩).1
        (.registered c.nextTicket id ::
          (r.enqueue ⟨c.nextTicket, (Request.mk command (some id)).frame⟩).2)
  | sends {command : Command} (live : c.connected = true) :
      Takes c now (.send command)
        ((c.join .send .awaited).enqueue ⟨c.nextTicket, (Request.mk command none).frame⟩).1
        ((c.join .send .awaited).enqueue ⟨c.nextTicket, (Request.mk command none).frame⟩).2
  | waits {id : CorrelationId} {r : Connection}
      (entered : (c.join (.wait id) .written).register? id c.nextTicket = some r) :
      Takes c now (.wait id) r [.registered c.nextTicket id]
  /-- A dead connection refuses whoever asks for something. -/
  | refuses {a : Action} (dead : c.connected = false)
      (asks : (∃ id command limit, a = .call id command limit) ∨ ∃ command, a = .send command) :
      Takes c now a { c with nextTicket := c.nextTicket + 1 }
        [.finished c.nextTicket (.error .noConnectionAvailable)]
  | turnsAway {id : CorrelationId} (dead : c.connected = false) :
      Takes c now (.wait id) { c with nextTicket := c.nextTicket + 1 } [.refused c.nextTicket]
  | drops {p : Party} (found : c.party? p.ticket = some p) :
      Takes c now (.cancel p.ticket) (c.leave p) []
  | wakes {p : Party} {outcome : Outcome} (found : c.party? p.ticket = some p)
      (ends : p.ending? c.slot now = some outcome) :
      Takes c now (.wake p.ticket) (c.leave p) [.finished p.ticket outcome]
  /-- A sign of life, or a response for nobody. -/
  | hears {inbound : Inbound}
      (unmatched : ∀ response, inbound.response? = some response →
        c.registry.firstOf? response.correlationKeys = none) :
      Takes c now (.receive inbound) { c with reader := .listening now } []
  | delivers {inbound : Inbound} {response : Response} {id : CorrelationId} {t : Ticket}
      (read : inbound.response? = some response)
      (key : c.registry.firstOf? response.correlationKeys = some id)
      (waiting : c.registry.find? id = some t) :
      Takes c now (.receive inbound)
        (({ c with reader := .listening now } : Connection).handOver id t response)
        [.delivered t response]
  | endsReader {a : Action} (how : EndsReader c now a) :
      Takes c now a c.endReader.1 c.endReader.2
  | begins {item : Outgoing} {rest : List Outgoing} (idle : c.writer = .idle)
      (front : c.queue = item :: rest) :
      Takes c now .beginData { c with writer := .data item now, queue := rest } [.handed item]
  | pings (idle : c.writer = .idle) (due : c.nextPing ≤ now) :
      Takes c now .beginPing
        { c with writer := .ping now, nextPing := c.pingAfter c.nextPing now } []
  | parts (idle : c.writer = .idle) (stopping : c.stopping = true) :
      Takes c now .beginClose { c with writer := .closing now } []
  | writes {item : Outgoing} {began : Nat} (writing : c.writer = .data item began) :
      Takes c now .completeWrite { c.judge item.ticket .written with writer := .idle } [.wrote item]
  | pinged {began : Nat} (pinging : c.writer = .ping began) :
      Takes c now .completeWrite { c with writer := .idle } [.pinged]
  | fails {a : Action} {fault : WriteFault} {item : Outgoing} {began : Nat}
      (writing : c.writer = .data item began) (how : Spoils c now a fault) :
      Takes c now a { c.judge item.ticket (.failed fault) with writer := .idle } []
  | endsWriter {a : Action} {front : List Event} {fault : WriteFault}
      (how : EndsWriter c now a front fault) :
      Takes c now a (c.endWriter fault).1 (front ++ (c.endWriter fault).2)
  /-- The writer is stopped by force while it writes a frame. -/
  | cutsOff {item : Outgoing} {began : Nat} (writing : c.writer = .data item began) :
      Takes c now .abortWriter
        ((c.judge item.ticket (.failed .loopStopped)).endWriter .loopStopped).1
        ((c.judge item.ticket (.failed .loopStopped)).endWriter .loopStopped).2
  | closes : Takes c now .close c.sever []

variable {c c' : Connection} {now : Nat} {a : Action} {es : List Event}

/-- Only a writer that runs can end. -/
theorem EndsWriter.running {front : List Event} {fault : WriteFault}
    (how : EndsWriter c now a front fault) : c.writer ≠ .ended := by
  cases how with
  | parted closing => simp [closing]
  | spoiled busy _ =>
    rcases busy with pinging | closing
    · simp [pinging]
    · simp [closing]
  | forced running _ => exact running

/-- The writer does not end while it writes a frame. -/
theorem EndsWriter.unwriting {front : List Event} {fault : WriteFault}
    (how : EndsWriter c now a front fault) (item : Outgoing) (began : Nat) :
    c.writer ≠ .data item began := by
  cases how with
  | parted closing => simp [closing]
  | spoiled busy _ =>
    rcases busy with pinging | closing
    · simp [pinging]
    · simp [closing]
  | forced _ unwriting => exact unwriting item began

/-- Somebody stands under the first key that is registered. -/
theorem exists_find?_of_firstOf? {r : Registry} {ids : List CorrelationId} {id : CorrelationId}
    (h : r.firstOf? ids = some id) : ∃ t, r.find? id = some t := by
  unfold Registry.firstOf? at h
  have held := List.find?_some h
  simpa [Option.isSome_iff_exists] using held

/-- The party that is found under a ticket has it. -/
theorem ticket_of_party? {t : Ticket} {p : Party} (h : c.party? t = some p) : p.ticket = t := by
  unfold party? at h
  simpa using List.find?_some h

/-- A dead connection registers nobody. -/
theorem dead_of_register? {purpose : Purpose} {verdict : Verdict} {id : CorrelationId} {t : Ticket}
    (entered : (c.join purpose verdict).register? id t = none) : c.connected = false := by
  unfold register? at entered
  split at entered
  · cases entered
  · rename_i dead
    simpa [join] using dead

namespace Takes

/-- What the reader takes in is a response for somebody or for nobody, a sign of life, or the end. -/
theorem of_receive (inbound : Inbound) :
    Takes c now (.receive inbound) (c.receive now inbound).1 (c.receive now inbound).2 := by
  have taken : ∀ content : List UInt8, inbound.response? = (Response.parse content).toOption →
      Takes c now (.receive inbound) ({ c with reader := .listening now }.take content).1
        ({ c with reader := .listening now }.take content).2 := by
    intro content reads
    unfold take
    cases parsed : Response.parse content with
    | error _ =>
      refine .hears fun response read => ?_
      rw [reads, parsed] at read
      cases read
    | ok response =>
      have read : inbound.response? = some response := by
        rw [reads, parsed]
        rfl
      simp only [deliver]
      cases key : c.registry.firstOf? response.correlationKeys with
      | none =>
        refine .hears fun response' read' => ?_
        rw [read] at read'
        cases read'
        exact key
      | some id =>
        obtain ⟨t, waiting⟩ := exists_find?_of_firstOf? key
        simp only [waiting]
        exact .delivers read key waiting
  cases inbound with
  | text content => exact taken _ rfl
  | binary content => exact taken _ rfl
  | ping => exact .hears nofun
  | pong => exact .hears nofun
  | close => exact .endsReader (.hungUp (.inl rfl))
  | failure => exact .endsReader (.hungUp (.inr rfl))

/-- A write that is completed was that of a frame, a ping or the farewell. -/
theorem of_completeWrite (taken : c.completeWrite = some (c', es)) :
    Takes c now .completeWrite c' es := by
  unfold completeWrite at taken
  split at taken
  · rename_i writing
    obtain ⟨rfl, rfl⟩ := Prod.mk.inj (Option.some.inj taken)
    exact .writes writing
  · rename_i pinging
    obtain ⟨rfl, rfl⟩ := Prod.mk.inj (Option.some.inj taken)
    exact .pinged pinging
  · rename_i closing
    obtain ⟨rfl, rfl⟩ := Prod.mk.inj (Option.some.inj taken)
    exact .endsWriter (.parted closing)
  · cases taken

/-- A write that is spoiled was that of a frame, or the writer ends with it. -/
theorem of_spoilWrite {fault : WriteFault} (how : Spoils c now a fault)
    (taken : c.spoilWrite fault = some (c', es)) : Takes c now a c' es := by
  unfold spoilWrite at taken
  split at taken
  · rename_i writing
    obtain ⟨rfl, rfl⟩ := Prod.mk.inj (Option.some.inj taken)
    exact .fails writing how
  · rename_i pinging
    obtain ⟨rfl, rfl⟩ := Prod.mk.inj (Option.some.inj taken)
    exact .endsWriter (.spoiled (.inl pinging) how)
  · rename_i closing
    obtain ⟨rfl, rfl⟩ := Prod.mk.inj (Option.some.inj taken)
    exact .endsWriter (.spoiled (.inr closing) how)
  · cases taken

/-- A writer that is stopped by force gives up the frame it writes, if it writes one. -/
theorem of_abortWriter (taken : c.abortWriter = some (c', es)) :
    Takes c now .abortWriter c' es := by
  unfold abortWriter at taken
  split at taken
  · cases taken
  · rename_i writing
    obtain ⟨rfl, rfl⟩ := Prod.mk.inj (Option.some.inj taken)
    exact .cutsOff writing
  · rename_i running unwriting
    obtain ⟨rfl, rfl⟩ := Prod.mk.inj (Option.some.inj taken)
    exact .endsWriter (.forced running unwriting)

/-- A call is registered and queued, or refused. -/
theorem of_call (id : CorrelationId) (command : Command) (limit : Duration) :
    Takes c now (.call id command limit) (c.call now id command limit).1
      (c.call now id command limit).2 := by
  unfold call
  cases entered : (c.join (.call id limit now) .awaited).register? id c.nextTicket with
  | none =>
    simp only [entered]
    exact .refuses (dead_of_register? entered) (.inl ⟨id, command, limit, rfl⟩)
  | some r =>
    simp only [entered]
    exact .calls entered

/-- A sender joins and queues its frame, or is refused. -/
theorem of_send (command : Command) :
    Takes c now (.send command) (c.send command).1 (c.send command).2 := by
  unfold send
  split
  · rename_i live
    exact .sends live
  · rename_i dead
    exact .refuses (by simpa using dead) (.inr ⟨command, rfl⟩)

/-- Who waits without sending is registered, or turned away. -/
theorem of_wait (id : CorrelationId) : Takes c now (.wait id) (c.wait id).1 (c.wait id).2 := by
  unfold wait
  cases entered : (c.join (.wait id) .written).register? id c.nextTicket with
  | none =>
    simp only [entered]
    exact .turnsAway (dead_of_register? entered)
  | some r =>
    simp only [entered]
    exact .waits entered

/-- What a party does that is cancelled. -/
theorem of_cancel {t : Ticket} (taken : c.step now (.cancel t) = some (c', es)) :
    Takes c now (.cancel t) c' es := by
  simp only [step, Option.map_eq_some_iff, Prod.mk.injEq] at taken
  obtain ⟨p, found, rfl, rfl⟩ := taken
  obtain rfl := ticket_of_party? found
  exact .drops found

/-- What a party does that looks whether it has ended. -/
theorem of_wake {t : Ticket} (taken : c.step now (.wake t) = some (c', es)) :
    Takes c now (.wake t) c' es := by
  simp only [step, Option.bind_eq_bind, Option.bind_eq_some_iff, Option.some.injEq,
    Prod.mk.injEq] at taken
  obtain ⟨p, found, outcome, ends, rfl, rfl⟩ := taken
  obtain rfl := ticket_of_party? found
  exact .wakes found ends

/-- The read loop ends for silence only while it listens, and only when its deadline has come. -/
theorem of_expireReader (taken : c.step now .expireReader = some (c', es)) :
    Takes c now .expireReader c' es := by
  simp only [step] at taken
  split at taken
  · rename_i listening
    split at taken
    · rename_i due
      obtain ⟨rfl, rfl⟩ := Prod.mk.inj (Option.some.inj taken)
      exact .endsReader (.silence listening due)
    · cases taken
  · cases taken

/-- The read loop stops only when it has been told to. -/
theorem of_stopReader (taken : c.step now .stopReader = some (c', es)) :
    Takes c now .stopReader c' es := by
  simp only [step] at taken
  split at taken
  · split at taken
    · rename_i stopping
      obtain ⟨rfl, rfl⟩ := Prod.mk.inj (Option.some.inj taken)
      exact .endsReader (.told stopping)
    · cases taken
  · cases taken

/-- A frame is begun only by an idle writer, and only the first of the queue. -/
theorem of_beginData (taken : c.step now .beginData = some (c', es)) :
    Takes c now .beginData c' es := by
  simp only [step] at taken
  split at taken
  · rename_i idle front
    obtain ⟨rfl, rfl⟩ := Prod.mk.inj (Option.some.inj taken)
    exact .begins idle front
  · cases taken

/-- A ping is begun only by an idle writer, and only when it is due. -/
theorem of_beginPing (taken : c.step now .beginPing = some (c', es)) :
    Takes c now .beginPing c' es := by
  simp only [step] at taken
  split at taken
  · rename_i idle
    split at taken
    · rename_i due
      obtain ⟨rfl, rfl⟩ := Prod.mk.inj (Option.some.inj taken)
      exact .pings idle due
    · cases taken
  · cases taken

/-- A close frame is begun only by an idle writer, and only when the writer has been told to stop. -/
theorem of_beginClose (taken : c.step now .beginClose = some (c', es)) :
    Takes c now .beginClose c' es := by
  simp only [step] at taken
  split at taken
  · rename_i idle
    split at taken
    · rename_i stopping
      obtain ⟨rfl, rfl⟩ := Prod.mk.inj (Option.some.inj taken)
      exact .parts idle stopping
    · cases taken
  · cases taken

/-- A write expires only when it has begun and its time is over. -/
theorem of_expireWrite (taken : c.step now .expireWrite = some (c', es)) :
    Takes c now .expireWrite c' es := by
  simp only [step, Option.bind_eq_bind, Option.bind_eq_some_iff] at taken
  obtain ⟨began, since, taken⟩ := taken
  split at taken
  · rename_i due
    exact of_spoilWrite (.expired since due) taken
  · cases taken

/-- Whatever action a connection takes, it does one of the things that are listed. -/
theorem of_step (taken : c.step now a = some (c', es)) : Takes c now a c' es := by
  cases a with
  | call id command limit =>
    obtain ⟨rfl, rfl⟩ := Prod.mk.inj (Option.some.inj taken)
    exact of_call id command limit
  | send command =>
    obtain ⟨rfl, rfl⟩ := Prod.mk.inj (Option.some.inj taken)
    exact of_send command
  | wait id =>
    obtain ⟨rfl, rfl⟩ := Prod.mk.inj (Option.some.inj taken)
    exact of_wait id
  | cancel t => exact of_cancel taken
  | wake t => exact of_wake taken
  | receive inbound =>
    simp only [step] at taken
    split at taken
    · obtain ⟨rfl, rfl⟩ := Prod.mk.inj (Option.some.inj taken)
      exact of_receive inbound
    · cases taken
  | expireReader => exact of_expireReader taken
  | stopReader => exact of_stopReader taken
  | beginData => exact of_beginData taken
  | beginPing => exact of_beginPing taken
  | beginClose => exact of_beginClose taken
  | completeWrite => exact of_completeWrite taken
  | failWrite reason => exact of_spoilWrite .broken taken
  | expireWrite => exact of_expireWrite taken
  | close =>
    simp only [step] at taken
    obtain ⟨rfl, rfl⟩ := Prod.mk.inj (Option.some.inj taken)
    exact .closes
  | abortReader =>
    simp only [step] at taken
    split at taken
    · obtain ⟨rfl, rfl⟩ := Prod.mk.inj (Option.some.inj taken)
      exact .endsReader .forced
    · cases taken
  | abortWriter => exact of_abortWriter taken

end Takes

end CallPool.Connection
