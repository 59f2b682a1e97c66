import CallPool.Proofs.Connection.Taking

/-!
# What an action does to those who wait

Of all that a connection holds, the parties with their purposes and replies, the registry, the
flag and the ticket counter say who waits for what. Most actions leave them alone. The others do
one of seven things, listed in `Effect`: they close the connection or lose it, register a party,
add a sender, refuse a party, let one leave, or hand a response over. `Effect.of_step` says that
each action that a connection takes has one of these effects.
-/

set_option autoImplicit false

namespace CallPool.Connection

/-- Whether an event only tells of frames on their way out. -/
def Event.isTraffic : Event → Bool
  | .queued _ => true
  | .handed _ => true
  | .wrote _ => true
  | .pinged => true
  | .closeSent => true
  | _ => false

/-- The notice that an event carries. -/
def Event.notice? : Event → Option Notice
  | .lost notice => some notice
  | _ => none

/-- A party as far as its reply goes. -/
structure Wait where
  ticket : Ticket
  purpose : Purpose
  reply : Reply

/-- What a party waits for, and what became of that. -/
def Party.wait (p : Party) : Wait := ⟨p.ticket, p.purpose, p.reply⟩

/-- The parties of a connection as far as their replies go. -/
def waits (c : Connection) : List Wait := c.parties.map Party.wait

/-- A wait that comes to nothing, if it is one of some. -/
def Wait.abandonIf (ts : List Ticket) (w : Wait) : Wait :=
  if w.ticket ∈ ts then
    { w with reply := match w.reply with | .awaited => .abandoned | reply => reply }
  else w

/-- A wait that is over, if it is the one for which there is a response. -/
def Wait.answer (t : Ticket) (response : Response) (w : Wait) : Wait :=
  if w.ticket = t then { w with reply := .delivered response } else w

/-- Giving up replies is done to the waiters of those tickets. -/
@[simp] theorem waits_abandon (c : Connection) (ts : List Ticket) :
    (c.abandon ts).waits = c.waits.map (Wait.abandonIf ts) := by
  unfold abandon waits
  rw [List.map_map, List.map_map]
  apply List.map_congr_left
  intro p _
  by_cases held : p.ticket ∈ ts
  · cases reply : p.reply <;> simp [Party.wait, Wait.abandonIf, Party.abandon, held, reply]
  · simp [Party.wait, Wait.abandonIf, held]

/-- A response is handed to the waiter with that ticket. -/
@[simp] theorem waits_handOver (c : Connection) (id : CorrelationId) (t : Ticket)
    (response : Response) : (c.handOver id t response).waits = c.waits.map (Wait.answer t response) := by
  unfold handOver update waits
  rw [List.map_map, List.map_map]
  apply List.map_congr_left
  intro p _
  by_cases mine : p.ticket = t <;> simp [Party.wait, Wait.answer, mine]

/-- A connection that is severed gives up the replies of all that are registered. -/
@[simp] theorem waits_sever (c : Connection) :
    c.sever.waits = c.waits.map (Wait.abandonIf c.registry.tickets) :=
  waits_abandon c c.registry.tickets

/-- A party that joins awaits its reply. -/
@[simp] theorem waits_join (c : Connection) (purpose : Purpose) (verdict : Verdict) :
    (c.join purpose verdict).waits = c.waits ++ [⟨c.nextTicket, purpose, .awaited⟩] := by
  simp [join, waits, Party.wait]

/-- One connection is like another as far as replies go. -/
structure SameWaits (c c' : Connection) : Prop where
  waits : c'.waits = c.waits
  registry : c'.registry = c.registry
  connected : c'.connected = c.connected
  nextTicket : c'.nextTicket = c.nextTicket
  slot : c'.slot = c.slot
  generation : c'.generation = c.generation

namespace SameWaits

/-- A connection is like itself. -/
theorem refl (c : Connection) : SameWaits c c := ⟨rfl, rfl, rfl, rfl, rfl, rfl⟩

/-- What is like a connection that is like another is like that. -/
theorem trans {c c' c'' : Connection} (h : SameWaits c c') (h' : SameWaits c' c'') :
    SameWaits c c'' :=
  ⟨h'.waits.trans h.waits, h'.registry.trans h.registry, h'.connected.trans h.connected,
    h'.nextTicket.trans h.nextTicket, h'.slot.trans h.slot, h'.generation.trans h.generation⟩

/-- A verdict on a write does not matter to the replies. -/
theorem judge (c : Connection) (t : Ticket) (v : Verdict) : SameWaits c (c.judge t v) := by
  refine ⟨?_, rfl, rfl, rfl, rfl, rfl⟩
  unfold Connection.judge update Connection.waits
  rw [List.map_map]
  apply List.map_congr_left
  intro p _
  by_cases mine : p.ticket = t <;> simp [mine, Party.wait]

/-- Verdicts on many writes do not matter to the replies. -/
theorem judgeAll (c : Connection) (items : List Outgoing) (v : Verdict) :
    SameWaits c (c.judgeAll items v) := by
  induction items generalizing c with
  | nil => exact refl c
  | cons item items ih => exact (judge c item.ticket v).trans (ih (c.judge item.ticket v))

/-- Queuing a frame does not matter to the replies, whether there is a writer or not. -/
theorem enqueue (c : Connection) (item : Outgoing) : SameWaits c (c.enqueue item).1 := by
  unfold Connection.enqueue
  split
  · exact judge c item.ticket _
  · exact ⟨rfl, rfl, rfl, rfl, rfl, rfl⟩

/-- Connections that are alike are alike when they are severed. -/
theorem sever {c c' : Connection} (h : SameWaits c c') : SameWaits c.sever c'.sever := by
  refine ⟨?_, rfl, rfl, h.nextTicket, h.slot, h.generation⟩
  rw [waits_sever, waits_sever, h.waits, h.registry]

/-- Connections that are alike are alike when a response is handed over in both. -/
theorem handOver {c c' : Connection} (h : SameWaits c c') (id : CorrelationId) (t : Ticket)
    (response : Response) : SameWaits (c.handOver id t response) (c'.handOver id t response) := by
  refine ⟨?_, ?_, h.connected, h.nextTicket, h.slot, h.generation⟩
  · rw [waits_handOver, waits_handOver, h.waits]
  · show c'.registry.erase id = c.registry.erase id
    rw [h.registry]

end SameWaits

/-- All that is told of queuing is traffic. -/
theorem isTraffic_of_mem_enqueue {c : Connection} {item : Outgoing} {e : Event}
    (h : e ∈ (c.enqueue item).2) : e.isTraffic = true := by
  unfold enqueue at h
  split at h
  · cases h
  · rw [List.mem_singleton.1 h]
    rfl

/-- What an action does to those who wait. -/
inductive Effect (c : Connection) (now : Nat) (c' : Connection) : Action → List Event → Prop
  /-- It does nothing to them, and if it brought a response then for none of them. -/
  | traffic {a : Action} {es : List Event} (same : SameWaits c c')
      (quiet : ∀ e ∈ es, e.isTraffic = true)
      (unmatched : ∀ inbound response, a = .receive inbound → inbound.response? = some response →
        c.registry.firstOf? response.correlationKeys = none)
      (stays : ∀ t, a ≠ .cancel t) :
      Effect c now c' a es
  | closed (same : c' = c.sever) : Effect c now c' .close []
  | lost {a : Action} {es : List Event} (live : c.connected = true) (same : SameWaits c.sever c')
      (quiet : ∀ e ∈ es, e.isTraffic = true) (stays : ∀ t, a ≠ .cancel t) :
      Effect c now c' a (es ++ [.lost c.notice])
  | registered {a : Action} {es : List Event} {purpose : Purpose} {verdict : Verdict}
      {id : CorrelationId} {r : Connection} (waiting : purpose.id? = some id)
      (starts : (∃ command limit, a = .call id command limit) ∨ a = .wait id)
      (entered : (c.join purpose verdict).register? id c.nextTicket = some r)
      (same : SameWaits r c') (quiet : ∀ e ∈ es, e.isTraffic = true) :
      Effect c now c' a (.registered c.nextTicket id :: es)
  | sent {command : Command} {es : List Event} (live : c.connected = true)
      (same : SameWaits (c.join .send .awaited) c') (quiet : ∀ e ∈ es, e.isTraffic = true) :
      Effect c now c' (.send command) es
  | refused {a : Action} {e : Event} (dead : c.connected = false)
      (same : c' = { c with nextTicket := c.nextTicket + 1 })
      (told : e = .finished c.nextTicket (.error .noConnectionAvailable) ∨ e = .refused c.nextTicket)
      (stays : ∀ t, a ≠ .cancel t) :
      Effect c now c' a [e]
  | left {a : Action} {es : List Event} {p : Party} (found : c.party? p.ticket = some p)
      (same : c' = c.leave p)
      (how : a = .cancel p.ticket ∧ es = [] ∨ ∃ outcome, a = .wake p.ticket ∧
        p.ending? c.slot now = some outcome ∧ es = [.finished p.ticket outcome]) :
      Effect c now c' a es
  | delivered {inbound : Inbound} {response : Response} {id : CorrelationId} {t : Ticket}
      (read : inbound.response? = some response)
      (key : c.registry.firstOf? response.correlationKeys = some id)
      (waiting : c.registry.find? id = some t) (same : SameWaits (c.handOver id t response) c') :
      Effect c now c' (.receive inbound) [.delivered t response]

/-! ## Each action has an effect -/

variable {c : Connection} {now : Nat} {a : Action}

/-- Whether an action brings no response and drops nobody. -/
def Action.Spares (a : Action) : Prop :=
  (∀ inbound, a = .receive inbound → inbound.response? = none) ∧ ∀ t, a ≠ .cancel t

/-- What ends the reader brings no response and drops nobody. -/
theorem EndsReader.spares (how : EndsReader c now a) : a.Spares := by
  cases how with
  | hungUp gone =>
    refine ⟨fun inbound same => ?_, nofun⟩
    obtain rfl := Action.receive.inj same
    rcases gone with rfl | rfl
    · rfl
    · rfl
  | silence _ _ => exact ⟨nofun, nofun⟩
  | told _ => exact ⟨nofun, nofun⟩
  | forced => exact ⟨nofun, nofun⟩

/-- What spoils a write brings no response and drops nobody. -/
theorem Spoils.spares {fault : WriteFault} (how : Spoils c now a fault) : a.Spares := by
  cases how with
  | broken => exact ⟨nofun, nofun⟩
  | expired _ _ => exact ⟨nofun, nofun⟩

/-- What ends the writer brings no response and drops nobody. -/
theorem EndsWriter.spares {front : List Event} {fault : WriteFault}
    (how : EndsWriter c now a front fault) : a.Spares := by
  cases how with
  | parted _ => exact ⟨nofun, nofun⟩
  | spoiled _ how => exact how.spares
  | forced _ _ => exact ⟨nofun, nofun⟩

/-- Only traffic is told before the writer ends. -/
theorem EndsWriter.quiet {front : List Event} {fault : WriteFault}
    (how : EndsWriter c now a front fault) : ∀ e ∈ front, e.isTraffic = true := by
  cases how with
  | parted _ => simp [Event.isTraffic]
  | spoiled _ _ => simp
  | forced _ _ => simp

/-- An action that brings no response, drops nobody and leaves the replies alone is traffic. -/
theorem Effect.of_traffic {c' : Connection} {es : List Event} (same : SameWaits c c')
    (quiet : ∀ e ∈ es, e.isTraffic = true) (spares : a.Spares) : Effect c now c' a es := by
  refine .traffic same quiet ?_ spares.2
  intro inbound response is_receive read
  rw [spares.1 inbound is_receive] at read
  cases read

/-- The loss of what is left of a connection is a loss, or nothing if the connection was dead. -/
theorem Effect.of_lose (d : Connection) (es : List Event) (same : SameWaits c d)
    (quiet : ∀ e ∈ es, e.isTraffic = true) (spares : a.Spares) :
    Effect c now d.lose.1 a (es ++ d.lose.2) := by
  unfold lose
  by_cases live : c.connected = true
  · rw [if_pos (by rw [same.connected, live])]
    have told : d.notice = c.notice := by
      unfold notice
      rw [same.slot, same.generation]
    rw [told]
    exact .lost live same.sever quiet spares.2
  · rw [if_neg (by rw [same.connected]; exact live), List.append_nil]
    exact .of_traffic same quiet spares

/-- The end of the writer is a loss, or nothing, behind the traffic that went before. -/
theorem Effect.of_endWriter {d : Connection} (es : List Event) (fault : WriteFault)
    (same : SameWaits c d) (quiet : ∀ e ∈ es, e.isTraffic = true) (spares : a.Spares) :
    Effect c now (d.endWriter fault).1 a (es ++ (d.endWriter fault).2) := by
  unfold endWriter
  apply Effect.of_lose _ _ _ quiet spares
  have judged := SameWaits.judgeAll d d.queue (.failed fault)
  exact same.trans ⟨judged.waits, judged.registry, judged.connected, judged.nextTicket, judged.slot,
    judged.generation⟩

/-- Each action that a connection takes has an effect on those who wait. -/
theorem Effect.of_step {c' : Connection} {es : List Event} (taken : c.step now a = some (c', es)) :
    Effect c now c' a es := by
  have still : ∀ d : Connection, d = { c with
      queue := d.queue, reader := d.reader, writer := d.writer, nextPing := d.nextPing } →
        SameWaits c d := by
    intro d same
    rw [same]
    exact ⟨rfl, rfl, rfl, rfl, rfl, rfl⟩
  have judged : ∀ (t : Ticket) (v : Verdict), SameWaits c { c.judge t v with writer := .idle } := by
    intro t v
    have judges := SameWaits.judge c t v
    exact ⟨judges.waits, rfl, rfl, rfl, rfl, rfl⟩
  cases Takes.of_step taken with
  | @calls _ command limit r entered =>
    exact .registered rfl (.inl ⟨command, limit, rfl⟩) entered (.enqueue r _)
      fun e member => isTraffic_of_mem_enqueue member
  | sends live => exact .sent live (.enqueue _ _) fun e member => isTraffic_of_mem_enqueue member
  | waits entered => exact .registered rfl (.inr rfl) entered (.refl _) (by simp)
  | refuses dead asks =>
    refine .refused dead rfl (.inl rfl) ?_
    rintro t rfl
    rcases asks with ⟨_, _, _, same⟩ | ⟨_, same⟩
    · cases same
    · cases same
  | turnsAway dead => exact .refused dead rfl (.inr rfl) nofun
  | drops found => exact .left found rfl (.inl ⟨rfl, rfl⟩)
  | wakes found ends => exact .left found rfl (.inr ⟨_, rfl, ends, rfl⟩)
  | hears unmatched =>
    refine .traffic (still _ rfl) (by simp) ?_ nofun
    intro inbound response same read
    obtain rfl := Action.receive.inj same
    exact unmatched response read
  | delivers read key waiting =>
    exact .delivered read key waiting ((still { c with reader := .listening now } rfl).handOver _ _ _)
  | endsReader how => exact .of_lose _ [] (still { c with reader := .ended } rfl) (by simp) how.spares
  | begins _ _ => exact .of_traffic (still _ rfl) (by simp [Event.isTraffic]) ⟨nofun, nofun⟩
  | pings _ _ => exact .of_traffic (still _ rfl) (by simp) ⟨nofun, nofun⟩
  | parts _ _ => exact .of_traffic (still _ rfl) (by simp) ⟨nofun, nofun⟩
  | writes _ => exact .of_traffic (judged _ _) (by simp [Event.isTraffic]) ⟨nofun, nofun⟩
  | pinged _ => exact .of_traffic (still _ rfl) (by simp [Event.isTraffic]) ⟨nofun, nofun⟩
  | fails _ how => exact .of_traffic (judged _ _) (by simp) how.spares
  | endsWriter how => exact .of_endWriter _ _ (.refl c) how.quiet how.spares
  | cutsOff _ => exact .of_endWriter [] _ (.judge c _ _) (by simp) ⟨nofun, nofun⟩
  | closes => exact .closed rfl

end CallPool.Connection
