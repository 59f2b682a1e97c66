import CallPool.Pool.Slots

/-!
# The actions of a pool

An action is what happens to a pool between two points at which something else may happen.
`Pool.step` says what an action changes and what can be seen of it, and refuses an action that
cannot happen. A dial that succeeds opens its connection and puts it into its slot in one action;
whether the connection was lost on the way is left open, as are the fates of dials and everything
that the connections leave open.
-/

set_option autoImplicit false

namespace CallPool.Pool

/-- What may happen to a pool. -/
inductive Action
  /-- A caller starts a connection round. -/
  | connect
  /-- A caller dials one slot. -/
  | fill (slot : Nat) (token : Option Token)
  /-- A caller runs a reconnector of its own. -/
  | reconnect (slot : Nat) (token : Token) (schedule : Backoff) (orphaned : Bool)
  /-- A caller chooses a connection. -/
  | choose
  /-- A caller sends a command and waits at most so long for its reply. -/
  | call (id : CorrelationId) (command : Command) (limit : Duration)
  /-- A caller sends a command that has no reply. -/
  | send (command : Command)
  /-- A caller closes the pool. -/
  | close
  /-- A caller is dropped. -/
  | cancel (ticket : Ticket)
  /-- A connection takes an action other than a new call. -/
  | connection (generation : Nat) (action : Connection.Action)
  /-- The supervisor takes a notice. -/
  | supervise
  /-- A reconnector has slept enough. -/
  | wakeReconnector (ticket : Ticket)
  /-- A dial opens a connection, which may be lost before it is in its slot. -/
  | dialSucceeds (ticket : Ticket) (lost : Bool)
  | dialFails (ticket : Ticket) (fault : DialFault)
  /-- A dial takes too long. -/
  | dialExpires (ticket : Ticket)
  /-- Connections that are shut down have ended, or are stopped by force. -/
  | finishClose (ticket : Ticket)

/-- Whether an action of a connection starts a party. -/
def startsParty : Connection.Action → Bool
  | .call _ _ _ => true
  | .send _ => true
  | .wait _ => true
  | _ => false

/-- Takes the next ticket. -/
def takeTicket (p : Pool) : Ticket × Pool := (p.nextTicket, { p with nextTicket := p.nextTicket + 1 })

/-- What a caller ends with whose party on a connection ended. A reply that is a refusal is an
error. -/
def outcomeOf : Connection.Outcome → Outcome
  | .ok (.reply response) => response.accepted.map .reply
  | .ok .written => .ok .done
  | .error e => .error e

/-- What an event of a connection means for the pool. -/
def absorb (p : Pool) (generation : Nat) (e : Connection.Event) : Pool × List Event :=
  let seen := Event.connection generation e
  match e with
  | .lost notice =>
    (if p.supervised then { p with notices := p.notices ++ [notice] } else p, [seen])
  | .finished party outcome =>
    match p.relays.find? fun r => r.generation = generation ∧ r.party = party with
    | some r =>
      ({ p with relays := p.relays.filter fun q => q.ticket ≠ r.ticket },
        [seen, .finished r.ticket (outcomeOf outcome)])
    | none => (p, [seen])
  | _ => (p, [seen])

/-- What events of a connection mean for the pool. -/
def absorbAll (p : Pool) (generation : Nat) : List Connection.Event → Pool × List Event
  | [] => (p, [])
  | e :: rest =>
    let (p, first) := p.absorb generation e
    let (p, others) := p.absorbAll generation rest
    (p, first ++ others)

/-- A connection takes an action. -/
def stepConnection (p : Pool) (now generation : Nat) (a : Connection.Action) :
    Option (Pool × List Event) := do
  let c ← p.connections[generation]?
  let (c, events) ← c.step now a
  some ((p.setConnection generation c).absorbAll generation events)

/-- Passes a call on to the least busy connection. -/
def relay (p : Pool) (now : Nat) (a : Connection.Action) : Pool × List Event :=
  let (t, p) := p.takeTicket
  if p.closed then (p, [.finished t (.error .closed)])
  else
    match p.choose? with
    | none => (p, [.finished t (.error .noConnectionAvailable)])
    | some (generation, p) =>
      match p.connections[generation]? with
      | none => (p, [.finished t (.error .noConnectionAvailable)])
      | some c =>
        let p := { p with relays := p.relays ++ [⟨t, generation, c.nextTicket⟩] }
        match p.stepConnection now generation a with
        | none => (p, [])
        | some (p, events) => (p, .relayed t generation c.nextTicket :: events)

/-- A caller starts a connection round, which ends at once if there is nothing to dial. -/
def connect (p : Pool) (now : Nat) : Pool × List Event :=
  let (t, p) := p.takeTicket
  if p.closed then (p, [.finished t (.error .closed)])
  else
    let targets := p.targets
    let round : Round := ⟨t, targets.map fun slot => (slot, none)⟩
    let (p, dialed) := { p with rounds := p.rounds ++ [round] }.dialAll now (.round t) targets
    let (p, events) := p.settleRound now t
    (p, dialed ++ events)

/-- A reconnector has slept enough, or never had an attempt. -/
def wakeReconnector (p : Pool) (now : Nat) (t : Ticket) : Option (Pool × List Event) := do
  let r ← p.reconnectors.find? fun r => r.ticket = t
  match r.phase with
  | .dialing => none
  | .spent => some (p.giveUp r)
  | .sleeping due =>
    if due ≤ now then
      if r.orphaned || p.closed then some (p.endReconnector r false)
      else
        let next := { r with phase := .dialing }
        let reconnectors := p.reconnectors.map fun q => if q.ticket = t then next else q
        some ({ p with reconnectors := reconnectors }.dial now r.slot (.reconnector t))
    else none

/-- A dial opens a connection. -/
def dialSucceeds (p : Pool) (now : Nat) (t : Ticket) (lost : Bool) :
    Option (Pool × List Event) := do
  let d ← p.dials.find? fun d => d.ticket = t
  let generation := p.connections.length
  let fresh := Connection.opened d.slot generation p.options now
  let (c, early) := if lost then fresh.endReader else (fresh, [])
  let (p, noticed) := { p with connections := p.connections ++ [c] }.absorbAll generation early
  let (p, result, placed) := p.install d.slot generation (p.tokenOfDial? d)
  let (p, told) := p.conclude now d result
  some (p, [.opened d.slot generation] ++ noticed ++ placed ++ told)

/-- A dial ends without a connection. -/
def dialEnds (p : Pool) (now : Nat) (t : Ticket) (error : Dial → Error) :
    Option (Pool × List Event) := do
  let d ← p.dials.find? fun d => d.ticket = t
  some (p.conclude now d (.error (error d)))

/-- A caller closes the pool: all slots are emptied, reconnectors and the supervisor are stopped,
and the connections are shut down. -/
def close (p : Pool) (now : Nat) : Pool × List Event :=
  let (t, p) := p.takeTicket
  let generations := p.slots.filterMap id
  let stopped := (p.reconnectors.filter fun r => r.owned).map fun r => r.ticket
  let p := { p with
    closed := true
    supervised := false
    notices := []
    slots := p.slots.map fun _ => none
    reconnecting := []
    reconnectors := p.reconnectors.filter fun r => !r.owned
    dials := p.dials.filter fun d => !stopped.any fun s => d.owner = .reconnector s
    connections := p.connections.mapIdx fun i c => if i ∈ generations then c.sever else c }
  if generations.isEmpty then (p, [.finished t (.ok .done)])
  else
    ({ p with closings := p.closings ++ [⟨t, generations, now + p.options.writeWait.nanos⟩] }, [])

/-- Whether the tasks of a connection have ended. -/
def hasEnded (c : Connection) : Bool :=
  match c.reader, c.writer with
  | .ended, .ended => true
  | _, _ => false

/-- Whether the tasks of all connections that are shut down have ended. -/
def allEnded (p : Pool) (generations : List Nat) : Bool :=
  generations.all fun g => (p.connections[g]?).all hasEnded

/-- The tasks of some connections are stopped by force. -/
def force (p : Pool) (generations : List Nat) : Pool :=
  generations.foldl (fun p g => p.modifyConnection g Connection.discard) p

/-- Connections that are shut down have ended, or are stopped by force. -/
def finishClose (p : Pool) (now : Nat) (t : Ticket) : Option (Pool × List Event) := do
  let g ← p.closings.find? fun g => g.ticket = t
  let ended := p.allEnded g.generations
  if ended || decide (g.deadline ≤ now) then
    let p := if ended then p else p.force g.generations
    some ({ p with closings := p.closings.filter fun q => q.ticket ≠ t },
      [.finished t (.ok .done)])
  else none

/-- Whether a dial is made for a caller. -/
def Dial.isFor (d : Dial) (t : Ticket) : Bool :=
  match d.owner with
  | .round owner => owner = t
  | .reconnector owner => owner = t
  | .caller owner _ => owner = t

/-- Whether a ticket is that of a reconnector that the pool started. -/
def owns (p : Pool) (t : Ticket) : Bool := p.reconnectors.any fun r => r.owned && r.ticket = t

/-- A caller is dropped, with all that it has under way. -/
def cancel (p : Pool) (now : Nat) (t : Ticket) : Pool × List Event :=
  let p := { p with
    dials := p.dials.filter fun d => !d.isFor t
    rounds := p.rounds.filter fun r => r.ticket ≠ t
    reconnectors := p.reconnectors.filter fun r => r.ticket ≠ t }
  let p := (match p.closings.find? fun g => g.ticket = t with
    | some g => { p.force g.generations with closings := p.closings.filter fun q => q.ticket ≠ t }
    | none => p)
  match p.relays.find? fun r => r.ticket = t with
  | some r =>
    let p := { p with relays := p.relays.filter fun q => q.ticket ≠ t }
    (p.stepConnection now r.generation (.cancel r.party)).getD (p, [])
  | none => (p, [])

/-- What an action changes, and what can be seen of it. -/
def step (p : Pool) (now : Nat) : Action → Option (Pool × List Event)
  | .connect => some (p.connect now)
  | .fill slot token =>
    let (t, p) := p.takeTicket
    some (p.dial now slot (.caller t token))
  | .reconnect slot token schedule orphaned =>
    some (p.addReconnector now slot token schedule false orphaned)
  | .choose => some ((p.choose?.map Prod.snd).getD p, [])
  | .call id command limit => some (p.relay now (.call id command limit))
  | .send command => some (p.relay now (.send command))
  | .close => some (p.close now)
  | .cancel t => if p.owns t then none else some (p.cancel now t)
  | .connection generation a =>
    if startsParty a then none else p.stepConnection now generation a
  | .supervise =>
    match p.supervised, p.notices with
    | true, n :: rest => some ({ p with notices := rest }.handleLoss now n)
    | _, _ => none
  | .wakeReconnector t => p.wakeReconnector now t
  | .dialSucceeds t lost => p.dialSucceeds now t lost
  | .dialFails t fault => p.dialEnds now t fun d => .connect d.slot fault
  | .dialExpires t => do
    let d ← p.dials.find? fun d => d.ticket = t
    if d.began + p.options.connectTimeout.nanos ≤ now then
      p.dialEnds now t fun _ => .connectionTimeout p.options.connectTimeout.millis
    else none
  | .finishClose t => p.finishClose now t

end CallPool.Pool
