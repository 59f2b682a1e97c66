import CallPool.Pool.Basic

/-!
# Filling the slots

A connection that was opened goes to its slot if the pool is open, the connection still lives and
the slot does not hold a live one already; otherwise it is discarded. A reconnector fills its slot
again: it dials after growing delays until a connection is there or its attempts are spent. A
connection round ends with the last of its dials, and hands the slots that failed to reconnectors.

Whoever puts a connection into a slot releases the reconnector whose token it carries, in the same
step, so that a later loss finds the slot free for a new one.
-/

set_option autoImplicit false

namespace CallPool.Pool

/-- Replaces a connection. -/
def setConnection (p : Pool) (generation : Nat) (c : Connection) : Pool :=
  { p with connections := p.connections.set generation c }

/-- Changes a connection, if there is one with that generation. -/
def modifyConnection (p : Pool) (generation : Nat) (f : Connection → Connection) : Pool :=
  match p.connections[generation]? with
  | some c => p.setConnection generation (f c)
  | none => p

/-- Forgets the reconnector of a slot if it has the given token. -/
def release (p : Pool) (slot : Nat) (token : Option Token) : Pool :=
  match token with
  | none => p
  | some token => { p with reconnecting := p.reconnecting.filter fun e => e ≠ (slot, token) }

/-- Puts a connection that was opened into a slot, or discards it. -/
def install (p : Pool) (slot generation : Nat) (token : Option Token) :
    Pool × Except Error Unit × List Event :=
  let without := p.modifyConnection generation Connection.discard
  if p.closed then (without, .error .closed, [.discarded slot generation])
  else if !(p.connections[generation]?).any fun c => c.connected then
    (without, .error (.connect slot .lostBeforeInstall), [.discarded slot generation])
  else if p.slots.length ≤ slot then
    (without, .error (.protocol (.slotOutOfRange slot)), [.discarded slot generation])
  else if p.isLive slot then
    (without.release slot token, .ok (), [.discarded slot generation])
  else
    let previous := (p.slots[slot]?).join
    let placed := { p with slots := p.slots.set slot (some generation) }.release slot token
    (match previous with
      | some old => placed.modifyConnection old Connection.sever
      | none => placed,
      .ok (), [.installed slot generation])

/-- What a reconnector does before its attempt `attempt`. -/
def phaseAt (schedule : Backoff) (attempt now : Nat) : Phase :=
  if attempt < schedule.attempts then .sleeping (now + (schedule.delay attempt).nanos) else .spent

/-- Adds a reconnector. -/
def addReconnector (p : Pool) (now slot : Nat) (token : Token) (schedule : Backoff)
    (owned orphaned : Bool) : Pool × List Event :=
  let r : Reconnector :=
    ⟨p.nextTicket, slot, token, schedule, 0, phaseAt schedule 0 now, owned, orphaned⟩
  ({ p with reconnectors := p.reconnectors ++ [r], nextTicket := p.nextTicket + 1 },
    [.recovering r])

/-- Starts a reconnector for a slot, unless it has one. Each attempt to start one takes a token. -/
def recover (p : Pool) (now slot : Nat) : Pool × List Event :=
  if p.closed then (p, [])
  else
    let token := p.nextToken
    let p := { p with nextToken := token + 1 }
    if (p.tokenOf? slot).isSome then (p, [])
    else
      { p with reconnecting := p.reconnecting ++ [(slot, token)] }.addReconnector now slot token
        p.options.backoff true false

/-- The supervisor takes a notice. One that is not about the connection in its slot is stale. -/
def handleLoss (p : Pool) (now : Nat) (n : Notice) : Pool × List Event :=
  if p.closed then (p, [])
  else if (p.slots[n.slot]?).join = some n.generation then p.recover now n.slot
  else (p, [])

/-- Begins a dial. -/
def dial (p : Pool) (now slot : Nat) (owner : Owner) : Pool × List Event :=
  let d : Dial := ⟨p.nextTicket, slot, owner, now⟩
  ({ p with dials := p.dials ++ [d], nextTicket := p.nextTicket + 1 }, [.dialed d])

/-- Begins a dial for each of some slots. -/
def dialAll (p : Pool) (now : Nat) (owner : Owner) : List Nat → Pool × List Event
  | [] => (p, [])
  | slot :: rest =>
    let (p, first) := p.dial now slot owner
    let (p, others) := p.dialAll now owner rest
    (p, first ++ others)

/-- A reconnector ends. One that the pool started and that has not filled its slot releases it. -/
def endReconnector (p : Pool) (r : Reconnector) (filled : Bool) : Pool × List Event :=
  let p := { p with reconnectors := p.reconnectors.filter fun q => q.ticket ≠ r.ticket }
  if r.owned then
    ((if filled then p else p.release r.slot (some r.token)), [.recovered r filled])
  else (p, [.recovered r filled, .finished r.ticket (.ok (.filled filled))])

/-- A reconnector without an attempt left gives up. -/
def giveUp (p : Pool) (r : Reconnector) : Pool × List Event :=
  let (p, events) := p.endReconnector r false
  (p, .gaveUp r :: events)

/-- A reconnector whose dial ended has filled its slot, goes to sleep again, or gives up. -/
def advanceReconnector (p : Pool) (now : Nat) (r : Reconnector) (result : Except Error Unit) :
    Pool × List Event :=
  match result with
  | .ok () => p.endReconnector r true
  | .error _ =>
    let attempt := r.attempt + 1
    let next := { r with attempt := attempt, phase := phaseAt r.schedule attempt now }
    if next.phase = .spent then p.giveUp next
    else
      ({ p with
          reconnectors := p.reconnectors.map fun q => if q.ticket = r.ticket then next else q },
        [])

/-- Starts reconnectors for some slots. -/
def recoverAll (p : Pool) (now : Nat) : List Nat → Pool × List Event
  | [] => (p, [])
  | slot :: rest =>
    let (p, first) := p.recover now slot
    let (p, others) := p.recoverAll now rest
    (p, first ++ others)

/-- Ends a connection round if all its dials have ended: the slots that failed get reconnectors, and
the caller gets the number of live connections. -/
def settleRound (p : Pool) (now : Nat) (t : Ticket) : Pool × List Event :=
  match p.rounds.find? fun r => r.ticket = t with
  | none => (p, [])
  | some r =>
    if r.results.all fun e => e.2.isSome then
      let failed := (r.results.filter fun e => e.2.any fun res => !res.isOk).map Prod.fst
      let (p, events) :=
        { p with rounds := p.rounds.filter fun q => q.ticket ≠ t }.recoverAll now failed
      (p, events ++ [.finished t (.ok (.live p.liveCount))])
    else (p, [])

/-- Tells the owner of a dial how it ended. -/
def conclude (p : Pool) (now : Nat) (d : Dial) (result : Except Error Unit) : Pool × List Event :=
  let p := { p with dials := p.dials.filter fun e => e.ticket ≠ d.ticket }
  let ended := Event.dialEnded d result
  match d.owner with
  | .caller t _ => (p, [ended, .finished t (result.map fun _ => .done)])
  | .round t =>
    let rounds := p.rounds.map fun r =>
      if r.ticket = t then
        { r with results := r.results.map fun e => if e.1 = d.slot then (e.1, some result) else e }
      else r
    let (p, events) := { p with rounds := rounds }.settleRound now t
    (p, ended :: events)
  | .reconnector t =>
    match p.reconnectors.find? fun r => r.ticket = t with
    | some r =>
      let (p, events) := p.advanceReconnector now r result
      (p, ended :: events)
    | none => (p, [ended])

/-- The token that a dial carries. -/
def tokenOfDial? (p : Pool) (d : Dial) : Option Token :=
  match d.owner with
  | .caller _ token => token
  | .round _ => none
  | .reconnector t => (p.reconnectors.find? fun r => r.ticket = t).map fun r => r.token

end CallPool.Pool
