import CallPool.Connection.Schedule

/-!
# A pool

A pool has a fixed number of slots, each of which is empty or holds a connection, live or dead. It
opens connections by dials. A dial belongs to a connection round, to a reconnector or to a caller.
A supervisor turns the notices of lost connections into reconnectors, at most one for a slot at a
time: the pool remembers for each such slot the token of its reconnector.

This module holds the state of a pool, and what it can be asked without changing it.
-/

set_option autoImplicit false

namespace CallPool

/-- The number of a reconnector. -/
abbrev Token := Nat

namespace Pool

/-- For whom a dial is made. -/
inductive Owner
  | round (ticket : Ticket)
  | reconnector (ticket : Ticket)
  | caller (ticket : Ticket) (token : Option Token)
  deriving DecidableEq

/-- A dial that is under way. -/
structure Dial where
  ticket : Ticket
  slot : Nat
  owner : Owner
  began : Nat
  deriving DecidableEq

/-- How the dials of a connection round ended, for each slot that is dialed. -/
structure Round where
  ticket : Ticket
  results : List (Nat × Option (Except Error Unit))

/-- What a reconnector does. -/
inductive Phase
  | sleeping (due : Nat)
  | dialing
  /-- No attempt is left. -/
  | spent
  deriving DecidableEq

/-- What fills a lost slot again. -/
structure Reconnector where
  ticket : Ticket
  slot : Nat
  token : Token
  schedule : Backoff
  /-- How many dials have ended. -/
  attempt : Nat
  phase : Phase
  /-- Whether the pool started it, and stops it. -/
  owned : Bool
  /-- Whether its pool is gone. -/
  orphaned : Bool
  deriving DecidableEq

/-- A call that the pool passed on to a connection: the caller, and the party there. -/
structure Relay where
  ticket : Ticket
  generation : Nat
  party : Ticket
  deriving DecidableEq

/-- Connections that are shut down, and when their tasks are stopped by force. -/
structure Closing where
  ticket : Ticket
  generations : List Nat
  deadline : Nat
  deriving DecidableEq

/-- What a caller gets if all goes well. -/
inductive Value
  /-- The number of live connections. -/
  | live (count : Nat)
  | done
  /-- Whether a slot was filled. -/
  | filled (yes : Bool)
  | reply (response : Response)

/-- What a caller ends with. -/
abbrev Outcome := Except Error Value

/-- What a pool does that others can see. -/
inductive Event
  | dialed (dial : Dial)
  /-- A connection is opened for a slot. -/
  | opened (slot generation : Nat)
  /-- A connection is put into its slot. -/
  | installed (slot generation : Nat)
  /-- A connection is closed because it has no slot to go to. -/
  | discarded (slot generation : Nat)
  | dialEnded (dial : Dial) (result : Except Error Unit)
  /-- A reconnector is started. -/
  | recovering (reconnector : Reconnector)
  /-- A reconnector has no attempt left. -/
  | gaveUp (reconnector : Reconnector)
  /-- A reconnector ends, and whether it filled its slot. -/
  | recovered (reconnector : Reconnector) (filled : Bool)
  /-- A call is passed on to a connection. -/
  | relayed (ticket : Ticket) (generation : Nat) (party : Ticket)
  | connection (generation : Nat) (event : Connection.Event)
  | finished (ticket : Ticket) (outcome : Outcome)

end Pool

/-- A pool of connections. A connection is known by its generation, which is its place in the list
of all that were ever opened. -/
structure Pool where
  options : Options
  /-- The connection in each slot. -/
  slots : List (Option Nat)
  connections : List Connection
  /-- The place of the next choice among connections that are equally busy. -/
  cursor : UInt64
  /-- The slots that have a reconnector, with its token. -/
  reconnecting : List (Nat × Token)
  nextToken : Token
  /-- The notices that the supervisor has not taken yet, the oldest first. -/
  notices : List Notice
  /-- Whether the supervisor runs. -/
  supervised : Bool
  closed : Bool
  dials : List Pool.Dial
  rounds : List Pool.Round
  reconnectors : List Pool.Reconnector
  relays : List Pool.Relay
  closings : List Pool.Closing
  nextTicket : Ticket

namespace Pool

/-- The most slots that there can be: each takes eight bytes, and one allocation has fewer than `2^63`. -/
def maxSlots : Nat := (Nat.pow 2 63 - 1) / 8

/-- Why no pool is made. -/
inductive Failure
  | error (e : Error)
  /-- There can be no room for the slots, and whoever makes the pool breaks down. -/
  | panic

/-- A pool with these options, if they pass all checks and there can be room for its slots. Nothing is
dialed yet. -/
def new (options : Options) : Except Failure Pool := do
  options.validate.mapError .error
  if maxSlots < options.poolSize then .error .panic
  .ok {
    options := options
    slots := List.replicate options.poolSize none
    connections := []
    cursor := 0
    reconnecting := []
    nextToken := 1
    notices := []
    supervised := true
    closed := false
    dials := []
    rounds := []
    reconnectors := []
    relays := []
    closings := []
    nextTicket := 0 }

/-- The connection in a slot, live or not. -/
def slotConnection? (p : Pool) (slot : Nat) : Option Connection := do
  let generation ← (← p.slots[slot]?)
  p.connections[generation]?

/-- Whether a slot holds a live connection. -/
def isLive (p : Pool) (slot : Nat) : Bool := (p.slotConnection? slot).any fun c => c.connected

/-- The connections in the slots, in order. -/
def held (p : Pool) : List Connection :=
  p.slots.filterMap fun s => s.bind fun generation => p.connections[generation]?

/-- How many slots hold a live connection. -/
def liveCount (p : Pool) : Nat := p.held.countP fun c => c.connected

/-- Whether any slot holds a live connection. -/
def isConnected (p : Pool) : Bool := p.held.any fun c => c.connected

/-- How many parties wait for a reply, in all slots. -/
def pendingCount (p : Pool) : Nat := p.held.foldr (fun c n => c.pending + n) 0

/-- How many slots have a reconnector. -/
def reconnectingCount (p : Pool) : Nat := p.reconnecting.length

/-- The token of the reconnector of a slot. -/
def tokenOf? (p : Pool) (slot : Nat) : Option Token :=
  (p.reconnecting.find? fun e => e.1 = slot).map Prod.snd

/-- The slots that a connection round dials: those that neither are live nor have a reconnector. -/
def targets (p : Pool) : List Nat :=
  (List.range p.slots.length).filter fun slot => (p.tokenOf? slot).isNone && !p.isLive slot

/-! ## The least busy connection -/

/-- The live connections in slot order, with their loads. -/
def loads (p : Pool) : List (Nat × Nat) :=
  p.slots.filterMap fun s => do
    let generation ← s
    let load ← (← p.connections[generation]?).load
    some (generation, load)

/-- The live connections that are least busy, in slot order. -/
def tied (p : Pool) : List Nat :=
  match (p.loads.map Prod.snd).min? with
  | none => []
  | some least => (p.loads.filter fun l => l.2 = least).map Prod.fst

/-- Chooses one of the least busy connections. Those that are equally busy take turns. -/
def choose? (p : Pool) : Option (Nat × Pool) :=
  (p.tied[p.cursor.toNat % p.tied.length]?).map fun generation =>
    (generation, { p with cursor := p.cursor + 1 })

end Pool

end CallPool
