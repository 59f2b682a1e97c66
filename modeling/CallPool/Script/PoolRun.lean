import CallPool.Client.Poller
import CallPool.Pool.Schedule
import CallPool.Script.Clock
import CallPool.Script.Server

/-!
# A script for a pool

A pool, its client and a poller play against a scripted server on a virtual clock. After each step
everything that can happen at the instant happens, and then the pool is reported.
-/

set_option autoImplicit false

namespace CallPool.Script

namespace PoolRun

/-- One step of a script. -/
inductive Step
  | mode (mode : Mode)
  | stopListening
  | auto (messageType : String) (answer : Option String)
  /-- A connection round. -/
  | connect (tag : String)
  | fill (tag : String) (slot : Nat) (token : Option Token)
  | reconnect (tag : String) (slot : Nat) (token : Token) (schedule : Backoff) (orphaned : Bool)
  | select (times : Nat)
  | ask (tag : String) (ask : Client.Ask) (limit : Option Duration)
  | send (tag : String) (command : Command)
  | cancel (tag : String)
  | push (slot : Nat) (frame : Push)
  | drop (slot : Nat)
  | dropAll
  | closeSlot (slot : Nat)
  | poll (interval : Duration)
  | stopPolling
  | changed
  | wait (span : Duration)
  | close (tag : String)
  | closeTwice (tag : String)

/-- What a step itself gives. -/
inductive Result
  | nothing
  | word (s : String)
  | flag (b : Bool)
  | slots (chosen : List (Option Nat))
  deriving DecidableEq

/-- What can be seen of a slot. -/
inductive SlotView
  | empty
  | dead
  | live (pending : Nat)
  deriving DecidableEq

/-- What a script sees after a step. -/
structure Report where
  result : Result
  slots : List SlotView
  live : Nat
  connected : Bool
  pending : Nat
  reconnecting : Nat
  closed : Bool
  accepts : Nat
  handshakes : Nat
  closes : Nat
  done : List (String × Ending)
  received : List (Nat × String)
  /-- Whether the poller runs, and its snapshot. -/
  poller : Option (Bool × Option String)

end PoolRun

/-- A call that a script started, or its poller. -/
structure PoolRun.Started where
  ticket : Ticket
  /-- The tag, except for the poller. -/
  tag : Option String
  ask : Option Client.Ask

/-- A pool that a script plays with. -/
structure PoolRun where
  now : Nat
  pool : Pool
  server : Server
  names : Naming
  /-- The callers that have not ended yet. -/
  started : List PoolRun.Started
  poller : Option Client.Poller
  done : List (String × Ending)
  received : List (Nat × String)

namespace PoolRun

/-- A pool against a server. -/
def start (pool : Pool) (server : Server) : PoolRun where
  now := 0
  pool := pool
  server := server
  names := {}
  started := []
  poller := none
  done := []
  received := []

/-- A caller ended. -/
def finish (s : PoolRun) (call : Started) (outcome : Pool.Outcome) : PoolRun :=
  let s := { s with started := s.started.filter fun c => c.ticket ≠ call.ticket }
  match call.tag with
  | some tag =>
    let names := (match outcome with
      | .error error => (Naming.errorId? error).elim s.names s.names.learn
      | .ok _ => s.names)
    { s with names := names, done := s.done ++ [(tag, endingOfPool names call.ask outcome)] }
  | none => { s with poller := s.poller.map fun p => p.after s.now (.conclude outcome) }

/-- Writes down what can be seen of an action. -/
def note (s : PoolRun) : Pool.Event → PoolRun
  | .finished t outcome =>
    match s.started.find? fun c => c.ticket = t with
    | some call => s.finish call outcome
    | none => s
  | _ => s

/-- Takes an action, if it can happen. -/
def act? (s : PoolRun) (a : Pool.Action) : Option PoolRun :=
  (s.pool.step s.now a).map fun (pool, events) => events.foldl note { s with pool := pool }

/-- Takes an action, or leaves all as it is if it cannot happen. -/
def act (s : PoolRun) (a : Pool.Action) : PoolRun := (s.act? a).getD s

/-- Starts a caller. -/
def begin (s : PoolRun) (tag : Option String) (ask : Option Client.Ask) (a : Pool.Action) :
    PoolRun :=
  let call : Started := ⟨s.pool.nextTicket, tag, ask⟩
  { s with started := s.started ++ [call] }.act a

/-- The server has read something from a connection. -/
def see (s : PoolRun) (c : Connection) : Sent → PoolRun
  | .text content =>
    let names := (match frameId? content with
      | some id => s.names.meet id
      | none => s.names)
    let seen := { s with
      names := names
      received := s.received ++ [(c.slot, names.reveal (textOf content))] }
    match s.server.reply? content with
    | some reply => seen.act (.connection c.generation (.receive (.text reply)))
    | none => seen
  | .ping => s.act (.connection c.generation (.receive .pong))
  | .close => { s with server := { s.server with closes := s.server.closes + 1 } }

/-- What the server does for a connection: it reads, or takes what is written. -/
def serve? (s : PoolRun) (c : Connection) : Option PoolRun :=
  let peer := s.server.peer c.generation
  match peer.read? with
  | some (sent, peer) =>
    some ({ s with server := s.server.setPeer c.generation peer }.see c sent)
  | none =>
    match peer.settle? c.writer with
    | some (action, peer) =>
      { s with server := s.server.setPeer c.generation peer }.act?
        (.connection c.generation action)
    | none => none

/-- What the server does with the first dial that it has not met yet. -/
def meet? (s : PoolRun) : Option PoolRun :=
  match s.pool.options.dialFault? with
  | some _ => none
  | none =>
    match s.pool.dials.find? fun d => d.ticket ∉ s.server.taken with
    | none => none
    | some d =>
      match s.server.meet s.pool.options d.ticket with
      | (some action, server) => { s with server := server }.act? action
      | (none, server) => some { s with server := server }

/-- The poller takes a tick. -/
def poll? (s : PoolRun) : Option PoolRun := do
  let poller ← s.poller
  let (ticked, _) ← poller.step s.now (.tick s.pool.closed)
  let s := { s with poller := some ticked }
  if ticked.phase = .asking then
    let (id, names) := s.names.generateUnnamed
    some ({ s with names := names }.begin none (some .policies)
      (.call id .getApplicationPolicies s.pool.options.requestTimeout))
  else some s

/-- What happens next at the instant. -/
def advance? (s : PoolRun) : Option PoolRun :=
  s.pool.connections.findSome? s.serve? <|> s.meet? <|>
    (s.pool.ready Options.dialFault? s.now).head?.bind s.act? <|> s.poll?

/-- How many changes can follow one another at an instant: a few for each party, frame, dial and
reconnector. -/
def bound (s : PoolRun) : Nat :=
  let p := s.pool
  256 + 64 * p.slots.length + 16 * (p.dials.length + p.rounds.length + p.reconnectors.length +
    p.notices.length + p.closings.length) +
    p.connections.foldr (fun c n => 32 + 8 * (c.parties.length + c.queue.length) + n) 0

/-- How a run goes on by itself. -/
def clockwork : Clockwork PoolRun where
  advance? := advance?
  bound := bound
  alarms s := s.pool.alarms ++
    (match s.poller with
      | some p => if p.phase = .waiting then [p.nextTick] else []
      | none => [])
  moveTo s now := { s with now := now }

/-- The server breaks connections. -/
def breakAll (s : PoolRun) (cs : List Connection) : PoolRun :=
  cs.foldl (fun s c =>
    let broken := { s.server.peer c.generation with broken := true, unread := [] }
    { s with server := s.server.setPeer c.generation broken }.act
      (.connection c.generation (.receive .failure))) s

/-- Chooses a connection some times. -/
def choose (p : Pool) : Nat → List (Option Nat) × Pool
  | 0 => ([], p)
  | n + 1 =>
    let (slot, p) := (match p.choose? with
      | some (generation, p) => ((p.connections[generation]?).map Connection.slot, p)
      | none => (none, p))
    let (rest, p) := choose p n
    (slot :: rest, p)

/-- Stops a poller, and drops the refresh that it has under way. -/
def stopPoller (s : PoolRun) : PoolRun :=
  let refreshes := s.started.filter fun c => c.tag.isNone
  let s := refreshes.foldl (fun s c => s.act (.cancel c.ticket)) s
  { s with
    started := s.started.filter fun c => c.tag.isSome
    poller := s.poller.map fun p => p.after s.now .stop }

/-- Takes a step of a script, and says what the step itself gives. -/
def take (s : PoolRun) : Step → PoolRun × Result
  | .mode mode => ({ s with server := { s.server with mode := mode } }, .nothing)
  | .stopListening => ({ s with server := { s.server with listening := false } }, .nothing)
  | .auto messageType answer =>
    ({ s with server := s.server.answerTo messageType answer }, .nothing)
  | .connect tag => (s.begin (some tag) none .connect, .nothing)
  | .fill tag slot token => (s.begin (some tag) none (.fill slot token), .nothing)
  | .reconnect tag slot token schedule orphaned =>
    (s.begin (some tag) none (.reconnect slot token schedule orphaned), .nothing)
  | .select times =>
    let (chosen, pool) := choose s.pool times
    ({ s with pool := pool }, .slots chosen)
  | .ask tag ask limit =>
    let (id, names) := s.names.generate tag
    ({ s with names := names }.begin (some tag) (some ask)
      (.call id ask.command (limit.getD s.pool.options.requestTimeout)), .nothing)
  | .send tag command => (s.begin (some tag) none (.send command), .nothing)
  | .cancel tag =>
    ((s.started.filter fun c => c.tag = some tag).foldl (fun s c => s.act (.cancel c.ticket)) s,
      .nothing)
  | .push slot frame =>
    match s.pool.slotConnection? slot with
    | some c =>
      if c.connected then
        (s.act (.connection c.generation (.receive (frame.inbound s.names))), .word "sent")
      else (s, .word "dead")
    | none => (s, .word "dead")
  | .drop slot => (s.breakAll (s.pool.connections.filter fun c => c.slot = slot), .nothing)
  | .dropAll => (s.breakAll s.pool.connections, .nothing)
  | .closeSlot slot =>
    match s.pool.slotConnection? slot with
    | some c => (s.act (.connection c.generation .close), .nothing)
    | none => (s, .nothing)
  | .poll interval =>
    ({ s.stopPoller with poller := some (Client.Poller.start interval s.now) }, .nothing)
  | .stopPolling => (s.stopPoller, .nothing)
  | .changed =>
    match s.poller with
    | some p =>
      let (answer, p) := p.changed
      ({ s with poller := some p }, answer.elim (.word "pending") .flag)
    | none => (s, .word "pending")
  | .wait span => (clockwork.pass s.now (s.now + span.nanos) s, .nothing)
  | .close tag => (s.begin (some tag) none .close, .nothing)
  | .closeTwice tag => ((s.begin (some tag) none .close).act .close, .nothing)

/-- What can be seen of a slot. -/
def slotView (p : Pool) (slot : Nat) : SlotView :=
  match p.slotConnection? slot with
  | none => .empty
  | some c => c.load.elim .dead .live

/-- What a script sees. -/
def report (s : PoolRun) (result : Result) : Report where
  result := result
  slots := (List.range s.pool.slots.length).map (slotView s.pool)
  live := s.pool.liveCount
  connected := s.pool.isConnected
  pending := s.pool.pendingCount
  reconnecting := s.pool.reconnectingCount
  closed := s.pool.closed
  accepts := s.server.accepts
  handshakes := s.server.handshakes
  closes := s.server.closes
  done := sortedByTag s.done
  received := s.received.mergeSort fun a b => a.1 ≤ b.1
  poller := s.poller.map fun p =>
    (p.isRunning, p.latest.map fun r => s.names.reveal (textOf r.doc.text))

/-- Takes a step, lets everything happen that can, and reports. -/
def play (s : PoolRun) (step : Step) : PoolRun × Report :=
  let (taken, result) := s.take step
  let settled := clockwork.settle taken
  ({ settled with done := [], received := [] }, settled.report result)

/-- The reports on the steps of a script, and the server at the end. -/
def run (s : PoolRun) : List Step → List Report × Server
  | [] => ([], s.server)
  | step :: rest =>
    let (next, report) := s.play step
    let (reports, server) := next.run rest
    (report :: reports, server)

end PoolRun

end CallPool.Script
