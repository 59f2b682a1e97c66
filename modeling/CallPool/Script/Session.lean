import CallPool.Script.Clock
import CallPool.Script.Ending
import CallPool.Script.Peer

/-!
# A script for one connection

A session is a connection that a script plays with, on a clock of its own: the script makes calls,
plays the server and lets time pass. After each step everything that can happen at the instant
happens, and then the session is reported. Time stops at each alarm on its way, so that everything
happens exactly when it is due.
-/

set_option autoImplicit false

namespace CallPool.Script

namespace Session

/-- One step of a script. -/
inductive Step
  | call (tag : String) (command : Command) (limit : Duration)
  | send (tag : String) (command : Command)
  | register (tag : String) (id : CorrelationId)
  | cancel (tag : String)
  | push (frame : Push)
  | serverRead (on : Bool)
  | serverDrop
  | wait (span : Duration)
  | close
  | shutdown

/-- What a script sees after a step. -/
structure Report where
  /-- What the step itself gives. -/
  result : Option String
  connected : Bool
  pending : Nat
  load : Option Nat
  done : List (String × Ending)
  /-- The texts that the server has read. -/
  received : List String
  pings : Nat
  closes : Nat
  /-- The notices that were sent: for which slot, and whether they are about this connection. -/
  lost : List (Nat × Bool)

end Session

/-- A connection that a script plays with. -/
structure Session where
  now : Nat
  connection : Connection
  peer : Peer
  names : Naming
  /-- The parties that the script started, with their tags. -/
  tags : List (Ticket × String)
  /-- When the tasks of a connection that is shut down are stopped by force. -/
  forced : Option Nat
  done : List (String × Ending)
  received : List String
  pings : Nat
  closes : Nat
  lost : List Notice

namespace Session

/-- A new connection for a slot. A stalled server never reads, and its socket is small. -/
def start (slot : Nat) (stalled : Bool) (options : Options) : Session where
  now := 0
  connection := Connection.opened slot 1 options 0
  peer := if stalled then { room := some 64, reading := false } else {}
  names := {}
  tags := []
  forced := none
  done := []
  received := []
  pings := 0
  closes := 0
  lost := []

/-- Writes down what can be seen of an action. -/
def note (s : Session) (e : Connection.Event) : Session :=
  match e with
  | .lost notice => { s with lost := s.lost ++ [notice] }
  | .finished t outcome =>
    let names := (match outcome with
      | .error error =>
        match Naming.errorId? error with
        | some id => s.names.learn id
        | none => s.names
      | .ok _ => s.names)
    match s.tags.find? fun p => p.1 = t with
    | some (_, tag) =>
      { s with names := names, done := s.done ++ [(tag, endingOf names outcome)] }
    | none => s
  | _ => s

/-- Takes an action, if it can happen. -/
def act? (s : Session) (a : Connection.Action) : Option Session :=
  (s.connection.step s.now a).map fun (c, events) =>
    events.foldl note { s with connection := c }

/-- Takes an action, or leaves all as it is if it cannot happen. -/
def act (s : Session) (a : Connection.Action) : Session := (s.act? a).getD s

/-- The server has read something. It answers a ping at once. -/
def see (s : Session) : Sent → Session
  | .text content =>
    let names := (match frameId? content with
      | some id => s.names.learn id
      | none => s.names)
    { s with names := names, received := s.received ++ [names.reveal (textOf content)] }
  | .ping => { s with pings := s.pings + 1 }.act (.receive .pong)
  | .close => { s with closes := s.closes + 1 }

/-- The tasks of a connection that is shut down are stopped by force when their time is up. -/
def force? (s : Session) : Option Session :=
  match s.forced with
  | some limit =>
    if limit ≤ s.now then some (({ s with forced := none }.act .abortReader).act .abortWriter)
    else none
  | none => none

/-- What happens next at the instant: the server reads, a write ends, or the connection goes on. -/
def advance? (s : Session) : Option Session :=
  match s.peer.read? with
  | some (sent, peer) => some ({ s with peer := peer }.see sent)
  | none =>
    match s.peer.settle? s.connection.writer with
    | some (action, peer) => { s with peer := peer }.act? action
    | none =>
      match s.connection.ready s.now with
      | action :: _ => { s with peer := s.peer.left s.connection.writer }.act? action
      | [] => s.force?

/-- How a session goes on by itself. Each party ends once, each frame is begun, ended and read, and
pings and the end of the tasks take a few more changes. -/
def clockwork : Clockwork Session where
  advance? := advance?
  bound s := 64 + 4 * (s.connection.parties.length + s.connection.queue.length +
    s.peer.unread.length)
  alarms s := s.connection.alarms ++ s.forced.toList
  moveTo s now := { s with now := now }

/-- Starts a party with a tag. -/
def begin (s : Session) (tag : String) (a : Connection.Action) : Session :=
  { s with tags := s.tags ++ [(s.connection.nextTicket, tag)] }.act a

/-- Takes a step of a script, and says what the step itself gives. -/
def take (s : Session) : Step → Session × Option String
  | .call tag command limit =>
    let (id, names) := s.names.generate tag
    ({ s with names := names }.begin tag (.call id command limit), none)
  | .send tag command => (s.begin tag (.send command), none)
  | .register tag id =>
    if s.connection.connected then (s.begin tag (.wait id), some "registered")
    else (s, some "dead")
  | .cancel tag =>
    ((s.tags.filter fun p => p.2 = tag).foldl (fun s p => s.act (.cancel p.1)) s, none)
  | .push frame =>
    if s.connection.connected then (s.act (.receive (frame.inbound s.names)), some "sent")
    else (s, some "dead")
  | .serverRead on =>
    if s.connection.connected then ({ s with peer := { s.peer with reading := on } }, none)
    else (s, some "dead")
  | .serverDrop =>
    ({ s with peer := { s.peer with broken := true, unread := [] } }.act (.receive .failure), none)
  | .wait span => (clockwork.pass s.now (s.now + span.nanos) s, none)
  | .close => (s.act .close, none)
  | .shutdown =>
    let limit := s.now + s.connection.options.writeWait.nanos
    ({ s with forced := some (s.forced.getD limit) }.act .close, none)

/-- What a script sees. -/
def report (s : Session) (result : Option String) : Report where
  result := result
  connected := s.connection.connected
  pending := s.connection.pending
  load := s.connection.load
  done := sortedByTag s.done
  received := s.received
  pings := s.pings
  closes := s.closes
  lost := s.lost.map fun n => (n.slot, n.generation == s.connection.generation)

/-- Takes a step, lets everything happen that can, and reports. -/
def play (s : Session) (step : Step) : Session × Report :=
  let (taken, result) := s.take step
  let settled := clockwork.settle taken
  ({ settled with done := [], received := [], pings := 0, closes := 0, lost := [] },
    settled.report result)

/-- The reports on the steps of a script. -/
def run (s : Session) : List Step → List Report
  | [] => []
  | step :: rest =>
    let (next, report) := s.play step
    report :: next.run rest

end Session

end CallPool.Script
