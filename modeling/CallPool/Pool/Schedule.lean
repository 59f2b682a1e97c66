import CallPool.Pool.Step

/-!
# What a pool does next

`Pool.ready` lists the actions that a pool takes by itself at an instant, and `Pool.alarms` the
later instants at which it will have something to do. What becomes of a dial that can be begun is
not among them until its time is up: that is for the server to decide. Of which options no request can
be made, so that a dial fails before it begins, is decided outside the pool: `unfit?` is any such
decision.
-/

set_option autoImplicit false

namespace CallPool.Pool

/-- The action by which a dial ends by itself. -/
def dialReady (unfit? : Options → Option DialFault) (p : Pool) (now : Nat) (d : Dial) : Option Action :=
  match unfit? p.options with
  | some fault => some (.dialFails d.ticket fault)
  | none =>
    if d.began + p.options.connectTimeout.nanos ≤ now then some (.dialExpires d.ticket) else none

/-- The action by which a reconnector goes on. -/
def reconnectorReady (now : Nat) (r : Reconnector) : Option Action :=
  match r.phase with
  | .sleeping due => if due ≤ now then some (.wakeReconnector r.ticket) else none
  | .spent => some (.wakeReconnector r.ticket)
  | .dialing => none

/-- The action by which a shutdown ends. -/
def closingReady (p : Pool) (now : Nat) (g : Closing) : Option Action :=
  if p.allEnded g.generations || decide (g.deadline ≤ now) then some (.finishClose g.ticket)
  else none

/-- What the connections do by themselves. -/
def connectionsReady (p : Pool) (now : Nat) : List Action :=
  p.connections.flatMap fun c => (c.ready now).map fun a => .connection c.generation a

/-- The actions that the pool takes by itself. -/
def ready (unfit? : Options → Option DialFault) (p : Pool) (now : Nat) : List Action :=
  p.connectionsReady now ++
    (if p.supervised && !p.notices.isEmpty then [.supervise] else []) ++
    p.dials.filterMap (dialReady unfit? p now) ++
    p.reconnectors.filterMap (reconnectorReady now) ++
    p.closings.filterMap (p.closingReady now)

/-- When a reconnector goes on. -/
def reconnectorAlarm (r : Reconnector) : Option Nat :=
  match r.phase with
  | .sleeping due => some due
  | _ => none

/-- The instants at which the pool has something to do. -/
def alarms (p : Pool) : List Nat :=
  p.connections.flatMap Connection.alarms ++
    (p.dials.map fun d => d.began + p.options.connectTimeout.nanos) ++
    p.reconnectors.filterMap reconnectorAlarm ++
    (p.closings.map fun g => g.deadline)

end CallPool.Pool
