import CallPool.Connection.Step

/-!
# What a connection does next

`Connection.ready` lists the actions that a connection takes by itself at an instant, and
`Connection.alarms` the later instants at which it will have something to do. A connection with
nothing ready stays as it is until the first alarm, unless somebody calls it or the server does
something.
-/

set_option autoImplicit false

namespace CallPool.Connection

/-- What the reader does by itself. -/
def readerReady (c : Connection) (now : Nat) : List Action :=
  match c.reader with
  | .listening since =>
    (if c.stopping then [.stopReader] else []) ++
      (if since + c.options.pongWait.nanos ≤ now then [.expireReader] else [])
  | .ended => []

/-- What the writer does by itself. -/
def writerReady (c : Connection) (now : Nat) : List Action :=
  match c.writer with
  | .unstartable => [.abortWriter]
  | .idle =>
    (if c.stopping then [.beginClose] else []) ++
      (if c.queue.isEmpty then [] else [.beginData]) ++
      (if c.nextPing ≤ now then [.beginPing] else [])
  | .data _ began => if began + c.options.writeWait.nanos ≤ now then [.expireWrite] else []
  | .ping began => if began + c.options.writeWait.nanos ≤ now then [.expireWrite] else []
  | .closing began => if began + c.options.writeWait.nanos ≤ now then [.expireWrite] else []
  | .ended => []

/-- The parties that end by themselves. -/
def partiesReady (c : Connection) (now : Nat) : List Action :=
  (c.parties.filter fun p => (p.ending? c.slot now).isSome).map fun p => .wake p.ticket

/-- The actions that the connection takes by itself. -/
def ready (c : Connection) (now : Nat) : List Action :=
  c.partiesReady now ++ c.readerReady now ++ c.writerReady now

/-- When the reader has heard nothing for too long. -/
def readerAlarm (c : Connection) : List Nat :=
  match c.reader with
  | .listening since => [since + c.options.pongWait.nanos]
  | .ended => []

/-- When the writer has something to do. -/
def writerAlarm (c : Connection) : List Nat :=
  match c.writer with
  | .unstartable => []
  | .idle => [c.nextPing]
  | .ended => []
  | w => w.began?.toList.map fun began => began + c.options.writeWait.nanos

/-- The instants at which the connection has something to do. -/
def alarms (c : Connection) : List Nat :=
  (c.parties.filterMap fun p => p.purpose.deadline?) ++ c.readerAlarm ++ c.writerAlarm

end CallPool.Connection
