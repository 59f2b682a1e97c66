import CallPool.Connection.Basic
import CallPool.Message.Request

/-!
# The actions of a connection

An action is what happens to a connection between two points at which something else may happen.
`Connection.step` says what an action changes and what can be seen of it, and refuses an action
that cannot happen. Which action comes next is left open: the server decides what comes in and
when a write is complete, and any party that can go on may be the next to do so.
-/

set_option autoImplicit false

namespace CallPool.Connection

/-- What may happen to a connection. -/
inductive Action
  /-- A party sends a command and waits at most so long for its reply. -/
  | call (id : CorrelationId) (command : Command) (limit : Duration)
  /-- A party sends a command that has no reply. -/
  | send (command : Command)
  /-- A party waits for a reply under an ID. -/
  | wait (id : CorrelationId)
  /-- A party is dropped. -/
  | cancel (ticket : Ticket)
  /-- A party that can go on does, and ends. -/
  | wake (ticket : Ticket)
  /-- The reader takes what comes in. -/
  | receive (inbound : Inbound)
  /-- The reader has heard nothing for too long. -/
  | expireReader
  /-- The reader stops as it is told. -/
  | stopReader
  | beginData
  | beginPing
  | beginClose
  /-- The write that is under way is done. -/
  | completeWrite
  /-- The write that is under way fails, for a reason that the socket gives. -/
  | failWrite (reason : String)
  /-- The write that is under way takes too long. -/
  | expireWrite
  /-- The connection is closed on purpose. -/
  | close
  /-- The reader is stopped by force. -/
  | abortReader
  /-- The writer is stopped by force, or breaks down. -/
  | abortWriter

/-- The millisecond count that a write that takes too long is reported with. -/
def writeLimit (c : Connection) : Nat := c.options.writeWait.nanos / 1000000

/-- A party sends a command and waits for its reply. -/
def call (c : Connection) (now : Nat) (id : CorrelationId) (command : Command)
    (limit : Duration) : Connection × List Event :=
  let t := c.nextTicket
  let joined := c.join (.call id limit now) .awaited
  match joined.register? id t with
  | none => ({ c with nextTicket := t + 1 }, [.finished t (.error .noConnectionAvailable)])
  | some registered =>
    let (queued, events) := registered.enqueue ⟨t, (Request.mk command (some id)).frame⟩
    (queued, .registered t id :: events)

/-- A party sends a command that has no reply. -/
def send (c : Connection) (command : Command) : Connection × List Event :=
  let t := c.nextTicket
  if c.connected then
    (c.join .send .awaited).enqueue ⟨t, (Request.mk command none).frame⟩
  else ({ c with nextTicket := t + 1 }, [.finished t (.error .noConnectionAvailable)])

/-- A party waits for a reply under an ID. -/
def wait (c : Connection) (id : CorrelationId) : Connection × List Event :=
  let t := c.nextTicket
  match (c.join (.wait id) .written).register? id t with
  | none => ({ c with nextTicket := t + 1 }, [.refused t])
  | some registered => (registered, [.registered t id])

/-- The reader takes what comes in. -/
def receive (c : Connection) (now : Nat) (inbound : Inbound) : Connection × List Event :=
  let heard := { c with reader := .listening now }
  match inbound with
  | .text content => heard.take content.toUTF8.data.toList
  | .binary content => heard.take content
  | .ping => (heard, [])
  | .pong => (heard, [])
  | .close => c.endReader
  | .failure => c.endReader

/-- The write that is under way is done. -/
def completeWrite (c : Connection) : Option (Connection × List Event) :=
  match c.writer with
  | .data item _ => some ({ c.judge item.ticket .written with writer := .idle }, [.wrote item])
  | .ping _ => some ({ c with writer := .idle }, [.pinged])
  | .closing _ =>
    let (c, events) := c.endWriter .connectionClosed
    some (c, .closeSent :: events)
  | _ => none

/-- The write that is under way comes to nothing. That ends the writer, except after a queued
frame: then only the party that waits for it is told. -/
def spoilWrite (c : Connection) (fault : WriteFault) : Option (Connection × List Event) :=
  match c.writer with
  | .data item _ => some ({ c.judge item.ticket (.failed fault) with writer := .idle }, [])
  | .ping _ => some (c.endWriter .connectionClosed)
  | .closing _ => some (c.endWriter .connectionClosed)
  | _ => none

/-- The writer is stopped by force, or breaks down: nobody gets a verdict from it any more. -/
def abortWriter (c : Connection) : Option (Connection × List Event) :=
  match c.writer with
  | .ended => none
  | .data item _ =>
    some ((c.judge item.ticket (.failed .loopStopped)).endWriter .loopStopped)
  | _ => some (c.endWriter .loopStopped)

/-- A connection that nobody holds any more: it is closed, and its reader and writer are stopped by
force. -/
def discard (c : Connection) : Connection :=
  let stopped := (c.sever.endReader).1
  (stopped.abortWriter).elim stopped Prod.fst

/-- What an action changes, and what can be seen of it. -/
def step (c : Connection) (now : Nat) : Action → Option (Connection × List Event)
  | .call id command limit => some (c.call now id command limit)
  | .send command => some (c.send command)
  | .wait id => some (c.wait id)
  | .cancel t => (c.party? t).map fun p => (c.leave p, [])
  | .wake t => do
    let p ← c.party? t
    let outcome ← p.ending? c.slot now
    some (c.leave p, [.finished t outcome])
  | .receive inbound =>
    match c.reader with
    | .listening _ => some (c.receive now inbound)
    | .ended => none
  | .expireReader =>
    match c.reader with
    | .listening since =>
      if since + c.options.pongWait.nanos ≤ now then some c.endReader else none
    | .ended => none
  | .stopReader =>
    match c.reader with
    | .listening _ => if c.stopping then some c.endReader else none
    | .ended => none
  | .beginData =>
    match c.writer, c.queue with
    | .idle, item :: rest =>
      some ({ c with writer := .data item now, queue := rest }, [.handed item])
    | _, _ => none
  | .beginPing =>
    match c.writer with
    | .idle =>
      if c.nextPing ≤ now then
        some ({ c with writer := .ping now, nextPing := c.pingAfter c.nextPing now }, [])
      else none
    | _ => none
  | .beginClose =>
    match c.writer with
    | .idle => if c.stopping then some ({ c with writer := .closing now }, []) else none
    | _ => none
  | .completeWrite => c.completeWrite
  | .failWrite reason => c.spoilWrite (.described reason)
  | .expireWrite => do
    let began ← c.writer.began?
    if began + c.options.writeWait.nanos ≤ now then c.spoilWrite (.timedOut c.writeLimit) else none
  | .close => some (c.sever, [])
  | .abortReader =>
    match c.reader with
    | .listening _ => some c.endReader
    | .ended => none
  | .abortWriter => c.abortWriter

end CallPool.Connection
