import CallPool.Connection.Party
import CallPool.Options

/-!
# A connection

A connection is one session with the server. It has a reader, which hands replies to the parties in
its registry and takes silence for loss; a writer, which writes queued frames and pings one at a
time; and the parties that wait for it. This module holds its state and the changes that the
actions of a connection are made of.

A connection that is not connected has an empty registry and never becomes connected again. It is
*severed* when it is lost or closed; only a loss sends a notice, and only the first one does.
-/

set_option autoImplicit false

namespace CallPool

/-- Word that a connection was lost: which slot it was opened for, and which connection it was. -/
structure Notice where
  slot : Nat
  generation : Nat
  deriving DecidableEq

namespace Connection

/-- A frame that waits to be written, with the party that waits for the verdict. -/
structure Outgoing where
  ticket : Ticket
  frame : List UInt8
  deriving DecidableEq

/-- What the writer does, and since when. -/
inductive Writer
  /-- It has no instant for its first ping, and breaks down over that as soon as it runs. -/
  | unstartable
  | idle
  | data (item : Outgoing) (began : Nat)
  | ping (began : Nat)
  | closing (began : Nat)
  | ended
  deriving DecidableEq

/-- When the write that is under way was begun. -/
def Writer.began? : Writer → Option Nat
  | data _ began => some began
  | ping began => some began
  | closing began => some began
  | _ => none

/-- What the reader does. It remembers when a frame last came in, or when it started. -/
inductive Reader
  | listening (since : Nat)
  | ended
  deriving DecidableEq

/-- What comes in from the server. -/
inductive Inbound
  | text (content : String)
  | binary (content : List UInt8)
  | ping
  | pong
  | close
  /-- The stream ends or cannot be read. -/
  | failure
  deriving DecidableEq

/-- What a connection does that others can see. -/
inductive Event
  /-- A party is registered under an ID. -/
  | registered (ticket : Ticket) (id : CorrelationId)
  /-- A party is not registered, for the connection is severed. -/
  | refused (ticket : Ticket)
  | queued (item : Outgoing)
  /-- A frame is handed to the socket. -/
  | handed (item : Outgoing)
  /-- A frame is written as a whole. -/
  | wrote (item : Outgoing)
  | pinged
  | closeSent
  | delivered (ticket : Ticket) (response : Response)
  | finished (ticket : Ticket) (outcome : Outcome)
  | lost (notice : Notice)

end Connection

/-- One session with the server. Instants are counted in nanoseconds. -/
structure Connection where
  /-- The slot that it was opened for. -/
  slot : Nat
  /-- The number that tells it from all other connections. -/
  generation : Nat
  options : Options
  connected : Bool
  registry : Registry
  /-- The parties that have not ended yet, in the order in which they came. -/
  parties : List Connection.Party
  nextTicket : Ticket
  /-- The frames that wait to be written, the oldest first. -/
  queue : List Connection.Outgoing
  reader : Connection.Reader
  writer : Connection.Writer
  /-- When the next ping is due. -/
  nextPing : Nat
  /-- Whether reader and writer are told to stop. -/
  stopping : Bool

namespace Connection

/-- A connection at the instant at which it is opened. -/
def opened (slot generation : Nat) (options : Options) (now : Nat) : Connection where
  slot := slot
  generation := generation
  options := options
  connected := true
  registry := Registry.empty
  parties := []
  nextTicket := 0
  queue := []
  reader := .listening now
  writer := if now + options.pingPeriod.nanos ≤ latestInstant then .idle else .unstartable
  nextPing := now + options.pingPeriod.nanos
  stopping := false

/-- How many parties wait for a reply. -/
def pending (c : Connection) : Nat := c.registry.size

/-- How many parties wait for a reply, if the connection is live. -/
def load (c : Connection) : Option Nat := if c.connected then some c.pending else none

/-- The party with a ticket. -/
def party? (c : Connection) (t : Ticket) : Option Party := c.parties.find? fun p => p.ticket = t

/-- Changes the party with a ticket, if it has not ended. -/
def update (c : Connection) (t : Ticket) (f : Party → Party) : Connection :=
  { c with parties := c.parties.map fun p => if p.ticket = t then f p else p }

/-- Nobody will hand these parties a reply any more. -/
def abandon (c : Connection) (ts : List Ticket) : Connection :=
  { c with parties := c.parties.map fun p => if p.ticket ∈ ts then p.abandon else p }

/-- Adds a party with the next ticket. -/
def join (c : Connection) (purpose : Purpose) (verdict : Verdict) : Connection :=
  { c with
    parties := c.parties ++ [⟨c.nextTicket, purpose, verdict, .awaited⟩]
    nextTicket := c.nextTicket + 1 }

/-- Registers a party under an ID, unless the connection is severed. The party that stood there is
abandoned. -/
def register? (c : Connection) (id : CorrelationId) (t : Ticket) : Option Connection :=
  if c.connected then
    some { c.abandon (c.registry.find? id).toList with registry := c.registry.insert id t }
  else none

/-- Removes what stands under an ID, and abandons the party that stood there. -/
def unregister (c : Connection) (id : CorrelationId) : Connection :=
  { c.abandon (c.registry.find? id).toList with registry := c.registry.erase id }

/-- A party leaves, and removes what stands under its ID. -/
def leave (c : Connection) (p : Party) : Connection :=
  let c := { c with parties := c.parties.filter fun q => q.ticket ≠ p.ticket }
  match p.purpose.id? with
  | some id => c.unregister id
  | none => c

/-- Queues a frame for a party. A writer that has ended takes none. -/
def enqueue (c : Connection) (item : Outgoing) : Connection × List Event :=
  match c.writer with
  | .ended => (c.update item.ticket fun p => { p with verdict := .failed .loopStopped }, [])
  | _ => ({ c with queue := c.queue ++ [item] }, [.queued item])

/-- Gives the verdict on the write of a party. -/
def judge (c : Connection) (t : Ticket) (verdict : Verdict) : Connection :=
  c.update t fun p => { p with verdict := verdict }

/-- Gives the same verdict on the writes of several parties. -/
def judgeAll (c : Connection) (items : List Outgoing) (verdict : Verdict) : Connection :=
  items.foldl (fun c item => c.judge item.ticket verdict) c

/-- Makes the connection dead: its registry is emptied, those who waited are abandoned, and reader
and writer are told to stop. -/
def sever (c : Connection) : Connection :=
  { c.abandon c.registry.tickets with
    connected := false
    registry := Registry.empty
    stopping := true }

/-- The notice of the loss of the connection. -/
def notice (c : Connection) : Notice := ⟨c.slot, c.generation⟩

/-- The connection is lost. That has an effect only if it was not severed before. -/
def lose (c : Connection) : Connection × List Event :=
  if c.connected then (c.sever, [.lost c.notice]) else (c, [])

/-- The reader ends, and the connection with it. -/
def endReader (c : Connection) : Connection × List Event :=
  { c with reader := .ended }.lose

/-- The writer ends, and the connection with it. The writes that it leaves behind have failed. -/
def endWriter (c : Connection) (fault : WriteFault) : Connection × List Event :=
  { c.judgeAll c.queue (.failed fault) with queue := [], writer := .ended }.lose

/-- Hands a response to the party that waits for it, if there is one: the first of its IDs under
which somebody waits decides. -/
def deliver (c : Connection) (response : Response) : Connection × List Event :=
  match c.registry.firstOf? response.correlationKeys with
  | none => (c, [])
  | some id =>
    match c.registry.find? id with
    | none => (c, [])
    | some t =>
      ({ c.update t (fun p => { p with reply := .delivered response }) with
          registry := c.registry.erase id },
        [.delivered t response])

/-- Takes the content of a frame. What is no response, or matches nobody, is passed over. -/
def take (c : Connection) (content : List UInt8) : Connection × List Event :=
  match Response.parse content with
  | .error _ => (c, [])
  | .ok response => c.deliver response

/-- When the ping after one that was due at `due` is due, if that one is sent now: a ping that is
more than 5 ms late puts off those behind it. -/
def pingAfter (c : Connection) (due now : Nat) : Nat :=
  if due + 5000000 < now then now + c.options.pingPeriod.nanos
  else due + c.options.pingPeriod.nanos

end Connection

end CallPool
