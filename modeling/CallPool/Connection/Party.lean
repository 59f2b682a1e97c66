import CallPool.Connection.Registry
import CallPool.Error
import CallPool.Message.Response

/-!
# The parties of a connection

A party is somebody who waits for a connection: a call for its reply, a sender for the end of its
write, a waiter for a reply under an ID that it was given. A party learns the verdict on its write
before it looks at its reply: `Party.outcome?` is what it ends with once it has learnt enough, and
a call gives up at its deadline if it has not.
-/

set_option autoImplicit false

namespace CallPool.Connection

/-- What became of a write. -/
inductive Verdict
  | awaited
  | written
  | failed (fault : WriteFault)
  deriving DecidableEq

/-- What became of a reply. It is abandoned if nobody will hand one over any more. -/
inductive Reply
  | awaited
  | delivered (response : Response)
  | abandoned

/-- What a party waits for. -/
inductive Purpose
  /-- The reply to its own frame, for at most so long from the given instant on. -/
  | call (id : CorrelationId) (limit : Duration) (began : Nat)
  /-- The end of the write of its frame. -/
  | send
  /-- A reply under an ID, however long it takes. -/
  | wait (id : CorrelationId)
  deriving DecidableEq

/-- The ID under which a party waits. -/
def Purpose.id? : Purpose → Option CorrelationId
  | call id _ _ => some id
  | send => none
  | wait id => some id

/-- The instant at which a party gives up. -/
def Purpose.deadline? : Purpose → Option Nat
  | call _ limit began => some (began + limit.nanos)
  | _ => none

/-- What a party gets if all goes well. -/
inductive Answer
  | reply (response : Response)
  | written

/-- What a party ends with. -/
abbrev Outcome := Except Error Answer

/-- Somebody who waits for a connection. -/
structure Party where
  ticket : Ticket
  purpose : Purpose
  verdict : Verdict
  reply : Reply

namespace Party

/-- What a party on the connection of a slot ends with, once it has learnt enough. -/
def outcome? (p : Party) (slot : Nat) : Option Outcome :=
  match p.verdict with
  | .awaited => none
  | .failed fault => some (.error (.send slot fault))
  | .written =>
    match p.purpose.id? with
    | none => some (.ok .written)
    | some id =>
      match p.reply with
      | .awaited => none
      | .delivered response => some (.ok (.reply response))
      | .abandoned => some (.error (.connectionLost slot id))

/-- What a call ends with that gives up. -/
def surrender? (p : Party) : Option Outcome :=
  match p.purpose with
  | .call id limit _ => some (.error (.requestTimeout id limit.millis))
  | _ => none

/-- What a party ends with at an instant, if it ends: what it has learnt comes first, and a call
gives up at its deadline. -/
def ending? (p : Party) (slot now : Nat) : Option Outcome :=
  match p.outcome? slot with
  | some outcome => some outcome
  | none =>
    match p.purpose.deadline? with
    | some deadline => if deadline ≤ now then p.surrender? else none
    | none => none

/-- A party whose reply nobody will hand over any more. -/
def abandon (p : Party) : Party :=
  match p.reply with
  | .awaited => { p with reply := .abandoned }
  | _ => p

end Party

end CallPool.Connection
