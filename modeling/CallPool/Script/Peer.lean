import CallPool.Connection.Schedule

/-!
# The server's end of a connection

A peer is what a scripted server holds of one connection: whether it reads, what was written and
not read yet, and how many more bytes the socket takes. A socket with a limit takes a frame only if
the whole of it fits; a frame that does not fit fills the socket and is stuck for good.
-/

set_option autoImplicit false

namespace CallPool.Script

/-- What a connection writes. -/
inductive Sent
  | text (content : List UInt8)
  | ping
  | close
  deriving DecidableEq

/-- How many bytes a frame with a content of `n` bytes takes on the socket. -/
def maskedSize (n : Nat) : Nat := if n < 126 then n + 6 else if n < 65536 then n + 8 else n + 14

/-- How many bytes are written. -/
def Sent.size : Sent → Nat
  | text content => maskedSize content.length
  | ping => maskedSize 0
  | close => maskedSize 0

/-- What a writer is writing. -/
def sending? : Connection.Writer → Option Sent
  | .data item _ => some (.text item.frame)
  | .ping _ => some .ping
  | .closing _ => some .close
  | _ => none

/-- The server's end of a connection. -/
structure Peer where
  /-- How many more bytes the socket takes, if there is a limit. -/
  room : Option Nat := none
  reading : Bool := true
  /-- Whether the socket is broken. -/
  broken : Bool := false
  /-- What was written and not read yet, the oldest first. -/
  unread : List Sent := []

namespace Peer

/-- Whether the socket takes a frame as a whole. -/
def takes (p : Peer) (sent : Sent) : Bool :=
  match p.room with
  | none => true
  | some room => sent.size ≤ room

/-- The peer after a frame was put into the socket. -/
def put (p : Peer) (sent : Sent) : Peer :=
  if p.takes sent then
    { p with room := p.room.map fun room => room - sent.size, unread := p.unread ++ [sent] }
  else { p with room := some 0 }

/-- What the server reads next, if it reads and there is something. -/
def read? (p : Peer) : Option (Sent × Peer) :=
  match p.reading, p.unread with
  | true, sent :: rest => some (sent, { p with unread := rest })
  | _, _ => none

/-- The reason for which a write to a broken socket fails. -/
def brokenReason : String := "IO error: broken pipe"

/-- What becomes at once of the write that is under way: the action that ends it, if it ends, and
the peer after it. -/
def settle? (p : Peer) (w : Connection.Writer) : Option (Connection.Action × Peer) :=
  match sending? w with
  | none => none
  | some sent =>
    if p.broken then some (.failWrite brokenReason, p)
    else if p.takes sent then some (.completeWrite, p.put sent)
    else none

/-- The peer when the write that is under way is left as it is. -/
def left (p : Peer) (w : Connection.Writer) : Peer :=
  match sending? w with
  | none => p
  | some sent => if p.takes sent then p else p.put sent

end Peer

end CallPool.Script
