import CallPool.Dial
import CallPool.Script.Ending
import CallPool.Script.Peer

/-!
# A scripted server

A scripted server takes the dials of a pool in the mode that the script set last: it serves them,
drops them, leaves them hanging or refuses them with a status. What was connected before stays as
it is. It answers pings, and frames of the types for which it was told an answer.
-/

set_option autoImplicit false

namespace CallPool.Script

/-- What a server does with a new dial. -/
inductive Mode
  | serve
  /-- It is accepted and dropped. -/
  | reject
  /-- It is accepted and never answered. -/
  | hang
  /-- Its handshake is answered with this status. -/
  | refuse (status : Nat)
  deriving DecidableEq

/-- A server that a script plays. -/
structure Server where
  /-- The endpoint at which it is reached. -/
  address : String
  listening : Bool
  mode : Mode
  /-- The frames that are answered at once: their type, and the text of the answer. -/
  automatic : List (String × String) := []
  /-- The ends of the connections, by generation. -/
  peers : List (Nat × Peer) := []
  /-- The dials that were accepted. -/
  taken : List Ticket := []
  accepts : Nat := 0
  handshakes : Nat := 0
  closes : Nat := 0
  /-- The credentials that were read. -/
  credentials : List String := []

namespace Server

/-- The end of a connection. -/
def peer (s : Server) (generation : Nat) : Peer :=
  ((s.peers.find? fun e => e.1 = generation).map Prod.snd).getD {}

/-- Replaces the end of a connection. -/
def setPeer (s : Server) (generation : Nat) (p : Peer) : Server :=
  { s with peers := (generation, p) :: s.peers.filter fun e => e.1 ≠ generation }

/-- The reason for which a dial fails that reaches nobody, or that is dropped. -/
def unreached : DialFault := .described "IO error"

/-- What becomes of a dial with some options: the action by which it ends, if it ends at once, and
the server after it. -/
def meet (s : Server) (options : Options) (ticket : Ticket) : Option Pool.Action × Server :=
  if options.endpoint ≠ s.address || !s.listening then (some (.dialFails ticket unreached), s)
  else
    let s := { s with accepts := s.accepts + 1, taken := ticket :: s.taken }
    if !isSendable options.apiKey then (some (.dialFails ticket unreached), s)
    else
      let read := { s with credentials := s.credentials ++ [credentialText options.apiKey] }
      match s.mode with
      | .serve =>
        (some (.dialSucceeds ticket false), { read with handshakes := s.handshakes + 1 })
      | .reject => (some (.dialFails ticket unreached), s)
      | .hang => (none, s)
      | .refuse status => (some (.dialFails ticket (.refused status)), read)

/-- Tells the server what to answer to frames of a type. -/
def answerTo (s : Server) (messageType : String) (answer : Option String) : Server :=
  { s with automatic := (answer.toList.map fun text => (messageType, text)) ++
      s.automatic.filter fun a => a.1 ≠ messageType }

/-- The answer of the server to a frame. -/
def reply? (s : Server) (frame : List UInt8) : Option String :=
  match Response.parse frame with
  | .ok r =>
    (s.automatic.find? fun a => a.1 = r.messageType).map fun a =>
      a.2.replace "<id>" ((r.id.map CorrelationId.text).getD "")
  | .error _ => none

end Server

end CallPool.Script
