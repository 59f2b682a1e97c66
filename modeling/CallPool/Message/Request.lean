import CallPool.CorrelationId
import CallPool.Message.Command

/-!
# Requests

A request is a command with the ID under which its reply is expected, if one is.
-/

set_option autoImplicit false

namespace CallPool

/-- A command to be sent, with the ID of its reply, if one is expected. -/
structure Request where
  command : Command
  id : Option CorrelationId

namespace Request

/-- What a request is written as: the members of its command, and the ID behind them. -/
def doc (r : Request) : Json.Doc :=
  Json.Doc.ofMembers (r.command.members ++ optionalMember "id" CorrelationId.doc r.id)

/-- The text of the frame that a request is sent in. -/
def frame (r : Request) : List UInt8 := r.doc.text

end Request

end CallPool
