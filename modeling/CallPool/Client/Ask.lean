import CallPool.Message.Policy
import CallPool.Pool.Step

/-!
# Typed calls

A client asks for something in its own terms: it says what it asks, the command is made from that,
and the answer is taken out of the reply. A reply that is no refusal but has a payload of another
form is an error of its own.
-/

set_option autoImplicit false

namespace CallPool.Client

/-- What a client asks for. -/
inductive Ask
  | raw (command : Command)
  /-- The payload comes back. -/
  | echo (payload : Json.Value)
  /-- An amount is set aside. -/
  | allocate (request : AllocationRequest)
  /-- The use of an amount is recorded. -/
  | use (request : UseAllocationRequest)
  | policies

/-- What a client gets. -/
inductive Answer
  | response (response : Response)
  | payload (value : Json.Value)
  | allocation (response : AllocationResponse)
  | recorded
  | policies (response : PolicyResponse)

/-- The command that asks for something. -/
def Ask.command : Ask → Command
  | raw command => command
  | echo payload => .echo payload
  | allocate request => .requestForAllocation request
  | use request => .useAllocation request
  | policies => .getApplicationPolicies

/-- The answer that a reply gives. -/
def Ask.answer (a : Ask) (r : Response) : Except Error Answer :=
  match a with
  | raw _ => .ok (.response r)
  | echo _ => r.result.map .payload
  | allocate _ => (r.decode AllocationResponse.record.reader).map .allocation
  | use _ => .ok .recorded
  | policies => (r.decode PolicyResponse.record.reader).map .policies

/-- What the client ends with when its call ended. -/
def Ask.conclude (a : Ask) : Pool.Outcome → Except Error Answer
  | .ok (.reply r) => a.answer r
  | .ok _ => .ok .recorded
  | .error e => .error e

/-- What an answer is written as, if it holds anything. -/
def Answer.doc? : Answer → Option Json.Doc
  | response r => some r.doc
  | payload v => some (Json.Doc.ofValue v)
  | allocation r => some r.doc
  | recorded => none
  | policies r => some r.doc

end CallPool.Client
