import CallPool.Error
import CallPool.Json.Record
import CallPool.Json.Writing
import CallPool.Message.Payload

/-!
# Responses

A response names the call it belongs to under `id`, or under `replyTo` if it has an ID of its own.
A response with a text under `error` that is not empty is a refusal: `Response.accepted` turns it
into an error, and `Response.decode` takes a typed payload from any other.
-/

set_option autoImplicit false

namespace CallPool

open Json (Reader Record Field Doc Value)

/-- A message from the other side. -/
structure Response where
  messageType : String
  payload : Value
  id : Option CorrelationId
  replyTo : Option CorrelationId
  message : Option String
  error : Option String

namespace Response

/-- The response of which nothing is given. -/
def blank : Response := ⟨"", .null, none, none, none, none⟩

/-- How a response is read: every field may be absent. -/
def record : Record Response where
  name := "Response"
  fields := [
    Field.of "type" false Reader.text fun x a => { a with messageType := x },
    Field.of "payload" false Reader.any fun x a => { a with payload := x },
    Field.of "id" false CorrelationId.reader.optional fun x a => { a with id := x },
    Field.of "replyTo" false CorrelationId.reader.optional fun x a => { a with replyTo := x },
    Field.of "message" false Reader.text.optional fun x a => { a with message := x },
    Field.of "error" false Reader.text.optional fun x a => { a with error := x }]
  blank := blank

/-- Reads a response from a text. -/
def parse (text : List UInt8) : Except Json.Error Response := record.reader.parse text

/-- What a response is written as. -/
def doc (r : Response) : Doc :=
  Doc.ofMembers ([("type", Doc.ofString r.messageType), ("payload", Doc.ofValue r.payload)] ++
    optionalMember "id" CorrelationId.doc r.id ++
    optionalMember "replyTo" CorrelationId.doc r.replyTo ++
    optionalMember "message" Doc.ofString r.message ++
    optionalMember "error" Doc.ofString r.error)

/-- The IDs under which the call of a response may be registered, in the order in which they are
tried. An empty ID is none. -/
def correlationKeys (r : Response) : List CorrelationId :=
  (r.id.toList ++ r.replyTo.toList).filter fun id => !id.text.isEmpty

/-- Whether a response is a refusal. -/
def isError (r : Response) : Bool :=
  match r.error with
  | some e => !e.isEmpty
  | none => false

/-- The response, unless it is a refusal. A refusal without a message is described by its code. -/
def accepted (r : Response) : Except Error Response :=
  if r.isError then
    let code := r.error.getD ""
    .error (.remote code
      (match r.message with
        | some m => if m.isEmpty then code else m
        | none => code))
  else .ok r

/-- The payload of a response that is no refusal. -/
def result (r : Response) : Except Error Value := r.accepted.map Response.payload

/-- The payload of a response that is no refusal, as a typed value. -/
def decode {α : Type} (reader : Reader α) (r : Response) : Except Error α := do
  let payload ← r.result
  (reader.decode payload).mapError .json

end Response

end CallPool
