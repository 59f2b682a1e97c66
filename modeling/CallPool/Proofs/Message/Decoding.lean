import CallPool.Message.Policy
import CallPool.Message.Request
import CallPool.Message.Response
import CallPool.Proofs.Client.Answers
import CallPool.Proofs.Json.Acceptance
import CallPool.Proofs.Json.NormalReading

/-!
# Payloads are decoded as they are read

A payload reaches its type in one of two ways: straight from a text, or from the value that a response
carries, which is in normal form. A text that can be read in both ways gives the same in both
(`Reader.ofValue_of_parse`): from the document and from its value a reader takes the same, and the value
may be put in normal form. The converse does not hold, as a text with a field twice is only read as a value,
which has the last of the two.

Main statement: `payloads_decode_as_read`.
-/

set_option autoImplicit false

namespace CallPool

open Json (Reader Record Field SurplusRule Value)

/-! ### Readers that take the same in both ways -/

/-- A reader that takes the same from a document, from the value of the document, and from that value in
normal form. -/
structure Json.Reader.Consistent {α : Type} (r : Reader α) : Prop where
  agrees : r.Agrees
  takesNormal : r.TakesNormal

/-- A field that takes the same from a document, from the value of the document, and from that value in
normal form. -/
structure Json.Field.Consistent {α : Type} (f : Field α) : Prop where
  agrees : f.Agrees
  takesNormal : f.TakesNormal

namespace Json

variable {α β : Type}

/-- The reader of texts is consistent. -/
@[simp] theorem Reader.text_consistent : Reader.text.Consistent := ⟨text_agrees, text_takesNormal⟩

/-- The reader of floating-point numbers is consistent. -/
@[simp] theorem Reader.float_consistent : Reader.float.Consistent :=
  ⟨ofNumber_agrees, ofNumber_takesNormal⟩

/-- The reader of signed numbers is consistent. -/
@[simp] theorem Reader.signed_consistent : Reader.signed.Consistent :=
  ⟨ofNumber_agrees, ofNumber_takesNormal⟩

/-- The reader of unsigned numbers is consistent. -/
@[simp] theorem Reader.unsigned_consistent : Reader.unsigned.Consistent :=
  ⟨ofNumber_agrees, ofNumber_takesNormal⟩

/-- The reader of members is consistent. -/
@[simp] theorem Reader.members_consistent : Reader.members.Consistent :=
  ⟨members_agrees, members_takesNormal⟩

/-- A reader that is consistent stays so when its value is optional. -/
@[simp] theorem Reader.optional_consistent {r : Reader α} (consistent : r.Consistent) :
    r.optional.Consistent :=
  ⟨optional_agrees consistent.agrees, optional_takesNormal consistent.takesNormal⟩

/-- A list is read consistently if its elements are. -/
@[simp] theorem Reader.list_consistent {r : Reader α} (consistent : r.Consistent) :
    (Reader.list r).Consistent :=
  ⟨list_agrees consistent.agrees, list_takesNormal consistent.takesNormal⟩

/-- A field is read consistently if its reader is consistent. -/
@[simp] theorem Field.of_consistent {key : String} {required : Bool} {r : Reader β} {put : β → α → α}
    (consistent : r.Consistent) : (Field.of key required r put).Consistent :=
  ⟨of_agrees consistent.agrees, of_takesNormal consistent.takesNormal⟩

/-- A record is read consistently if its fields are, in any order. -/
theorem Record.reader_consistent {r : Record α} (consistent : ∀ f ∈ r.fields, f.Consistent)
    (commute : r.fields.Pairwise Field.CommutesOnValues) : r.reader.Consistent where
  agrees := reader_agrees fun f member => (consistent f member).agrees
  takesNormal := reader_takesNormal (fun f member => (consistent f member).takesNormal) commute

/-- What is read from a text is taken from the value that the text is read as. -/
theorem Reader.ofValue_of_parse {r : Reader α} (consistent : r.Consistent) {text : List UInt8} {x : α}
    {v : Value} (read : r.parse text = .ok x) (value : Reader.any.parse text = .ok v)
    (rule : SurplusRule) : r.ofValue rule v = .ok x := by
  have whole : ∀ offset d w, Reader.any.ofDoc (Place.start offset) d = .ok w → d.break? = none := by
    intro offset d w taken
    obtain ⟨w', here, -⟩ := map_eq_ok_iff.1 taken
    exact Doc.break?_of_value here
  obtain ⟨before, d, after, spelled, rfl, taken⟩ := (Reader.parse_ok_iff whole).1 value
  obtain ⟨w, here, rfl⟩ := map_eq_ok_iff.1 taken
  have read' := (Reader.parse_blanks_ok_iff spelled before after).1 read
  have taken' := (consistent.agrees rule _ d w x here).1 read'
  exact consistent.takesNormal rule w x taken'

end Json

/-! ### Decoding -/

/-- A payload is decoded from a response as it is read from a text. -/
structure Json.Reader.DecodesAsRead {α : Type} (r : Reader α) : Prop where
  /-- If a text is read as `x`, and as a value too, a response that carries this value and no error is decoded
  as `x`. -/
  decoded : ∀ text x v, r.parse text = .ok x → Reader.any.parse text = .ok v → ∀ response : Response,
    response.payload = v → response.Accepts → response.decode r = .ok x
  /-- A response with an error is a refusal, whatever it carries. -/
  refused : ∀ (response : Response) code, response.error = some code → code ≠ "" →
    ∃ message, response.Refuses code message ∧ response.decode r = .error (.remote code message)

/-- What a consistent reader takes from a text it takes from the payload with that text. -/
theorem Json.Reader.decodesAsRead {α : Type} {r : Reader α} (consistent : r.Consistent) :
    r.DecodesAsRead where
  decoded := by
    rintro text x v read value response rfl accepts
    have taken := Reader.ofValue_of_parse consistent read value .fewer
    simp [Response.decode, Response.result, accepts.accepted_eq, Reader.decode, taken, bind, Except.bind,
      Except.map, Except.mapError]
  refused := by
    intro response code error not_empty
    rcases response.accepted_cases with ⟨none_there | empty, -⟩ | ⟨code', message, refuses, refused⟩
    · cases error.symm.trans none_there
    · exact absurd (Option.some.inj (error.symm.trans empty)) not_empty
    · obtain rfl : code' = code := Option.some.inj (refuses.error.symm.trans error)
      refine ⟨message, refuses, ?_⟩
      rw [Response.decode, Response.result, refused]
      rfl

/-- A request for an allocation is read consistently. -/
theorem AllocationRequest.reader_consistent : record.reader.Consistent :=
  Record.reader_consistent (by simp [record]) (by simp [record])

/-- A request to use an allocation is read consistently. -/
theorem UseAllocationRequest.reader_consistent : record.reader.Consistent :=
  Record.reader_consistent (by simp [record]) (by simp [record])

/-- A response about an allocation is read consistently. -/
theorem AllocationResponse.reader_consistent : record.reader.Consistent :=
  Record.reader_consistent (by simp [record]) (by simp [record])

/-- A policy is read consistently. -/
@[simp] theorem Policy.reader_consistent : record.reader.Consistent :=
  Record.reader_consistent (by simp [record]) (by simp [record])

/-- A response with policies is read consistently. -/
theorem PolicyResponse.reader_consistent : record.reader.Consistent :=
  Record.reader_consistent (by simp [record]) (by simp [record])

/-- Every payload is decoded from a response as it is read from a text, and no refusal is decoded. -/
theorem payloads_decode_as_read :
    AllocationRequest.record.reader.DecodesAsRead ∧ UseAllocationRequest.record.reader.DecodesAsRead ∧
      AllocationResponse.record.reader.DecodesAsRead ∧ PolicyResponse.record.reader.DecodesAsRead ∧
        Policy.record.reader.DecodesAsRead :=
  ⟨Reader.decodesAsRead AllocationRequest.reader_consistent,
    Reader.decodesAsRead UseAllocationRequest.reader_consistent,
    Reader.decodesAsRead AllocationResponse.reader_consistent,
    Reader.decodesAsRead PolicyResponse.reader_consistent, Reader.decodesAsRead Policy.reader_consistent⟩

/-- A policy in a list, behind two members with one name that no field has. -/
def listedPolicy : List UInt8 :=
  "\x7b\"x\":[1],\"total\":2,\"x\":-0,\"policies\":[[\"\\u00e9\"]]\x7d".toUTF8.data.toList

/-- The value that it is read as, with the members in order. -/
def listedPolicyValue : Value :=
  .object [("policies", .list [.list [.string "é"]]), ("total", .number (.natural 2)),
    ("x", .number (.float (Binary64.zero true)))]

/-- A response with an empty error is decoded as the policy that was read. -/
theorem decodes_listedPolicy :
    PolicyResponse.record.reader.parse listedPolicy = .ok ⟨[{ Policy.blank with policyId := "é" }], 2⟩ ∧
      Reader.any.parse listedPolicy = .ok listedPolicyValue ∧
      Response.decode PolicyResponse.record.reader ⟨"x", listedPolicyValue, none, none, none, some ""⟩ =
        .ok ⟨[{ Policy.blank with policyId := "é" }], 2⟩ := by
  have read : PolicyResponse.record.reader.parse listedPolicy =
      .ok ⟨[{ Policy.blank with policyId := "é" }], 2⟩ := by rfl
  have value : Reader.any.parse listedPolicy = .ok listedPolicyValue := by rfl
  exact ⟨read, value, payloads_decode_as_read.2.2.2.1.decoded _ _ _ read value _ rfl (.inr rfl)⟩

end CallPool
