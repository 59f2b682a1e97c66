import CallPool.Message.Policy
import CallPool.Message.Response
import CallPool.Proofs.Json.Records

/-!
# Messages survive writing and reading

Each type of message has a reader and a document that it is written as, which go together field by
field: a field that may be absent is written if it is there, and the blank record has nothing in its
place. So a message is read from its text as it was (`Wire.Survives.read_written`). What was read from
any text, with members in any order, of other names or missing, or from a list, has free values in
normal form that are nested within the limit, so it is read from what it is written as, and writing it
once more gives the same text (`Wire.Survives.normal_form`).

Main statement: `messages_survive`.
-/

set_option autoImplicit false

namespace CallPool

open Json (Reader Record Field Doc Members Value Place nestingLimit)

/-- How messages of one type are read and written. -/
structure Wire (α : Type) where
  reader : Reader α
  doc : α → Doc
  /-- The free values in a message are maps in every object: each key is there once, and the keys
  ascend. -/
  IsNormal : α → Prop
  /-- The floating-point numbers in a message are read back from what they are written as. -/
  FloatsReadBack : α → Prop

namespace Wire

variable {α : Type}

/-- The text that a message is written as. -/
def write (w : Wire α) (x : α) : List UInt8 := (w.doc x).text

/-- The text that is written for what is read from a text. -/
def rewrite (w : Wire α) (text : List UInt8) : Except Json.Error (List UInt8) :=
  (w.reader.parse text).map w.write

/-- Messages of one type survive writing and reading. -/
structure Survives (w : Wire α) : Prop where
  /-- A message is read from what it is written as. -/
  read_written : ∀ x, w.IsNormal x → w.FloatsReadBack x → (w.doc x).depth ≤ nestingLimit →
    w.reader.parse (w.write x) = .ok x
  /-- What is written for a message that was read is read as that message, and written again as the
  same text. -/
  normal_form : ∀ text x, w.reader.parse text = .ok x → w.FloatsReadBack x →
    w.reader.parse (w.write x) = .ok x ∧ w.rewrite (w.write x) = .ok (w.write x)

/-- Messages survive if they are taken from their documents, and what is taken from any document can
be written. -/
theorem survives_of_takes {w : Wire α} (spelled : ∀ x, (w.doc x).WellSpelled)
    (takes : ∀ x, w.IsNormal x → w.FloatsReadBack x → w.reader.Takes (w.doc x) x)
    (read : ∀ offset d x, w.reader.ofDoc (Place.start offset) d = .ok x →
      w.IsNormal x ∧ (w.doc x).depth ≤ nestingLimit) : w.Survives := by
  have read_written : ∀ x, w.IsNormal x → w.FloatsReadBack x → (w.doc x).depth ≤ nestingLimit →
      w.reader.parse (w.write x) = .ok x :=
    fun x normal back room => (takes x normal back).parse (spelled x) room
  refine ⟨read_written, fun text x parsed back => ?_⟩
  obtain ⟨offset, d, taken⟩ := Reader.ofDoc_of_parse parsed
  obtain ⟨normal, room⟩ := read offset d x taken
  have again := read_written x normal back room
  exact ⟨again, by rw [rewrite, again]; rfl⟩

end Wire

/-! ### Members -/

/-- An optional member has a property if its value has, as far as it is there. -/
theorem forall_mem_optionalMember {α : Type} {holds : String × Doc → Prop} {key : String}
    {write : α → Doc} {o : Option α} :
    (∀ m ∈ optionalMember key write o, holds m) ↔ ∀ x, o = some x → holds (key, write x) := by
  cases o <;> simp [optionalMember]

/-- A field that may be absent is written if it is there, and absent from the blank record. -/
theorem written_optional {α β : Type} {key : String} {r : Reader β} {put : Option β → α → α}
    {write : β → Doc} {o : Option β} {fs : List (Json.Field α)} {ms : List (String × Doc)} {a b : α}
    (takes : ∀ x, o = some x → r.Takes (write x) x ∧ write x ≠ .literal .null)
    (blank : put none a = a) (rest : Record.Written fs ms (put o a) b) :
    Record.Written (Field.of key false r.optional put :: fs) (optionalMember key write o ++ ms) a b := by
  cases o with
  | none => exact .absent rfl (blank ▸ rest)
  | some x =>
    obtain ⟨taken, not_null⟩ := takes x rfl
    exact .present (Field.of_takes (Reader.optional_takes taken not_null)) rest

/-- The last field, if it may be absent. -/
theorem written_last_optional {α β : Type} {key : String} {r : Reader β} {put : Option β → α → α}
    {write : β → Doc} {o : Option β} {a : α}
    (takes : ∀ x, o = some x → r.Takes (write x) x ∧ write x ≠ .literal .null)
    (blank : put none a = a) :
    Record.Written [Field.of key false r.optional put] (optionalMember key write o) a (put o a) := by
  rw [← List.append_nil (optionalMember key write o)]
  exact written_optional takes blank (.nil _)

/-- Every text is written as it may be spelled. -/
theorem Json.Doc.ofString_wellSpelled (s : String) : (Doc.ofString s).WellSpelled :=
  Json.Quoted.ofString_wellSpelled s

/-- A text opens no bracket. -/
@[simp] theorem Json.Doc.depth_ofString (s : String) : (Doc.ofString s).depth = 0 := by
  rw [Doc.ofString, Doc.depth]

/-- A text is not null. -/
theorem Json.Doc.ofString_ne_null (s : String) : Doc.ofString s ≠ .literal .null := by
  intro same
  cases same

/-! ### Responses -/

/-- An ID is read back from its document. -/
theorem CorrelationId.reader_takes (id : CorrelationId) : reader.Takes id.doc id := by
  intro p room
  simp only [reader, doc, Reader.text_takes id.text p room]
  rfl

namespace Response

/-- How responses are read and written. -/
def wire : Wire Response where
  reader := record.reader
  doc := doc
  IsNormal r := r.payload.normal = r.payload
  FloatsReadBack r := r.payload.FloatsReadBack

/-- Every response is written as it may be spelled. -/
theorem doc_wellSpelled (r : Response) : r.doc.WellSpelled := by
  refine Doc.ofMembers_wellSpelled ?_
  simp only [List.forall_mem_append, List.forall_mem_cons, forall_mem_optionalMember]
  simp [Doc.ofString_wellSpelled, Doc.ofValue_wellSpelled, CorrelationId.doc]

/-- A response has room for its brackets, if its payload has. -/
theorem depth_doc_le {r : Response} (room : r.payload.depth ≤ 126) : r.doc.depth ≤ nestingLimit := by
  refine (Doc.depth_ofMembers_le (n := 126)).2 ?_
  simp only [List.forall_mem_append, List.forall_mem_cons, forall_mem_optionalMember]
  simp [Doc.depth_ofValue, room, CorrelationId.doc]

/-- A response is read back from its document. -/
theorem takes {r : Response} (normal : r.payload.normal = r.payload)
    (back : r.payload.FloatsReadBack) : record.reader.Takes r.doc r := by
  have payload := Reader.any_takes back
  rw [normal] at payload
  refine Record.reader_takes (by decide) ?_
  simp only [List.append_assoc, List.cons_append, List.nil_append]
  refine .present (Field.of_takes (Reader.text_takes _)) (.present (Field.of_takes payload) ?_)
  refine written_optional (fun x _ => ⟨x.reader_takes, Doc.ofString_ne_null _⟩) rfl ?_
  refine written_optional (fun x _ => ⟨x.reader_takes, Doc.ofString_ne_null _⟩) rfl ?_
  refine written_optional (fun x _ => ⟨Reader.text_takes x, Doc.ofString_ne_null _⟩) rfl ?_
  exact written_last_optional (fun x _ => ⟨Reader.text_takes x, Doc.ofString_ne_null _⟩) rfl

/-- The payload that was read is in normal form, and nested within the limit. -/
theorem payload_of_read {offset : Nat} {d : Doc} {r : Response}
    (read : record.reader.ofDoc (Place.start offset) d = .ok r) :
    r.payload.normal = r.payload ∧ r.payload.depth ≤ 126 := by
  refine Record.reader_keeps (fun r => r.payload.normal = r.payload ∧ r.payload.depth ≤ 126)
    ⟨rfl, by decide⟩ ?_ read
  intro f member q d put a inside field kept
  simp only [record, List.mem_cons, List.not_mem_nil, or_false] at member
  rcases member with rfl | rfl | rfl | rfl | rfl | rfl
  case inr.inl =>
    obtain ⟨v, taken, rfl⟩ := Field.of_ok field
    have within : q.nesting ≤ nestingLimit := by
      rw [inside]
      exact Nat.le_of_ble_eq_true rfl
    obtain ⟨normal, room⟩ := Reader.any_ok within taken
    rw [inside] at room
    exact ⟨normal, by simp only [Place.start, nestingLimit] at room ⊢; omega⟩
  all_goals
    obtain ⟨v, -, rfl⟩ := Field.of_ok field
    exact kept

/-- A response survives its way over the wire. -/
theorem wire_survives : wire.Survives :=
  Wire.survives_of_takes doc_wellSpelled (fun _ => takes) fun _ _ _ read =>
    ⟨(payload_of_read read).1, depth_doc_le (payload_of_read read).2⟩

end Response

/-! ### Requests -/

/-- A floating-point number is read back, if its spelling reads back. -/
theorem floatDoc_takes {x : Binary64} (back : x.ReadsBack) : Reader.float.Takes (floatDoc x) x :=
  Reader.float_takes back

/-- Every floating-point number is written as it may be spelled. -/
theorem floatDoc_wellSpelled (x : Binary64) : (floatDoc x).WellSpelled :=
  Doc.ofNumber_wellSpelled _

/-- A floating-point number opens no bracket. -/
@[simp] theorem depth_floatDoc (x : Binary64) : (floatDoc x).depth = 0 := Doc.depth_ofNumber _

/-- Members in normal form are read back, if their numbers are. -/
theorem membersDoc_takes {ms : Members} (normal : Json.normalMembers ms [] = ms)
    (back : Json.FieldsReadBack ms) : Reader.members.Takes (membersDoc ms) ms := by
  have taken := Reader.members_takes back
  rwa [normal] at taken

/-- Members are written as they may be spelled. -/
theorem membersDoc_wellSpelled (ms : Members) : (membersDoc ms).WellSpelled :=
  Doc.ofValue_wellSpelled _

/-- An object is not null. -/
theorem membersDoc_ne_null (ms : Members) : membersDoc ms ≠ .literal .null := by
  intro same
  cases same

/-- An object is one bracket deeper than its values. -/
@[simp] theorem depth_membersDoc (ms : Members) :
    (membersDoc ms).depth = Json.fieldsDepth ms + 1 := by
  rw [membersDoc, Doc.depth_ofValue, Value.depth]

/-- Members of free form, as a request carries them: in normal form, and not too deep for it. -/
def Fits (metadata : Option Members) : Prop :=
  ∀ ms, metadata = some ms → Json.normalMembers ms [] = ms ∧ Json.fieldsDepth ms ≤ 125

/-- Metadata that fits leaves room for the brackets around it. -/
theorem depth_metadata_le {metadata : Option Members} (fits : Fits metadata) :
    ∀ ms, metadata = some ms → (membersDoc ms).depth ≤ 126 := by
  intro ms same
  rw [depth_membersDoc]
  exact Nat.succ_le_succ (fits ms same).2

/-- What was read into the last field of a record, and is kept by the others, fits. -/
theorem fits_of_read {α : Type} {r : Record α} {key : String} {put : Option Members → α → α}
    {get : α → Option Members} (plain : List (Json.Field α))
    (fields : r.fields = plain ++ [Field.of key false Reader.members.optional put])
    (blank : get r.blank = none) (kept : ∀ f ∈ plain, f.Keeps get) (put_get : ∀ x a, get (put x a) = x)
    {offset : Nat} {d : Doc} {x : α} (read : r.reader.ofDoc (Place.start offset) d = .ok x) :
    Fits (get x) := by
  refine Record.reader_keeps (fun a => Fits (get a)) (fun ms same => by simp [blank] at same) ?_ read
  intro f member q d change a inside taken fits
  rw [fields] at member
  rcases List.mem_append.1 member with other | last
  · rwa [kept f other q d change a taken]
  · obtain rfl := List.mem_singleton.1 last
    obtain ⟨metadata, within, rfl⟩ := Field.of_ok taken
    intro ms same
    rw [put_get] at same
    subst same
    obtain ⟨normal, room⟩ := Reader.members_ok (Reader.optional_ok within)
    exact ⟨normal, by simp only [inside, Place.start, nestingLimit] at room; omega⟩

namespace AllocationRequest

/-- How requests for an allocation are read and written. -/
def wire : Wire AllocationRequest where
  reader := record.reader
  doc := doc
  IsNormal r := ∀ ms, r.metadata = some ms → Json.normalMembers ms [] = ms
  FloatsReadBack r := r.amount.ReadsBack ∧ ∀ ms, r.metadata = some ms → Json.FieldsReadBack ms

/-- Every request for an allocation is written as it may be spelled. -/
theorem doc_wellSpelled (r : AllocationRequest) : r.doc.WellSpelled := by
  refine Doc.ofMembers_wellSpelled ?_
  simp only [List.forall_mem_append, List.forall_mem_cons, forall_mem_optionalMember]
  simp [Doc.ofString_wellSpelled, floatDoc_wellSpelled, membersDoc_wellSpelled]

/-- A request for an allocation has room for its brackets, if its metadata fits. -/
theorem depth_doc_le {r : AllocationRequest} (fits : Fits r.metadata) : r.doc.depth ≤ nestingLimit := by
  refine (Doc.depth_ofMembers_le (n := 126)).2 ?_
  simp only [List.forall_mem_append, List.forall_mem_cons, forall_mem_optionalMember]
  simpa using depth_metadata_le fits

/-- A request for an allocation is read back from its document. -/
theorem takes {r : AllocationRequest} (normal : wire.IsNormal r) (back : wire.FloatsReadBack r) :
    record.reader.Takes r.doc r := by
  refine Record.reader_takes (by decide) ?_
  refine .present (Field.of_takes (Reader.text_takes _)) ?_
  refine .present (Field.of_takes (floatDoc_takes back.1)) ?_
  exact written_last_optional
    (fun ms same => ⟨membersDoc_takes (normal ms same) (back.2 ms same), membersDoc_ne_null ms⟩) rfl

/-- The metadata of a request that has been read fits. -/
theorem metadata_of_read {offset : Nat} {d : Doc} {r : AllocationRequest}
    (read : record.reader.ofDoc (Place.start offset) d = .ok r) : Fits r.metadata := by
  refine fits_of_read (record.fields.take 2) rfl rfl ?_ (fun _ _ => rfl) read
  simp only [record, List.take, List.forall_mem_cons]
  exact ⟨Field.of_keeps fun _ _ => rfl, Field.of_keeps fun _ _ => rfl, nofun⟩

/-- A request for an allocation survives its way over the wire. -/
theorem wire_survives : wire.Survives :=
  Wire.survives_of_takes doc_wellSpelled (fun _ => takes) fun _ _ _ read =>
    ⟨fun ms same => (metadata_of_read read ms same).1, depth_doc_le (metadata_of_read read)⟩

end AllocationRequest

namespace UseAllocationRequest

/-- How reports of use are read and written. -/
def wire : Wire UseAllocationRequest where
  reader := record.reader
  doc := doc
  IsNormal r := ∀ ms, r.metadata = some ms → Json.normalMembers ms [] = ms
  FloatsReadBack r := r.amount.ReadsBack ∧ ∀ ms, r.metadata = some ms → Json.FieldsReadBack ms

/-- Every request to use an allocation is written as it may be spelled. -/
theorem doc_wellSpelled (r : UseAllocationRequest) : r.doc.WellSpelled := by
  refine Doc.ofMembers_wellSpelled ?_
  simp only [List.forall_mem_append, List.forall_mem_cons, forall_mem_optionalMember]
  simp [Doc.ofString_wellSpelled, floatDoc_wellSpelled, membersDoc_wellSpelled]

/-- A request to use an allocation has room for its brackets, if its metadata fits. -/
theorem depth_doc_le {r : UseAllocationRequest} (fits : Fits r.metadata) :
    r.doc.depth ≤ nestingLimit := by
  refine (Doc.depth_ofMembers_le (n := 126)).2 ?_
  simp only [List.forall_mem_append, List.forall_mem_cons, forall_mem_optionalMember]
  simpa using depth_metadata_le fits

/-- A request to use an allocation is read back from its document. -/
theorem takes {r : UseAllocationRequest} (normal : wire.IsNormal r) (back : wire.FloatsReadBack r) :
    record.reader.Takes r.doc r := by
  refine Record.reader_takes (by decide) ?_
  refine .present (Field.of_takes (Reader.text_takes _)) ?_
  refine .present (Field.of_takes (floatDoc_takes back.1)) ?_
  refine .present (Field.of_takes (Reader.text_takes _)) ?_
  exact written_last_optional
    (fun ms same => ⟨membersDoc_takes (normal ms same) (back.2 ms same), membersDoc_ne_null ms⟩) rfl

/-- The metadata of a request that has been read fits. -/
theorem metadata_of_read {offset : Nat} {d : Doc} {r : UseAllocationRequest}
    (read : record.reader.ofDoc (Place.start offset) d = .ok r) : Fits r.metadata := by
  refine fits_of_read (record.fields.take 3) rfl rfl ?_ (fun _ _ => rfl) read
  simp only [record, List.take, List.forall_mem_cons]
  exact ⟨Field.of_keeps fun _ _ => rfl, Field.of_keeps fun _ _ => rfl, Field.of_keeps fun _ _ => rfl,
    nofun⟩

/-- A request to use an allocation survives its way over the wire. -/
theorem wire_survives : wire.Survives :=
  Wire.survives_of_takes doc_wellSpelled (fun _ => takes) fun _ _ _ read =>
    ⟨fun ms same => (metadata_of_read read ms same).1, depth_doc_le (metadata_of_read read)⟩

end UseAllocationRequest

/-! ### Replies to requests -/

namespace AllocationResponse

/-- How replies to requests for an allocation are read and written. -/
def wire : Wire AllocationResponse where
  reader := record.reader
  doc := doc
  IsNormal _ := True
  FloatsReadBack _ := True

/-- A response about an allocation survives its way over the wire. -/
theorem wire_survives : wire.Survives := by
  refine Wire.survives_of_takes (fun r => ?_) (fun r _ _ => ?_) fun _ _ r _ => ⟨trivial, ?_⟩
  · exact Doc.ofMembers_wellSpelled (by simp [Doc.ofString_wellSpelled])
  · exact Record.reader_takes (by decide)
      (.present (Field.of_takes (Reader.text_takes _)) (.nil _))
  · exact (Doc.depth_ofMembers_le (n := 126)).2 (by simp)

end AllocationResponse

namespace Policy

/-- How policies are read and written. -/
def wire : Wire Policy where
  reader := record.reader
  doc := doc
  IsNormal _ := True
  FloatsReadBack _ := True

/-- Every signed number is written as it may be spelled. -/
theorem signedDoc_wellSpelled (i : Int64) : (signedDoc i).WellSpelled := Doc.ofNumber_wellSpelled _

/-- A signed number opens no bracket. -/
@[simp] theorem depth_signedDoc (i : Int64) : (signedDoc i).depth = 0 := Doc.depth_ofNumber _

/-- Every policy is written as it may be spelled. -/
theorem doc_wellSpelled (p : Policy) : p.doc.WellSpelled :=
  Doc.ofMembers_wellSpelled (by simp [Doc.ofString_wellSpelled, signedDoc_wellSpelled])

/-- A policy opens one bracket at most. -/
theorem depth_doc_le (p : Policy) : p.doc.depth ≤ 1 :=
  (Doc.depth_ofMembers_le (n := 0)).2 (by simp)

/-- A policy is read back from its document. -/
theorem takes (p : Policy) : record.reader.Takes p.doc p := by
  refine Record.reader_takes (by decide) ?_
  iterate 7 refine .present (Field.of_takes (Reader.text_takes _)) ?_
  refine .present (Field.of_takes (Reader.signed_takes _)) ?_
  iterate 5 refine .present (Field.of_takes (Reader.text_takes _)) ?_
  iterate 2 refine .present (Field.of_takes (Reader.signed_takes _)) ?_
  exact .nil _

/-- A policy survives its way over the wire. -/
theorem wire_survives : wire.Survives :=
  Wire.survives_of_takes doc_wellSpelled (fun p _ _ => p.takes)
    fun _ _ p _ => ⟨trivial, Nat.le_trans p.depth_doc_le (Nat.le_of_ble_eq_true rfl)⟩

end Policy

namespace PolicyResponse

/-- How lists of policies are read and written. -/
def wire : Wire PolicyResponse where
  reader := record.reader
  doc := doc
  IsNormal _ := True
  FloatsReadBack _ := True

/-- A list of policies is written as it may be spelled. -/
theorem policies_wellSpelled (ps : List Policy) : (Doc.ofItems (ps.map Policy.doc)).WellSpelled :=
  Doc.ofItems_wellSpelled (List.forall_mem_map.2 fun p _ => p.doc_wellSpelled)

/-- A list of policies opens two brackets at most. -/
theorem depth_policies_le (ps : List Policy) : (Doc.ofItems (ps.map Policy.doc)).depth ≤ 2 :=
  (Doc.depth_ofItems_le (n := 1)).2 (List.forall_mem_map.2 fun p _ => p.depth_doc_le)

/-- A response with policies survives its way over the wire. -/
theorem wire_survives : wire.Survives := by
  refine Wire.survives_of_takes (fun r => ?_) (fun r _ _ => ?_) fun _ _ r _ => ⟨trivial, ?_⟩
  · exact Doc.ofMembers_wellSpelled (by simp [policies_wellSpelled, Doc.ofNumber_wellSpelled])
  · refine Record.reader_takes (by decide) ?_
    refine .present (Field.of_takes (Reader.list_takes fun p _ => p.takes)) ?_
    exact .present (Field.of_takes (Reader.unsigned_takes _)) (.nil _)
  · refine (Doc.depth_ofMembers_le (n := 126)).2 ?_
    have policies := depth_policies_le r.policies
    simp [Doc.depth_ofNumber]
    omega

end PolicyResponse

/-- Every message is read from what it is written as, and what is written for a message that was read
from any text is a normal form of that text. -/
theorem messages_survive : Response.wire.Survives ∧ AllocationRequest.wire.Survives ∧
    UseAllocationRequest.wire.Survives ∧ AllocationResponse.wire.Survives ∧
      PolicyResponse.wire.Survives ∧ Policy.wire.Survives :=
  ⟨Response.wire_survives, AllocationRequest.wire_survives, UseAllocationRequest.wire_survives,
    AllocationResponse.wire_survives, PolicyResponse.wire_survives, Policy.wire_survives⟩

/-- The number nearest to a tenth. -/
def tenth : Binary64 := .finite false ⟨1019, by decide⟩ ⟨2702159776422298, by decide⟩

/-- A response of which everything is given that may be, with a tenth in its payload. -/
def fullResponse : Response where
  messageType := "x"
  payload := .object [("a", .list [.number (.float tenth)]), ("b", .null)]
  id := some ⟨""⟩
  replyTo := some ⟨"é"⟩
  message := some ""
  error := some "\x00"

/-- The same payload in a list, with its members in another order, one of them twice. -/
def listedResponse : List UInt8 :=
  "[\"x\",\x7b\"b\":7,\"a\":[1e-1],\"b\":null\x7d,\"\",\"\\u00e9\",\"\",\"\\u0000\"]".toUTF8.data.toList

/-- It is read from the list, and from what it is written as, which is a normal form. -/
theorem survives_of_fullResponse :
    Response.wire.reader.parse listedResponse = .ok fullResponse ∧
      Response.wire.reader.parse (Response.wire.write fullResponse) = .ok fullResponse ∧
      Response.wire.rewrite (Response.wire.write fullResponse) = .ok (Response.wire.write fullResponse) := by
  have read : Response.wire.reader.parse listedResponse = .ok fullResponse := by rfl
  have back : Response.wire.FloatsReadBack fullResponse := by
    simp only [Response.wire, fullResponse, Value.FloatsReadBack, Json.FieldsReadBack, Json.ItemsReadBack,
      Json.Number.float.injEq, forall_eq', and_true]
    rfl
  exact ⟨read, messages_survive.1.read_written _ rfl back (by decide),
    (messages_survive.1.normal_form _ _ read back).2⟩

end CallPool
