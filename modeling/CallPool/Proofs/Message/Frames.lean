import CallPool.Message.Request
import CallPool.Proofs.Message.RoundTrip

/-!
# Frames decode to what was sent

The frame of a request has the kind of its command first, what the command carries behind it, and the
ID at the end. A reader of commands takes the kind, reads what it carries as that kind wants it, and
passes over the ID (`parse_command`). A reader of responses takes the same members as a type, a payload
of any form and an ID; what the command carries is then the value that it stands for, with its members
in the order of their keys (`parse_response`).
-/

set_option autoImplicit false

namespace CallPool

open Json (Reader Record Field Doc Members Value Place nestingLimit Fault Member)

/-! ### What commands carry, as values -/

/-- The member of a value for a field that may be absent. -/
def optionalField (key : String) : Option Members → List (String × Value)
  | none => []
  | some ms => [(key, .object ms)]

/-- A request for an allocation as a value. -/
def AllocationRequest.value (r : AllocationRequest) : Value :=
  .object ([("alias", .string r.aliasName), ("amount", .number (.float r.amount))] ++
    optionalField "metadata" r.metadata)

/-- A report of use as a value. -/
def UseAllocationRequest.value (r : UseAllocationRequest) : Value :=
  .object ([("alias", .string r.aliasName), ("allocationId", .string r.allocationId),
    ("amount", .number (.float r.amount))] ++ optionalField "metadata" r.metadata)

namespace Command

/-- What a command carries, as a value: `null` if that is nothing. -/
def payloadValue : Command → Value
  | echo payload => payload
  | requestForAllocation request => request.value
  | useAllocation request => request.value
  | getApplicationPolicies => .null
  | ping => .null

/-- The free values in a command are maps in every object: each key is there once, and the keys ascend. -/
def IsNormal : Command → Prop
  | echo payload => payload.normal = payload
  | requestForAllocation request => AllocationRequest.wire.IsNormal request
  | useAllocation request => UseAllocationRequest.wire.IsNormal request
  | getApplicationPolicies => True
  | ping => True

/-- The floating-point numbers in a command are read back. -/
def FloatsReadBack : Command → Prop
  | echo payload => payload.FloatsReadBack
  | requestForAllocation request => AllocationRequest.wire.FloatsReadBack request
  | useAllocation request => UseAllocationRequest.wire.FloatsReadBack request
  | getApplicationPolicies => True
  | ping => True

end Command

/-! ### Payloads are read as values -/

/-- Optional metadata is written as the value of its members would be. -/
theorem optionalMember_eq_map (key : String) (metadata : Option Members) :
    optionalMember key membersDoc metadata =
      (optionalField key metadata).map fun m => (m.1, Doc.ofValue m.2) := by
  cases metadata <;> rfl

/-- Optional metadata reads back if its numbers do. -/
theorem optionalField_back {key : String} {metadata : Option Members}
    (back : ∀ ms, metadata = some ms → Json.FieldsReadBack ms) :
    Json.FieldsReadBack (optionalField key metadata) := by
  cases metadata with
  | none => trivial
  | some ms => exact ⟨back ms rfl, trivial⟩

/-- Members with ascending keys, the last of which may be absent, are in normal form. -/
theorem normalMembers_optional {key : String} {metadata : Option Members} (done : Members)
    (ascending : (done.map Prod.fst ++ [key]).Pairwise (· < ·))
    (values : ∀ m ∈ done, m.2.normal = m.2)
    (normal : ∀ ms, metadata = some ms → Json.normalMembers ms [] = ms) :
    Json.normalMembers (optionalField key metadata) done = done ++ optionalField key metadata := by
  refine Json.normalMembers_of_normal _ ⟨?_, ?_⟩
  · have keys : ((done ++ optionalField key metadata).map Prod.fst).Pairwise (· < ·) := by
      cases metadata with
      | none => simpa [optionalField] using (List.pairwise_append.1 ascending).1
      | some ms => simpa [optionalField] using ascending
    exact List.pairwise_map.1 keys
  · rw [List.forall_mem_append]
    refine ⟨values, ?_⟩
    cases metadata with
    | none => simp [optionalField]
    | some ms => simpa [optionalField, Value.normal] using normal ms rfl

/-- A request for an allocation is read back as the value that it stands for. -/
theorem AllocationRequest.any_takes {r : AllocationRequest} (normal : wire.IsNormal r)
    (back : wire.FloatsReadBack r) : Reader.any.Takes r.doc r.value := by
  have same : r.doc = Doc.ofValue r.value := by
    rw [AllocationRequest.value, Doc.ofValue_object, List.map_append, ← optionalMember_eq_map]
    rfl
  have fields : r.value.FloatsReadBack :=
    ⟨trivial, fun x amount => Json.Number.float.inj amount ▸ back.1, optionalField_back back.2⟩
  have ordered : r.value.normal = r.value :=
    congrArg Value.object (normalMembers_optional
      [("alias", .string r.aliasName), ("amount", .number (.float r.amount))]
      (show ["alias", "amount", "metadata"].Pairwise (· < ·) by decide) (by simp [Value.normal]) normal)
  have taken := Reader.any_takes fields
  rwa [← same, ordered] at taken

/-- The members of a report of use are put in the order of their keys. -/
theorem UseAllocationRequest.any_takes {r : UseAllocationRequest} (normal : wire.IsNormal r)
    (back : wire.FloatsReadBack r) : Reader.any.Takes r.doc r.value := by
  let written : Members := [("alias", .string r.aliasName), ("amount", .number (.float r.amount)),
    ("allocationId", .string r.allocationId)] ++ optionalField "metadata" r.metadata
  have same : r.doc = Doc.ofValue (.object written) := by
    rw [Doc.ofValue_object, List.map_append, ← optionalMember_eq_map]
    rfl
  have fields : (Value.object written).FloatsReadBack :=
    ⟨trivial, fun x amount => Json.Number.float.inj amount ▸ back.1, trivial, optionalField_back back.2⟩
  have ordered : (Value.object written).normal = r.value :=
    congrArg Value.object (normalMembers_optional
      [("alias", .string r.aliasName), ("allocationId", .string r.allocationId),
        ("amount", .number (.float r.amount))]
      (show ["alias", "allocationId", "amount", "metadata"].Pairwise (· < ·) by decide) (by simp [Value.normal]) normal)
  have taken := Reader.any_takes fields
  rwa [← same, ordered] at taken

/-! ### Reading a frame as a response -/

namespace Request

variable {command : Command} {id : Option CorrelationId}

/-- Every request is written as it may be spelled. -/
theorem doc_wellSpelled (r : Request) : r.doc.WellSpelled := by
  refine Doc.ofMembers_wellSpelled ?_
  obtain ⟨command, id⟩ := r
  simp only [Command.members, List.forall_mem_append, List.forall_mem_cons, forall_mem_optionalMember]
  refine ⟨⟨Doc.ofString_wellSpelled _, fun d carried => ?_⟩, fun i _ => Doc.ofString_wellSpelled _⟩
  cases command with
  | echo payload => exact Option.some.inj carried ▸ Doc.ofValue_wellSpelled payload
  | requestForAllocation request => exact Option.some.inj carried ▸ request.doc_wellSpelled
  | useAllocation request => exact Option.some.inj carried ▸ request.doc_wellSpelled
  | getApplicationPolicies => cases carried
  | ping => cases carried

/-- What a command carries is read as the value that it stands for. -/
theorem payload_takes {d : Doc} (normal : command.IsNormal) (back : command.FloatsReadBack)
    (carried : command.payloadDoc? = some d) : Reader.any.Takes d command.payloadValue := by
  cases command with
  | echo payload =>
    obtain rfl := Option.some.inj carried
    have taken := Reader.any_takes back
    rwa [normal] at taken
  | requestForAllocation request =>
    exact Option.some.inj carried ▸ AllocationRequest.any_takes normal back
  | useAllocation request =>
    exact Option.some.inj carried ▸ UseAllocationRequest.any_takes normal back
  | getApplicationPolicies => cases carried
  | ping => cases carried

/-- A command without a payload has null for one. -/
theorem payloadValue_of_bare (bare : command.payloadDoc? = none) : command.payloadValue = .null := by
  cases command with
  | getApplicationPolicies => rfl
  | ping => rfl
  | _ => cases bare

/-- The ID of a request is read as that of a response, and the fields behind it are absent. -/
theorem written_id (id : Option CorrelationId) {r : Response} (none_yet : r.id = none) :
    Record.Written (Response.record.fields.drop 2) (optionalMember "id" CorrelationId.doc id) r
      { r with id := id } := by
  have absent : Record.Written (Response.record.fields.drop 3) [] { r with id := id }
      { r with id := id } := .absent rfl (.absent rfl (.absent rfl (.nil _)))
  have blank : { r with id := none } = r := by rw [← none_yet]
  rw [← List.append_nil (optionalMember "id" CorrelationId.doc id)]
  exact written_optional (fun x _ => ⟨x.reader_takes, Doc.ofString_ne_null _⟩) blank absent

/-- The response that the frame of a request is read as. -/
def reflected (r : Request) : Response :=
  ⟨r.command.messageType, r.command.payloadValue, r.id, none, none, none⟩

/-- A request is read as the response that reflects it. -/
theorem reflected_takes (normal : command.IsNormal) (back : command.FloatsReadBack) :
    Response.record.reader.Takes (Request.mk command id).doc (Request.mk command id).reflected := by
  refine Record.reader_takes (by decide) ?_
  refine .present (Field.of_takes (Reader.text_takes _)) ?_
  cases carried : command.payloadDoc? with
  | none =>
    simp only [optionalMember, reflected, payloadValue_of_bare carried]
    exact .absent rfl (written_id id rfl)
  | some d =>
    simp only [optionalMember]
    exact .present (Field.of_takes (payload_takes normal back carried)) (written_id id rfl)

/-! ### Reading a frame as a command -/

/-- The kinds are found by their names. -/
theorem kind_ofName (k : Command.Kind) : Command.Kind.ofName k.name = .ok k := by
  cases k <;> rfl

/-- What a command carries is read as its kind wants it. -/
theorem payloadOfDoc_takes {d : Doc} (normal : command.IsNormal) (back : command.FloatsReadBack)
    (carried : command.payloadDoc? = some d) {p : Place} (room : p.nesting + d.depth ≤ nestingLimit) :
    Command.payloadOfDoc command.kind p d = .ok command := by
  cases command with
  | echo payload =>
    obtain rfl := Option.some.inj carried
    have taken := Reader.any_takes back p room
    rw [normal] at taken
    exact congrArg (Except.map Command.echo) taken
  | requestForAllocation request =>
    obtain rfl := Option.some.inj carried
    exact congrArg (Except.map Command.requestForAllocation)
      (AllocationRequest.takes normal back p room)
  | useAllocation request =>
    obtain rfl := Option.some.inj carried
    exact congrArg (Except.map Command.useAllocation)
      (UseAllocationRequest.takes normal back p room)
  | getApplicationPolicies => cases carried
  | ping => cases carried

/-- A command without a payload is the only one of its kind. -/
theorem bare_of_payloadDoc? (bare : command.payloadDoc? = none) :
    ∃ expected, command.kind.bare? = some (command, expected) := by
  cases command with
  | getApplicationPolicies => exact ⟨_, rfl⟩
  | ping => exact ⟨_, rfl⟩
  | _ => cases bare

/-- The type tells the kind of the command. -/
theorem readMembers_type (command : Command) (p : Place) (rest : List (Member Doc)) :
    Command.readMembers p (Record.memberOf ("type", Doc.ofString command.messageType) :: rest) .nothing =
      Command.readMembers (p.behindMember (Record.memberOf ("type", Doc.ofString command.messageType))) rest
        (.kind command.kind) := by
  have kind (place : Place) :
      Command.kindOfDoc place (Doc.ofString command.messageType) = .ok command.kind := by
    simp only [Doc.ofString, Command.kindOfDoc, Json.Quoted.string_ofString, Command.messageType,
      Command.kindNamed, kind_ofName, bind, Except.bind]
    rfl
  simp only [Command.readMembers, Record.memberOf, Json.Quoted.string_ofString, bind, Except.bind,
    Command.Progress.read, kind]
  rfl

/-- The payload behind the type gives the command. -/
theorem readMembers_payload {p : Place} {d : Doc} {k : Command.Kind}
    (read : Command.payloadOfDoc k (p.ofMember (Record.memberOf ("payload", d))) d = .ok command)
    (rest : List (Member Doc)) :
    Command.readMembers p (Record.memberOf ("payload", d) :: rest) (.kind k) =
      Command.readMembers (p.behindMember (Record.memberOf ("payload", d))) rest (.whole command) := by
  simp only [Record.memberOf] at read
  simp only [Command.readMembers, Record.memberOf, Json.Quoted.string_ofString, bind, Except.bind,
    Command.Progress.read, read]
  rfl

/-- The ID is passed over. -/
theorem readMembers_id (p : Place) (i : CorrelationId) (progress : Command.Progress) :
    ∃ q, Command.readMembers p [Record.memberOf ("id", i.doc)] progress = .ok (progress, q) := by
  refine ⟨p.behindMember (Record.memberOf ("id", i.doc)), ?_⟩
  simp only [Command.readMembers, Record.memberOf, Json.Quoted.string_ofString, bind, Except.bind]
  rfl

/-- All members of a frame are read, and make the command. -/
theorem readMembers_frame (id : Option CorrelationId) (normal : command.IsNormal) (back : command.FloatsReadBack) {p : Place}
    (room : ∀ d, command.payloadDoc? = some d → p.nesting + d.depth ≤ nestingLimit) :
    ∃ progress q, Command.readMembers p
        ((command.members ++ optionalMember "id" CorrelationId.doc id).map Record.memberOf) .nothing =
          .ok (progress, q) ∧ progress.finish = .ok command := by
  have last (progress : Command.Progress) (p : Place) : ∃ q, Command.readMembers p
      ((optionalMember "id" CorrelationId.doc id).map Record.memberOf) progress = .ok (progress, q) := by
    cases id with
    | none => exact ⟨p, rfl⟩
    | some i => exact readMembers_id p i progress
  cases carried : command.payloadDoc? with
  | none =>
    obtain ⟨expected, bare⟩ := bare_of_payloadDoc? carried
    obtain ⟨q, passed⟩ := last (.kind command.kind)
      (p.behindMember (Record.memberOf ("type", Doc.ofString command.messageType)))
    refine ⟨.kind command.kind, q, ?_, by simp only [Command.Progress.finish, bare]⟩
    simp only [Command.members, carried, optionalMember]
    exact (readMembers_type command p _).trans passed
  | some d =>
    have read := payloadOfDoc_takes normal back carried (p := (p.behindMember (Record.memberOf
      ("type", Doc.ofString command.messageType))).ofMember (Record.memberOf ("payload", d)))
      (room d carried)
    obtain ⟨q, passed⟩ := last (.whole command) ((p.behindMember (Record.memberOf
      ("type", Doc.ofString command.messageType))).behindMember (Record.memberOf ("payload", d)))
    refine ⟨.whole command, q, ?_, rfl⟩
    simp only [Command.members, carried, optionalMember]
    exact (readMembers_type command p _).trans ((readMembers_payload read _).trans passed)

/-- What a command carries is nested less deep than its frame. -/
theorem depth_payload_lt (id : Option CorrelationId) {d : Doc} (carried : command.payloadDoc? = some d) :
    d.depth < (Request.mk command id).doc.depth := by
  refine Nat.lt_of_not_le fun deep => ?_
  cases depth : d.depth with
  | zero =>
    rw [depth] at deep
    cases deep
  | succ n =>
    rw [depth] at deep
    have member : ("payload", d) ∈ command.members ++ optionalMember "id" CorrelationId.doc id := by
      simp [Command.members, carried, optionalMember]
    have shallow := Doc.depth_ofMembers_le.1 deep _ member
    simp only [depth] at shallow
    omega

/-- The frame of a request is read as its command. -/
theorem parse_command (normal : command.IsNormal) (back : command.FloatsReadBack)
    (room : (Request.mk command id).doc.depth ≤ nestingLimit) :
    Command.parse (Request.mk command id).frame = .ok command := by
  obtain ⟨progress, q, read, finished⟩ := readMembers_frame id normal back
    (p := ⟨0 + 1, 0 + 1⟩) fun d carried => by
      have inner := depth_payload_lt id carried
      simp only []
      omega
  have inside : (Place.start 0).inside = .ok ⟨0 + 1, 0 + 1⟩ := rfl
  have taken : Command.ofDoc (Place.start 0) (Request.mk command id).doc = .ok command := by
    simp only [Command.ofDoc, Request.doc, Doc.ofMembers, inside, bind, Except.bind]
    rw [show (fun m : String × Doc => (⟨[], Json.Quoted.ofString m.1, [], [], m.2, []⟩ : Member Doc)) =
      Record.memberOf from rfl, read]
    simp only [Json.ObjectEnd.seen, finished]
    rfl
  rw [Command.parse, Request.frame, Json.readText_text _ (doc_wellSpelled _), taken]
  rfl

/-- The frame of a request is read as a response with the kind, the payload and the ID of the request. -/
theorem parse_response (normal : command.IsNormal) (back : command.FloatsReadBack)
    (room : (Request.mk command id).doc.depth ≤ nestingLimit) :
    Response.parse (Request.mk command id).frame = .ok (Request.mk command id).reflected :=
  (reflected_takes normal back).parse (doc_wellSpelled _) room

end Request

end CallPool
