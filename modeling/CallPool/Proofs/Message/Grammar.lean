import CallPool.Message.Response
import CallPool.Proofs.Json.Acceptance
import CallPool.Proofs.Json.Fields

/-!
# Which texts are responses

The members of an object say what a response is, each under the name of its field (`Response.Reads`), and
so do the elements of a list in the place of its field. A text is read as a response exactly if it is the
text of such a document (`Record.reader_ok_iff` and `text_of_scan`). What stands under other names, and
the order of the members, change nothing.

Main statement: `parse_ok_iff_spelled`.
-/

set_option autoImplicit false

namespace CallPool

open Json (Reader Record Field Doc Value Member Item Gap)

/-- A document that stands for a text. -/
def Json.Doc.IsText (d : Doc) (t : String) : Prop := d.meaning? = some (.string t)

/-- A document that stands for a text, or for none. -/
def Json.Doc.IsOptionalText (d : Doc) : Option String → Prop
  | some t => d.meaning? = some (.string t)
  | none => d.meaning? = some .null

/-- What reads texts, or what is made of them, may also read none. -/
theorem Json.Reader.optional_ok_iff_isOptionalText {α : Type} {r : Reader α} {text : α → String}
    {p : Json.Place} {d : Doc} (exact : ∀ x, r.ofDoc p d = .ok x ↔ d.IsText (text x)) {o : Option α} :
    r.optional.ofDoc p d = .ok o ↔ d.IsOptionalText (o.map text) := by
  rw [Reader.optional_ok_iff]
  cases o with
  | none => simp [Doc.IsOptionalText, Doc.meaning?_eq_null_iff]
  | some x =>
    simp only [exact, reduceCtorEq, and_false, false_or]
    constructor
    · rintro ⟨_, _, is_text, same⟩
      rw [Option.some.inj same]
      exact is_text
    · intro is_text
      refine ⟨fun null => ?_, x, is_text, rfl⟩
      cases (Doc.meaning?_eq_null_iff.2 null).symm.trans is_text

/-- A document that stands for a value with room for its brackets inside one bracket more, and that value
in normal form. -/
def Json.Doc.IsPayload (d : Doc) (v : Value) : Prop :=
  ∃ w, d.meaning? = some w ∧ d.depth ≤ 126 ∧ w.normal = v

/-- A document that stands for an ID, or for none. -/
def Json.Doc.IsOptionalId (d : Doc) (o : Option CorrelationId) : Prop :=
  d.IsOptionalText (o.map CorrelationId.text)

/-- An ID is read from the text that it is. -/
theorem CorrelationId.reader_ok_iff {p : Json.Place} {d : Doc} {i : CorrelationId} :
    reader.ofDoc p d = .ok i ↔ d.IsText i.text := by
  simp only [reader, Json.map_eq_ok_iff, Reader.text_ok_iff]
  constructor
  · rintro ⟨t, is_text, rfl⟩
    exact is_text
  · exact fun is_text => ⟨i.text, is_text, rfl⟩

/-- What is read as an ID does not depend on the place. -/
theorem CorrelationId.reader_settled (n : Nat) : reader.Settled n :=
  fun _ _ _ _ => reader_ok_iff.trans reader_ok_iff.symm

namespace Response

open Json.Record (Given Named occurrences)

/-- The names of the fields of a response. -/
def names : List String := ["type", "payload", "id", "replyTo", "message", "error"]

/-- A response is what named documents say: no field stands there twice, and each field is what is given
under its name, or its default if nothing is. -/
structure Reads (es : List (String × Doc)) (r : Response) : Prop where
  once : ∀ name ∈ names, occurrences name es ≤ 1
  messageType : Given es "type" Doc.IsText "" r.messageType
  payload : Given es "payload" Doc.IsPayload .null r.payload
  id : Given es "id" Doc.IsOptionalId none r.id
  replyTo : Given es "replyTo" Doc.IsOptionalId none r.replyTo
  message : Given es "message" Doc.IsOptionalText none r.message
  error : Given es "error" Doc.IsOptionalText none r.error

/-- The responses that documents spell: an object does with its members, and a list of no more elements
than there are fields with its elements under the names of the fields. -/
inductive Spelled : Doc → Response → Prop
  | object {ms : List (Member Doc)} {blanks : Gap} {es : List (String × Doc)} {r : Response}
      (named : Named ms es) (reads : Reads es r) : Spelled (.object ms (.closed blanks)) r
  | list {is : List (Item Doc)} {blanks : Gap} {r : Response} (few : is.length ≤ 6)
      (reads : Reads (names.zip (is.map Item.value)) r) : Spelled (.list is (.closed blanks)) r

/-- What the fields of a response take does not depend on the place. -/
theorem fields_settled : ∀ f ∈ record.fields, f.Settled 1 := by
  have text := Reader.text_settled 1
  have any := Reader.any_settled (show 1 ≤ Json.nestingLimit by decide)
  have id := CorrelationId.reader_settled 1
  simp only [record, List.forall_mem_cons, List.not_mem_nil, false_implies, implies_true, and_true]
  exact ⟨Field.of_settled text, Field.of_settled any, Field.of_settled (Reader.optional_settled id),
    Field.of_settled (Reader.optional_settled id), Field.of_settled (Reader.optional_settled text),
    Field.of_settled (Reader.optional_settled text)⟩

/-- No two fields touch the same part of a response. -/
theorem fields_commute : record.fields.Pairwise Field.Commutes := by
  simp only [record, List.pairwise_cons, List.forall_mem_cons, List.not_mem_nil, false_implies,
    implies_true, List.Pairwise.nil, and_true]
  refine ⟨⟨?_, ?_, ?_, ?_, ?_⟩, ⟨?_, ?_, ?_, ?_⟩, ⟨?_, ?_, ?_⟩, ⟨?_, ?_⟩, ?_⟩ <;>
    exact Field.of_commutes fun _ _ _ => rfl

/-- The fields of a response are filled exactly if each has what is given under its name. -/
theorem filled_iff {es : List (String × Doc)} {r : Response} :
    Record.Filled 1 record.fields es blank r ↔
      Given es "type" Doc.IsText "" r.messageType ∧ Given es "payload" Doc.IsPayload .null r.payload ∧
      Given es "id" Doc.IsOptionalId none r.id ∧ Given es "replyTo" Doc.IsOptionalId none r.replyTo ∧
      Given es "message" Doc.IsOptionalText none r.message ∧
      Given es "error" Doc.IsOptionalText none r.error := by
  have text : ∀ d x, Reader.text.ofDoc ⟨0, 1⟩ d = .ok x ↔ d.IsText x := fun _ _ => Reader.text_ok_iff
  have any : ∀ d x, Reader.any.ofDoc ⟨0, 1⟩ d = .ok x ↔ d.IsPayload x := by
    intro d x
    rw [Reader.any_ok_iff (by decide)]
    have room : 1 + d.depth ≤ Json.nestingLimit ↔ d.depth ≤ 126 := by
      simp only [Json.nestingLimit]
      omega
    simp only [room, Doc.IsPayload]
  have id : ∀ d x, CorrelationId.reader.optional.ofDoc ⟨0, 1⟩ d = .ok x ↔ d.IsOptionalId x :=
    fun _ _ => Reader.optional_ok_iff_isOptionalText fun _ => CorrelationId.reader_ok_iff
  have message : ∀ d x, Reader.text.optional.ofDoc ⟨0, 1⟩ d = .ok x ↔ d.IsOptionalText x := by
    intro d x
    have same := Reader.optional_ok_iff_isOptionalText (text d) (o := x)
    rwa [Option.map_id_fun', id_eq] at same
  constructor
  · intro filled
    obtain ⟨_, type, filled⟩ := (Record.filled_given text rfl).1 filled
    obtain ⟨_, payload, filled⟩ := (Record.filled_given any rfl).1 filled
    obtain ⟨_, own, filled⟩ := (Record.filled_given id rfl).1 filled
    obtain ⟨_, replied, filled⟩ := (Record.filled_given id rfl).1 filled
    obtain ⟨_, said, filled⟩ := (Record.filled_given message rfl).1 filled
    obtain ⟨_, refused, filled⟩ := (Record.filled_given message rfl).1 filled
    obtain rfl := filled
    exact ⟨type, payload, own, replied, said, refused⟩
  · rintro ⟨type, payload, own, replied, said, refused⟩
    exact (Record.filled_given text rfl).2 ⟨_, type, (Record.filled_given any rfl).2 ⟨_, payload,
      (Record.filled_given id rfl).2 ⟨_, own, (Record.filled_given id rfl).2 ⟨_, replied,
        (Record.filled_given message rfl).2 ⟨_, said,
          (Record.filled_given message rfl).2 ⟨_, refused, rfl⟩⟩⟩⟩⟩⟩

/-- Documents that are complete under other names hold the response that they say. -/
theorem holds_iff {es : List (String × Doc)} {r : Response}
    (complete : ∀ e ∈ es, e.1 ∉ names → e.2.break? = none) :
    record.Holds 1 es r ↔ Reads es r := by
  have every_field {holds : String → Prop} :
      (∀ f ∈ record.fields, holds f.key) ↔ ∀ name ∈ names, holds name := by
    simp [record, names, Field.of]
  have none_required : ∀ f ∈ record.fields, f.required = true → f.key ∈ es.map Prod.fst := by
    simp [record, Field.of]
  constructor
  · rintro ⟨_, once, _, filled⟩
    obtain ⟨type, payload, own, replied, said, refused⟩ := filled_iff.1 filled
    exact ⟨every_field.1 once, type, payload, own, replied, said, refused⟩
  · intro reads
    exact ⟨complete, every_field.2 reads.once, none_required, filled_iff.2
      ⟨reads.messageType, reads.payload, reads.id, reads.replyTo, reads.message, reads.error⟩⟩

/-! ### Texts -/

/-- A well-spelled document is read as a response exactly if it spells it. -/
theorem spells_iff {d : Doc} {r : Response} (spelled : d.WellSpelled) :
    record.Spells 1 d r ↔ Spelled d r := by
  have members_complete {ms : List (Member Doc)} {es : List (String × Doc)} (named : Named ms es)
      (well : Json.MembersWellSpelled ms) : ∀ e ∈ es, e.1 ∉ names → e.2.break? = none := by
    intro e member _
    have there : (some e.1, e.2) ∈ ms.map fun m => (Json.Quoted.meaning? m.key, m.value) := by
      rw [named]
      exact List.mem_map_of_mem member
    obtain ⟨m, own, same⟩ := List.mem_map.1 there
    rw [← (Prod.mk.inj same).2]
    exact Doc.break?_of_wellSpelled (Json.membersWellSpelled_iff.1 well m own).2
  have items_complete (is : List (Item Doc)) :
      ∀ e ∈ names.zip (is.map Item.value), e.1 ∉ names → e.2.break? = none :=
    fun e member unknown => absurd (List.of_mem_zip member).1 unknown
  constructor
  · intro spells
    cases spells with
    | object named holds =>
      exact .object named ((holds_iff (members_complete named spelled.1)).1 holds)
    | list few holds => exact .list few ((holds_iff (items_complete _)).1 holds)
  · intro spells
    cases spells with
    | object named reads =>
      exact .object named ((holds_iff (members_complete named spelled.1)).2 reads)
    | list few reads => exact .list few ((holds_iff (items_complete _)).2 reads)

/-- A document that stands by itself is read as a response exactly if the record spells it. -/
theorem ofDoc_ok_iff {offset : Nat} {d : Doc} {r : Response} :
    record.reader.ofDoc (Json.Place.start offset) d = .ok r ↔ record.Spells 1 d r := by
  refine (Record.reader_ok_iff (by decide) fields_commute fields_settled).trans ?_
  exact and_iff_right (by decide : 0 < Json.nestingLimit)

/-- A text with blanks around a document is read as the response that the document spells. -/
theorem parse_blanks_ok_iff {d : Doc} (spelled : d.WellSpelled) (before after : Gap) {r : Response} :
    parse (before.text ++ d.text ++ after.text) = .ok r ↔ Spelled d r :=
  (Reader.parse_blanks_ok_iff spelled before after).trans (ofDoc_ok_iff.trans (spells_iff spelled))

/-- A text is read as the response that is spelled by a document of which it is the text. -/
theorem parse_ok_iff {text : List UInt8} {r : Response} :
    parse text = .ok r ↔ ∃ (before : Gap) (d : Doc) (after : Gap), d.WellSpelled ∧
      text = before.text ++ d.text ++ after.text ∧ Spelled d r := by
  have whole : ∀ (offset : Nat) (d : Doc) (r : Response),
      record.reader.ofDoc (Json.Place.start offset) d = .ok r → d.break? = none := by
    intro offset d r read
    cases ofDoc_ok_iff.1 read <;> rfl
  refine (Reader.parse_ok_iff whole).trans ?_
  refine exists_congr fun before => exists_congr fun d => exists_congr fun after => ?_
  refine and_congr_right fun spelled => and_congr_right fun _ => ?_
  exact ofDoc_ok_iff.trans (spells_iff spelled)

/-! ### What changes nothing -/

/-- What stands under the names of the fields, in its order. -/
def known (es : List (String × Doc)) : List (String × Doc) := es.filter fun e => e.1 ∈ names

/-- A known name stands among all members as often as among the known ones. -/
theorem occurrences_known {name : String} (is_name : name ∈ names) (es : List (String × Doc)) :
    occurrences name (known es) = occurrences name es := by
  unfold occurrences known
  rw [List.countP_filter]
  refine List.countP_congr fun e _ => ?_
  constructor
  · intro both
    exact (Bool.and_eq_true_iff.1 both).1
  · intro same
    rw [Bool.and_eq_true_iff]
    exact ⟨same, by simpa [eq_of_beq same] using is_name⟩

/-- What stands under a known name stands among the known ones. -/
theorem lookup_known {name : String} (is_name : name ∈ names) (es : List (String × Doc)) :
    (known es).lookup name = es.lookup name := by
  induction es with
  | nil => rfl
  | cons e es ih =>
    unfold known at ih ⊢
    by_cases there : e.1 ∈ names
    · rw [List.filter_cons_of_pos (by simpa using there), List.lookup_cons, List.lookup_cons, ih]
    · have other : (name == e.1) = false := by
        simpa using fun same : name = e.1 => there (same ▸ is_name)
      rw [List.filter_cons_of_neg (by simpa using there), ih, List.lookup_cons, other]

/-- A document that stands once under its name is found, whatever the order. -/
theorem lookup_of_perm {name : String} {es es' : List (String × Doc)} (same : es.Perm es')
    (once : occurrences name es ≤ 1) : es.lookup name = es'.lookup name := by
  induction same with
  | nil => rfl
  | @cons e es es' _ ih =>
    rw [List.lookup_cons, List.lookup_cons]
    split
    · rfl
    · exact ih (Nat.le_trans (List.sublist_cons_self e es).countP_le once)
  | swap e e' es =>
    rw [List.lookup_cons, List.lookup_cons, List.lookup_cons, List.lookup_cons]
    by_cases first : name = e.1
    · by_cases second : name = e'.1
      · simp [occurrences, ← first, ← second] at once
      · have other : (name == e'.1) = false := by simpa using second
        rw [other]
    · have other : (name == e.1) = false := by simpa using first
      rw [other]
  | trans perm _ ih ih' =>
    refine (ih once).trans (ih' ?_)
    rw [occurrences, ← perm.countP_eq]
    exact once

/-- Neither the order of the members nor what stands under other names changes what is read. -/
theorem reads_of_perm {es es' : List (String × Doc)} (same : (known es).Perm (known es')) {r : Response}
    (reads : Reads es r) : Reads es' r := by
  have counted : ∀ name ∈ names, occurrences name es' = occurrences name es := by
    intro name is_name
    rw [← occurrences_known is_name es', ← occurrences_known is_name es]
    exact (same.countP_eq _).symm
  have found : ∀ name ∈ names, es'.lookup name = es.lookup name := by
    intro name is_name
    rw [← lookup_known is_name es', ← lookup_known is_name es]
    refine (lookup_of_perm same ?_).symm
    rw [occurrences_known is_name]
    exact reads.once name is_name
  have given {β : Type} {name : String} (is_name : name ∈ names) {is : Doc → β → Prop} {absent x : β}
      (given : Given es name is absent x) : Given es' name is absent x := by
    unfold Given at given ⊢
    rw [found name is_name]
    exact given
  exact ⟨fun name is_name => (counted name is_name).symm ▸ reads.once name is_name,
    given (by decide) reads.messageType, given (by decide) reads.payload, given (by decide) reads.id,
    given (by decide) reads.replyTo, given (by decide) reads.message, given (by decide) reads.error⟩

/-- Members have one list of names only. -/
theorem named_unique {ms : List (Member Doc)} {es es' : List (String × Doc)} (named : Named ms es)
    (named' : Named ms es') : es' = es := by
  have injective : Function.Injective fun e : String × Doc => (some e.1, e.2) := by
    rintro ⟨key, d⟩ ⟨key', d'⟩ same
    simpa using same
  exact (List.map_inj_right injective).1 (named'.symm.trans named)

/-- An object spells a response exactly if its named members read as it. -/
theorem spelled_object_iff {ms : List (Member Doc)} {blanks : Gap} {es : List (String × Doc)}
    (named : Named ms es) {r : Response} :
    Spelled (.object ms (.closed blanks)) r ↔ Reads es r := by
  constructor
  · intro spelled
    cases spelled with
    | object named' reads => exact named_unique named named' ▸ reads
  · exact fun reads => .object named reads

/-! ### When there is a response -/

/-- What may stand under a name: a text as the type, a value that fits inside one bracket as the payload,
and a text or none under the other names of fields. -/
structure Fits (name : String) (d : Doc) : Prop where
  text : name = "type" → ∃ t, d.IsText t
  value : name = "payload" → ∃ v, d.IsPayload v
  optional : name ∈ ["id", "replyTo", "message", "error"] → ∃ o, d.IsOptionalText o

/-- What stands once under its name is found there. -/
theorem lookup_of_mem {name : String} {d : Doc} {es : List (String × Doc)} (member : (name, d) ∈ es)
    (once : occurrences name es ≤ 1) : es.lookup name = some d := by
  obtain ⟨older, newer, rfl⟩ := List.append_of_mem member
  have none_older : occurrences name older = 0 := by
    simp only [occurrences, List.countP_append, List.countP_cons_of_pos, beq_self_eq_true] at once ⊢
    omega
  refine List.lookup_eq_some_iff.2 ⟨older, newer, rfl, fun e there => ?_⟩
  simpa using fun same : name = e.1 => List.countP_eq_zero.1 none_older e there (by simp [same])

/-- What is looked up stands there. -/
theorem mem_of_lookup {name : String} {d : Doc} {es : List (String × Doc)}
    (found : es.lookup name = some d) : (name, d) ∈ es := by
  obtain ⟨older, newer, rfl, -⟩ := List.lookup_eq_some_iff.1 found
  exact List.mem_append_right older List.mem_cons_self

/-- Something is given under a name that stands there once exactly if what stands there gives it. -/
theorem exists_given_iff {α : Type} {name : String} {es : List (String × Doc)} {is : Doc → α → Prop}
    {absent : α} (once : occurrences name es ≤ 1) :
    (∃ x, Given es name is absent x) ↔ ∀ d, (name, d) ∈ es → ∃ x, is d x := by
  unfold Given
  constructor
  · rintro ⟨x, given⟩ d member
    rw [lookup_of_mem member once] at given
    exact ⟨x, given⟩
  · intro gives
    cases found : es.lookup name with
    | none => exact ⟨absent, rfl⟩
    | some d => exact gives d (mem_of_lookup found)

/-- What may be an optional ID may be an optional text. -/
theorem exists_isOptionalId_iff {d : Doc} : (∃ i, d.IsOptionalId i) ↔ ∃ o, d.IsOptionalText o := by
  constructor
  · exact fun ⟨i, is_id⟩ => ⟨_, is_id⟩
  · rintro ⟨o, is_text⟩
    refine ⟨o.map CorrelationId.mk, ?_⟩
    simpa [Doc.IsOptionalId, Function.comp_def] using is_text

/-- Documents say a response exactly if no field stands there twice and under each name stands what may. -/
theorem exists_reads_iff {es : List (String × Doc)} :
    (∃ r, Reads es r) ↔ (∀ name ∈ names, occurrences name es ≤ 1) ∧ ∀ e ∈ es, Fits e.1 e.2 := by
  constructor
  · rintro ⟨r, reads⟩
    have fits {α : Type} {name : String} (is_name : name ∈ names) {is : Doc → α → Prop} {absent x : α}
        (given : Given es name is absent x) : ∀ d, (name, d) ∈ es → ∃ x, is d x :=
      (exists_given_iff (reads.once name is_name)).1 ⟨x, given⟩
    refine ⟨reads.once, ?_⟩
    rintro ⟨name, d⟩ member
    refine ⟨?_, ?_, ?_⟩
    · rintro rfl
      exact fits (by decide) reads.messageType d member
    · rintro rfl
      exact fits (by decide) reads.payload d member
    · intro is_optional
      simp only [List.mem_cons, List.not_mem_nil, or_false] at is_optional
      obtain rfl | rfl | rfl | rfl := is_optional
      · exact exists_isOptionalId_iff.1 (fits (by decide) reads.id d member)
      · exact exists_isOptionalId_iff.1 (fits (by decide) reads.replyTo d member)
      · exact fits (by decide) reads.message d member
      · exact fits (by decide) reads.error d member
  · rintro ⟨once, fits⟩
    have given {α : Type} (name : String) (is : Doc → α → Prop) (absent : α) (is_name : name ∈ names)
        (gives : ∀ d, Fits name d → ∃ x, is d x) : ∃ x, Given es name is absent x :=
      (exists_given_iff (once name is_name)).2 fun d member => gives d (fits (name, d) member)
    obtain ⟨type, is_type⟩ := given "type" Doc.IsText "" (by decide) fun _ fit => fit.text rfl
    obtain ⟨payload, is_payload⟩ := given "payload" Doc.IsPayload .null (by decide) fun _ fit =>
      fit.value rfl
    obtain ⟨id, is_id⟩ := given "id" Doc.IsOptionalId none (by decide) fun _ fit =>
      exists_isOptionalId_iff.2 (fit.optional (by decide))
    obtain ⟨replyTo, is_replyTo⟩ := given "replyTo" Doc.IsOptionalId none (by decide) fun _ fit =>
      exists_isOptionalId_iff.2 (fit.optional (by decide))
    obtain ⟨message, is_message⟩ := given "message" Doc.IsOptionalText none (by decide) fun _ fit =>
      fit.optional (by decide)
    obtain ⟨error, is_error⟩ := given "error" Doc.IsOptionalText none (by decide) fun _ fit =>
      fit.optional (by decide)
    exact ⟨⟨type, payload, id, replyTo, message, error⟩, once, is_type, is_payload, is_id, is_replyTo,
      is_message, is_error⟩

/-- The documents that spell a response: objects in which no field stands twice and under each name stands
what may, and lists of no more elements than there are fields, with what may stand there in the place of
each field. -/
inductive Admitted : Doc → Prop
  | object {ms : List (Member Doc)} {blanks : Gap} {es : List (String × Doc)} (named : Named ms es)
      (once : ∀ name ∈ names, occurrences name es ≤ 1) (fits : ∀ e ∈ es, Fits e.1 e.2) :
      Admitted (.object ms (.closed blanks))
  | list {is : List (Item Doc)} {blanks : Gap} (few : is.length ≤ 6)
      (fits : ∀ e ∈ names.zip (is.map Item.value), Fits e.1 e.2) : Admitted (.list is (.closed blanks))

/-- A document spells some response exactly if it is admitted. -/
theorem exists_spelled_iff {d : Doc} : (∃ r, Spelled d r) ↔ Admitted d := by
  constructor
  · rintro ⟨r, spelled⟩
    cases spelled with
    | object named reads =>
      obtain ⟨once, fits⟩ := exists_reads_iff.1 ⟨r, reads⟩
      exact .object named once fits
    | list few reads => exact .list few (exists_reads_iff.1 ⟨r, reads⟩).2
  · intro admitted
    cases admitted with
    | object named once fits =>
      obtain ⟨r, reads⟩ := exists_reads_iff.2 ⟨once, fits⟩
      exact ⟨r, .object named reads⟩
    | list few fits =>
      have distinct : (record.fields.map Field.key).Nodup := by decide
      obtain ⟨r, reads⟩ := exists_reads_iff.2
        ⟨fun name _ => (Record.numbered_fits distinct _).2 name, fits⟩
      exact ⟨r, .list few reads⟩

/-- A text is read as a response exactly if it is the text of an object or of a list that spells the
response, whatever blanks stand around and within; `Admitted` are the documents that spell one. Two
objects with the same members under the names of the fields, in any order, are read as the same response
or are both refused, whatever else stands in them. -/
theorem parse_ok_iff_spelled :
    (∀ text r, parse text = .ok r ↔ ∃ (before : Gap) (d : Doc) (after : Gap), d.WellSpelled ∧
      text = before.text ++ d.text ++ after.text ∧ Spelled d r) ∧
    (∀ d : Doc, d.WellSpelled → ∀ (before after : Gap) r,
      parse (before.text ++ d.text ++ after.text) = .ok r ↔ Spelled d r) ∧
    (∀ d, (∃ r, Spelled d r) ↔ Admitted d) ∧
    ∀ ms ms' blanks blanks' es es', (Doc.object ms (.closed blanks)).WellSpelled →
      (Doc.object ms' (.closed blanks')).WellSpelled → Named ms es → Named ms' es' →
      (known es).Perm (known es') → ∀ r, parse (Doc.object ms (.closed blanks)).text = .ok r ↔
        parse (Doc.object ms' (.closed blanks')).text = .ok r := by
  refine ⟨fun text r => parse_ok_iff, fun d spelled before after r =>
    parse_blanks_ok_iff spelled before after, fun d => exists_spelled_iff, ?_⟩
  intro ms ms' blanks blanks' es es' spelled spelled' named named' same r
  have read {d : Doc} (spelled : d.WellSpelled) : parse d.text = .ok r ↔ Spelled d r := by
    simpa [Json.Gap.text] using parse_blanks_ok_iff spelled [] []
  calc parse (Doc.object ms (.closed blanks)).text = .ok r
    _ ↔ Reads es r := (read spelled).trans (spelled_object_iff named)
    _ ↔ Reads es' r := ⟨reads_of_perm same, reads_of_perm same.symm⟩
    _ ↔ parse (Doc.object ms' (.closed blanks')).text = .ok r :=
      ((read spelled').trans (spelled_object_iff named')).symm

/-- Empty brackets inside as many others. -/
def nested : Nat → Doc
  | 0 => Doc.ofItems []
  | n + 1 => Doc.ofItems [nested n]

/-- Nested lists are well spelled, however deep. -/
theorem nested_wellSpelled (n : Nat) : (nested n).WellSpelled := by
  induction n with
  | zero => simp [nested, Doc.ofItems, Doc.WellSpelled, Json.ItemsWellSpelled]
  | succ n ih => simpa [nested, Doc.ofItems, Doc.WellSpelled, Json.ItemsWellSpelled] using ih

/-- Members that are written have the names they were given. -/
theorem named_ofMembers (es : List (String × Doc)) : Named (es.map Record.memberOf) es := by
  unfold Named
  rw [List.map_map]
  refine List.map_congr_left fun e _ => ?_
  simp [Record.memberOf, Json.Quoted.string_ok_iff.1 (Json.Quoted.string_ofString e.1 0)]

/-- Behind a member that no field has, deeper than any value that is read, stand an ID and a type. -/
theorem parse_of_unknownMember :
    parse (Doc.ofMembers [("trace", nested 200), ("id", Doc.ofString "a"), ("type", Doc.ofString "b")]).text
      = .ok ⟨"b", .null, some ⟨"a"⟩, none, none, none⟩ := by
  obtain ⟨-, read, -, alike⟩ := parse_ok_iff_spelled
  have string (s : String) : (Doc.ofString s).WellSpelled := Json.Quoted.ofString_wellSpelled s
  have text (s : String) : (Doc.ofString s).meaning? = some (.string s) :=
    congrArg (Option.map Value.string) (Json.Quoted.string_ok_iff.1 (Json.Quoted.string_ofString s 0))
  have long : (Doc.ofMembers
      [("trace", nested 200), ("id", Doc.ofString "a"), ("type", Doc.ofString "b")]).WellSpelled :=
    Doc.ofMembers_wellSpelled (by simp [string, nested_wellSpelled])
  have short : (Doc.ofMembers [("type", Doc.ofString "b"), ("id", Doc.ofString "a")]).WellSpelled :=
    Doc.ofMembers_wellSpelled (by simp [string])
  have same : (known [("trace", nested 200), ("id", Doc.ofString "a"), ("type", Doc.ofString "b")]).Perm
      (known [("type", Doc.ofString "b"), ("id", Doc.ofString "a")]) := by
    simp [known, names, List.Perm.swap]
  refine (alike _ _ [] [] _ _ long short (named_ofMembers _) (named_ofMembers _) same _).2 ?_
  have spelled : Spelled (Doc.ofMembers [("type", Doc.ofString "b"), ("id", Doc.ofString "a")])
      ⟨"b", .null, some ⟨"a"⟩, none, none, none⟩ :=
    .object (named_ofMembers _) ⟨by decide, text "b", rfl, text "a", rfl, rfl, rfl⟩
  have parsed := (read _ short [] [] _).2 spelled
  simp only [Json.Gap.text, List.map_nil, List.nil_append, List.append_nil] at parsed
  exact parsed

end Response

end CallPool
