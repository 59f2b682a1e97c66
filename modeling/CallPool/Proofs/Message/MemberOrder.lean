import CallPool.Proofs.Message.Decoding
import CallPool.Proofs.Message.Frames
import Mathlib.Data.List.Permutation

/-!
# The order of the members of a command

A command has its kind and its payload under two names, and what stands under other names is passed over.
So what matters of the order of its members is which of the two comes first (`completes_nothing_iff`).
Behind its kind a payload is read as the kind wants it; in front of it, it is kept as a value until the
kind is known, and then taken from that value. Both ways take the same from what is read as a value
(`payloadOfDoc_agrees`). But a record passes over members that no field has, so that behind its kind a
payload may have members there that no value has: a number out of range, half of a surrogate pair, brackets
that are too deep. Such a payload is refused in front of its kind, and that is the only difference
(`Overlooks`).

Main statement: `order_matters_only_to_skipped_members`.
-/

set_option autoImplicit false

namespace CallPool

open Json (Reader Record Field Doc Value Member Place Gap Fault Quoted nestingLimit)
open Json.Record (Named Skips)

namespace Command

/-! ### Kinds -/

/-- A kind is read from its own name only. -/
theorem Kind.ofName_ok_iff {name : String} {k : Kind} : Kind.ofName name = .ok k ↔ name = k.name := by
  constructor
  · intro found
    unfold Kind.ofName at found
    split at found
    · next k' first =>
      obtain rfl := Except.ok.inj found
      have same := List.find?_some first
      exact (eq_of_beq same).symm
    · cases found
  · rintro rfl
    exact Request.kind_ofName k

/-- A kind is named by its own name, wherever that stands. -/
theorem kindNamed_ok_iff {name : String} {place : Nat} {k : Kind} :
    kindNamed name place = .ok k ↔ name = k.name := by
  rw [← Kind.ofName_ok_iff, kindNamed]
  cases Kind.ofName name <;> simp [Except.mapError]

/-- The documents that name a kind: its name as a text, or as the only key of an object, with `null` under
it. -/
inductive Names (k : Kind) : Doc → Prop
  | text {s : Quoted} (name : Quoted.meaning? s = some k.name) : Names k (.string s)
  | object {m : Member Doc} {blanks : Gap} (name : Quoted.meaning? m.key = some k.name)
      (null : m.value = .literal .null) : Names k (.object [m] (.closed blanks))

/-- An object names a kind exactly if its only member has that name and is null. -/
theorem kindOfMembers_cons_ok_iff {p : Place} {m : Member Doc} {ms : List (Member Doc)}
    {close : Json.ObjectEnd} {k : Kind} :
    kindOfMembers p (m :: ms) close = .ok k ↔ Quoted.meaning? m.key = some k.name ∧
      m.value = .literal .null ∧ ms = [] ∧ ∃ blanks, close = .closed blanks := by
  simp only [kindOfMembers, Json.bind_eq_ok_iff, kindNamed_ok_iff, Quoted.string_ok_iff]
  constructor
  · rintro ⟨name, here, k', rfl, read⟩
    split at read
    · next null =>
      cases ms with
      | nil =>
        cases close with
        | closed blanks => exact Except.ok.inj read ▸ ⟨here, null, rfl, blanks, rfl⟩
        | broken b =>
          simp only [] at read
          repeat' split at read
          all_goals cases read
        | brokenKey => cases read
      | cons m' ms => cases read
    · cases read
  · rintro ⟨here, null, rfl, blanks, rfl⟩
    refine ⟨_, here, k, rfl, ?_⟩
    rw [null]

/-- The kind is read from a document that names it. -/
theorem kindOfDoc_ok_iff {p : Place} {d : Doc} {k : Kind} (room : p.nesting < nestingLimit) :
    kindOfDoc p d = .ok k ↔ Names k d := by
  cases d with
  | string s =>
    simp only [kindOfDoc, Json.bind_eq_ok_iff, kindNamed_ok_iff, Quoted.string_ok_iff]
    constructor
    · rintro ⟨name, here, rfl⟩
      exact .text here
    · rintro ⟨here⟩
      exact ⟨_, here, rfl⟩
  | object ms close =>
    simp only [kindOfDoc, Place.inside_of_room room, bind, Except.bind]
    cases ms with
    | nil =>
      constructor
      · intro read
        cases close <;> cases read
      · rintro ⟨⟩
    | cons m ms =>
      rw [kindOfMembers_cons_ok_iff]
      constructor
      · rintro ⟨here, null, rfl, blanks, rfl⟩
        exact .object here null
      · rintro (_ | ⟨here, null⟩)
        exact ⟨here, null, rfl, _, rfl⟩
  | _ =>
    constructor
    · intro read
      cases read
    · intro names
      cases names

/-! ### Payloads -/

/-- Who takes `c` from `n`, and nothing from anything else, takes `c` exactly from `n`. -/
theorem ok_iff_of_only {δ ε : Type} {take : δ → Except ε Command} {n d : δ} {c c' : Command}
    (taken : take n = .ok c) (only : d ≠ n → take d ≠ .ok c') : take d = .ok c' ↔ d = n ∧ c = c' := by
  constructor
  · intro read
    by_cases same : d = n
    · exact ⟨same, Except.ok.inj (taken.symm.trans (same ▸ read))⟩
    · exact absurd read (only same)
  · rintro ⟨rfl, rfl⟩
    exact taken

/-- A command that carries nothing has `null` as its payload. -/
theorem payloadOfDoc_bare_ok_iff {k : Kind} {c c' : Command} {expected : Json.Expected}
    (bare : k.bare? = some (c, expected)) {p : Place} {d : Doc} :
    payloadOfDoc k p d = .ok c' ↔ d = .literal .null ∧ c = c' := by
  refine ok_iff_of_only (by cases k <;> cases bare <;> rfl) fun not_null read => ?_
  cases k <;> cases bare <;> cases d with
    | literal w =>
      cases w with
      | null => exact not_null rfl
      | _ => cases read
    | _ => cases read

/-- A command without a payload is made of null only. -/
theorem payloadOfValue_bare_ok_iff {k : Kind} {c c' : Command} {expected : Json.Expected}
    (bare : k.bare? = some (c, expected)) {v : Value} :
    payloadOfValue k v = .ok c' ↔ v = .null ∧ c = c' := by
  refine ok_iff_of_only (by cases k <;> cases bare <;> rfl) fun not_null read => ?_
  cases k <;> cases bare <;> cases v with
    | null => exact not_null rfl
    | _ => cases read

/-- From a payload that is read as a value a command is taken just as from that value. -/
theorem payloadOfDoc_agrees {k : Kind} {p : Place} {d : Doc} {v : Value} {c : Command}
    (read : d.value p = .ok v) : payloadOfDoc k p d = .ok c ↔ payloadOfValue k v = .ok c := by
  have carried {α : Type} {r : Reader α} {make : α → Command} (agrees : r.Agrees) :
      (r.ofDoc p d).map make = .ok c ↔ (r.ofValue .exactly v).map make = .ok c := by
    simp only [Json.map_eq_ok_iff, agrees .exactly p d v _ read]
  have bare {c' : Command} {expected : Json.Expected} (bare : k.bare? = some (c', expected)) :
      payloadOfDoc k p d = .ok c ↔ payloadOfValue k v = .ok c := by
    rw [payloadOfDoc_bare_ok_iff bare, payloadOfValue_bare_ok_iff bare]
    cases Doc.value_eq_ok_iff.1 read <;> simp
  cases k with
  | echo => exact carried Reader.any_agrees
  | requestForAllocation => exact carried AllocationRequest.reader_consistent.agrees
  | useAllocation => exact carried UseAllocationRequest.reader_consistent.agrees
  | getApplicationPolicies => exact bare rfl
  | ping => exact bare rfl

/-- The names under which a payload is looked at, where there may be others. -/
def Kind.payloadNames? : Kind → Option (List String)
  | requestForAllocation => some ["alias", "amount", "metadata"]
  | useAllocation => some ["alias", "amount", "allocationId", "metadata"]
  | _ => none

/-- A payload from which a command is taken is read as a value, unless a member that no field has is not. -/
theorem value_or_skips_of_payload {k : Kind} {p : Place} {d : Doc} {c : Command}
    (taken : payloadOfDoc k p d = .ok c) : (∃ v, d.value p = .ok v) ∨
      ∃ names, k.payloadNames? = some names ∧ Skips names (p.nesting + 1) d := by
  have bare {c' : Command} {expected : Json.Expected} (bare : k.bare? = some (c', expected)) :
      ∃ v, d.value p = .ok v := by
    obtain ⟨rfl, -⟩ := (payloadOfDoc_bare_ok_iff bare).1 taken
    exact ⟨.null, rfl⟩
  cases k with
  | echo =>
    obtain ⟨v, here, -⟩ := Json.map_eq_ok_iff.1 taken
    obtain ⟨w, value, -⟩ := Json.map_eq_ok_iff.1 here
    exact .inl ⟨w, value⟩
  | requestForAllocation =>
    obtain ⟨r, here, -⟩ := Json.map_eq_ok_iff.1 taken
    have looks : ∀ f ∈ AllocationRequest.record.fields, f.Looks := by simp [AllocationRequest.record]
    exact (Record.value_or_skips_of_read looks here).imp_right fun skips => ⟨_, rfl, skips⟩
  | useAllocation =>
    obtain ⟨r, here, -⟩ := Json.map_eq_ok_iff.1 taken
    have looks : ∀ f ∈ UseAllocationRequest.record.fields, f.Looks := by
      simp [UseAllocationRequest.record]
    exact (Record.value_or_skips_of_read looks here).imp_right fun skips => ⟨_, rfl, skips⟩
  | getApplicationPolicies => exact .inl (bare rfl)
  | ping => exact .inl (bare rfl)

/-- What is taken from a payload does not depend on where it stands, inside one bracket. -/
theorem payloadOfDoc_settled {k : Kind} {p : Place} (inside : p.nesting = 1) {d : Doc} {c : Command} :
    payloadOfDoc k p d = .ok c ↔ payloadOfDoc k ⟨0, 1⟩ d = .ok c := by
  have carried {α : Type} {r : Reader α} {make : α → Command} (settled : r.Settled 1) :
      (r.ofDoc p d).map make = .ok c ↔ (r.ofDoc ⟨0, 1⟩ d).map make = .ok c := by
    simp only [Json.map_eq_ok_iff, settled p d _ inside]
  have record {α : Type} {r : Record α} (distinct : (r.fields.map Field.key).Nodup)
      (commute : r.fields.Pairwise Field.Commutes) (looks : ∀ f ∈ r.fields, f.Looks)
      (consistent : ∀ f ∈ r.fields, f.Consistent) : r.reader.Settled 1 :=
    Record.reader_settled distinct commute fun f member =>
      (looks f member).settled (consistent f member).agrees (by decide)
  cases k with
  | echo => exact carried (Reader.any_settled (by decide))
  | requestForAllocation =>
    refine carried (record (by decide) ?_ ?_ ?_) <;> simp [AllocationRequest.record]
  | useAllocation =>
    refine carried (record (by decide) ?_ ?_ ?_) <;> simp [UseAllocationRequest.record]
  | getApplicationPolicies => exact (payloadOfDoc_bare_ok_iff rfl).trans (payloadOfDoc_bare_ok_iff rfl).symm
  | ping => exact (payloadOfDoc_bare_ok_iff rfl).trans (payloadOfDoc_bare_ok_iff rfl).symm

/-! ### Members -/

/-- What the members of an object are: their names, as far as their keys stand for texts, and what stands
under them. -/
def entries (ms : List (Member Doc)) : List (Option String × Doc) :=
  ms.map fun m => (Quoted.meaning? m.key, m.value)

/-- What stands under the names of the kind and of the payload, in its order. -/
def known (es : List (Option String × Doc)) : List (Option String × Doc) :=
  es.filter fun e => e.1 = some "type" ∨ e.1 = some "payload"

/-- What has been read of a command when what stands under one of the two names is read. -/
inductive Progress.Takes : Progress → Option String × Doc → Progress → Prop
  | kind {k : Kind} {e : Option String × Doc} (here : e.1 = some "type") (names : Names k e.2) :
      Takes .nothing e (.kind k)
  | payload {k : Kind} {e : Option String × Doc} {c : Command} (here : e.1 = some "payload")
      (taken : payloadOfDoc k ⟨0, 1⟩ e.2 = .ok c) : Takes (.kind k) e (.whole c)
  | kept {e : Option String × Doc} {v : Value} (here : e.1 = some "payload")
      (read : e.2.value ⟨0, 1⟩ = .ok v) : Takes .nothing e (.payload v)
  | kindBehind {k : Kind} {e : Option String × Doc} {v : Value} {c : Command} (here : e.1 = some "type")
      (names : Names k e.2) (taken : payloadOfValue k v = .ok c) : Takes (.payload v) e (.whole c)

/-- A first type is read exactly if the progress can take it. -/
theorem Progress.read_type_ok_iff {s s' : Progress} {p : Place} (inside : p.nesting = 1)
    {m : Member Doc} : (s.has "type" = false ∧ s.read "type" p m = .ok s') ↔
      s.Takes (some "type", m.value) s' := by
  have kind (k : Kind) : kindOfDoc (p.ofMember m) m.value = .ok k ↔ Names k m.value :=
    kindOfDoc_ok_iff (show p.nesting < nestingLimit from inside ▸ by decide)
  constructor
  · rintro ⟨fresh, read⟩
    obtain ⟨k, here, read⟩ := Json.bind_eq_ok_iff.1 read
    have names := (kind k).1 here
    cases s with
    | nothing => exact Except.ok.inj read ▸ .kind rfl names
    | payload v =>
      dsimp only at read
      split at read
      · next taken => exact Except.ok.inj read ▸ .kindBehind rfl names taken
      · cases read
    | kind => cases fresh
    | whole => cases fresh
  · intro takes
    cases takes with
    | kind here names => exact ⟨rfl, Json.bind_eq_ok_iff.2 ⟨_, (kind _).2 names, rfl⟩⟩
    | kindBehind here names taken =>
      exact ⟨rfl, Json.bind_eq_ok_iff.2 ⟨_, (kind _).2 names, by simp only [taken]⟩⟩
    | payload here => exact absurd here (by simp)
    | kept here => exact absurd here (by simp)

/-- A first payload is read exactly if the progress can take it. -/
theorem Progress.read_payload_ok_iff {s s' : Progress} {p : Place} (inside : p.nesting = 1)
    {m : Member Doc} : (s.has "payload" = false ∧ s.read "payload" p m = .ok s') ↔
      s.Takes (some "payload", m.value) s' := by
  have payload (k : Kind) (c : Command) : payloadOfDoc k (p.ofMember m) m.value = .ok c ↔
      payloadOfDoc k ⟨0, 1⟩ m.value = .ok c := payloadOfDoc_settled (p := p.ofMember m) inside
  have value (v : Value) : m.value.value (p.ofMember m) = .ok v ↔ m.value.value ⟨0, 1⟩ = .ok v := by
    have outside : (p.ofMember m).nesting = 1 := inside
    rw [Doc.value_ok_iff _ _ v (by rw [outside]; decide), Doc.value_ok_iff _ ⟨0, 1⟩ v (by decide), outside]
  constructor
  · rintro ⟨fresh, read⟩
    cases s with
    | nothing =>
      obtain ⟨v, here, rfl⟩ := Json.map_eq_ok_iff.1 read
      exact .kept rfl ((value v).1 here)
    | kind k =>
      obtain ⟨c, here, rfl⟩ := Json.map_eq_ok_iff.1 read
      exact .payload rfl ((payload k c).1 here)
    | payload => cases fresh
    | whole => cases fresh
  · intro takes
    cases takes with
    | payload here taken => exact ⟨rfl, Json.map_eq_ok_iff.2 ⟨_, (payload _ _).2 taken, rfl⟩⟩
    | kept here read => exact ⟨rfl, Json.map_eq_ok_iff.2 ⟨_, (value _).2 read, rfl⟩⟩
    | kind here => exact absurd here (by simp)
    | kindBehind here => exact absurd here (by simp)

/-- One member is read: it is passed over, or taken under one of the two names. -/
theorem readMembers_cons_ok_iff {p : Place} (inside : p.nesting = 1) {m : Member Doc}
    {ms : List (Member Doc)} {s : Progress} {x : Progress × Place} :
    readMembers p (m :: ms) s = .ok x ↔ ∃ key, Quoted.meaning? m.key = some key ∧
      (key ≠ "type" ∧ key ≠ "payload" ∧ m.value.break? = none ∧
        readMembers (p.behindMember m) ms s = .ok x ∨
      (key = "type" ∨ key = "payload") ∧ ∃ s', s.Takes (some key, m.value) s' ∧
        readMembers (p.behindMember m) ms s' = .ok x) := by
  rw [readMembers, Json.bind_eq_ok_iff]
  refine exists_congr fun key => and_congr Quoted.string_ok_iff ?_
  by_cases is_type : key = "type"
  · subst is_type
    cases old : s.has "type" <;>
      simp [← Progress.read_type_ok_iff inside, Json.bind_eq_ok_iff, old]
  · by_cases is_payload : key = "payload"
    · subst is_payload
      cases old : s.has "payload" <;>
        simp [← Progress.read_payload_ok_iff inside, Json.bind_eq_ok_iff, old]
    · simp [is_type, is_payload, Json.bind_eq_ok_iff, Record.passOver_eq_ok_iff]

/-- The command that has been read when all this is taken as well. -/
def Progress.Completes : Progress → List (Option String × Doc) → Command → Prop
  | s, [], c => s.finish = .ok c
  | s, e :: es, c => ∃ s', s.Takes e s' ∧ s'.Completes es c

/-- Well-spelled members are read as a command exactly if all have names and those under the two names
complete it. -/
theorem readMembers_ok_iff {ms : List (Member Doc)} (spelled : Json.MembersWellSpelled ms) {p : Place}
    (inside : p.nesting = 1) {s : Progress} {c : Command} :
    (∃ s' q, readMembers p ms s = .ok (s', q) ∧ s'.finish = .ok c) ↔
      (∀ e ∈ entries ms, e.1 ≠ none) ∧ s.Completes (known (entries ms)) c := by
  induction ms generalizing p s with
  | nil => simp [readMembers, entries, known, Progress.Completes]
  | cons m ms ih =>
    have complete : m.value.break? = none :=
      Doc.break?_of_wellSpelled (Json.membersWellSpelled_iff.1 spelled m List.mem_cons_self).2
    have behind := fun s' => ih spelled.2.2 (p := p.behindMember m) (s := s') inside
    have head : entries (m :: ms) = (Quoted.meaning? m.key, m.value) :: entries ms := rfl
    simp only [readMembers_cons_ok_iff inside, head, List.forall_mem_cons]
    cases name : Quoted.meaning? m.key with
    | none => simp
    | some key =>
      by_cases two : key = "type" ∨ key = "payload"
      · rw [known, List.filter_cons_of_pos (by simpa using two), ← known, Progress.Completes]
        constructor
        · rintro ⟨s', q, ⟨_, same, ⟨not_type, not_payload, -, -⟩ | ⟨-, s'', takes, read⟩⟩, finished⟩
          · obtain rfl := Option.some.inj same
            exact absurd two (not_or.2 ⟨not_type, not_payload⟩)
          · obtain rfl := Option.some.inj same
            obtain ⟨named, completes⟩ := (behind s'').1 ⟨s', q, read, finished⟩
            exact ⟨⟨by simp, named⟩, s'', takes, completes⟩
        · rintro ⟨⟨-, named⟩, s'', takes, completes⟩
          obtain ⟨s', q, read, finished⟩ := (behind s'').2 ⟨named, completes⟩
          exact ⟨s', q, ⟨key, rfl, .inr ⟨two, s'', takes, read⟩⟩, finished⟩
      · rw [known, List.filter_cons_of_neg (by simpa using two), ← known]
        obtain ⟨not_type, not_payload⟩ := not_or.1 two
        simpa [not_type, not_payload, complete] using behind s

/-- Which command is made by what stands under the two names: a kind alone, if such a command carries
nothing, or a kind and a payload that is read as that kind wants it. A payload in front of the kind must be
read as a value too. -/
inductive Makes : List (Option String × Doc) → Command → Prop
  | bare {k : Kind} {d : Doc} {c : Command} {expected : Json.Expected} (names : Names k d)
      (bare : k.bare? = some (c, expected)) : Makes [(some "type", d)] c
  | behind {k : Kind} {d e : Doc} {c : Command} (names : Names k d)
      (taken : payloadOfDoc k ⟨0, 1⟩ e = .ok c) : Makes [(some "type", d), (some "payload", e)] c
  | inFront {k : Kind} {d e : Doc} {c : Command} (names : Names k d)
      (taken : payloadOfDoc k ⟨0, 1⟩ e = .ok c) (readable : e.Readable 1) :
      Makes [(some "payload", e), (some "type", d)] c

/-- A kind alone makes a command exactly if the command has no payload. -/
theorem finish_kind_ok_iff {k : Kind} {c : Command} :
    (Progress.kind k).finish = .ok c ↔ ∃ expected, k.bare? = some (c, expected) := by
  cases bare : k.bare? <;> simp [Progress.finish, bare, Prod.ext_iff]

/-- A whole command is completed by no further member. -/
theorem completes_whole_iff {es : List (Option String × Doc)} {c c' : Command} :
    Progress.Completes (.whole c) es c' ↔ es = [] ∧ c = c' := by
  cases es with
  | nil => simp [Progress.Completes, Progress.finish]
  | cons e es =>
    constructor
    · rintro ⟨s, takes, -⟩
      cases takes
    · rintro ⟨⟨⟩, -⟩

/-- Behind a kind there is no more if such a command carries nothing, or a payload as the kind wants it. -/
theorem completes_kind_iff {k : Kind} {es : List (Option String × Doc)} {c : Command} :
    Progress.Completes (.kind k) es c ↔ (es = [] ∧ ∃ expected, k.bare? = some (c, expected)) ∨
      ∃ d, es = [(some "payload", d)] ∧ payloadOfDoc k ⟨0, 1⟩ d = .ok c := by
  constructor
  · intro completes
    cases es with
    | nil => exact .inl ⟨rfl, finish_kind_ok_iff.1 completes⟩
    | cons e es =>
      obtain ⟨name, d⟩ := e
      obtain ⟨s, takes, completes⟩ := completes
      cases takes with
      | payload here taken =>
        obtain rfl : name = some "payload" := here
        obtain ⟨rfl, rfl⟩ := completes_whole_iff.1 completes
        exact .inr ⟨d, rfl, taken⟩
  · rintro (⟨rfl, bare⟩ | ⟨d, rfl, taken⟩)
    · exact finish_kind_ok_iff.2 bare
    · exact ⟨_, .payload rfl taken, rfl⟩

/-- Behind a payload there is a kind that takes a command from it. -/
theorem completes_payload_iff {v : Value} {es : List (Option String × Doc)} {c : Command} :
    Progress.Completes (.payload v) es c ↔
      ∃ k d, es = [(some "type", d)] ∧ Names k d ∧ payloadOfValue k v = .ok c := by
  constructor
  · intro completes
    cases es with
    | nil => cases completes
    | cons e es =>
      obtain ⟨name, d⟩ := e
      obtain ⟨s, takes, completes⟩ := completes
      cases takes with
      | kindBehind here names taken =>
        obtain rfl : name = some "type" := here
        obtain ⟨rfl, rfl⟩ := completes_whole_iff.1 completes
        exact ⟨_, d, rfl, names, taken⟩
  · rintro ⟨k, d, rfl, names, taken⟩
    exact ⟨_, .kindBehind rfl names taken, rfl⟩

/-- From nothing, members complete the command that they make. -/
theorem completes_nothing_iff {es : List (Option String × Doc)} {c : Command} :
    Progress.Completes .nothing es c ↔ Makes es c := by
  have value (d : Doc) : (∃ v, d.value ⟨0, 1⟩ = .ok v) ↔ d.Readable 1 := Doc.exists_value_iff (by decide)
  constructor
  · intro completes
    cases es with
    | nil => cases completes
    | cons e es =>
      obtain ⟨name, d⟩ := e
      obtain ⟨s, takes, completes⟩ := completes
      cases takes with
      | kind here names =>
        obtain rfl : name = some "type" := here
        obtain ⟨rfl, expected, bare⟩ | ⟨e, rfl, taken⟩ := completes_kind_iff.1 completes
        · exact .bare names bare
        · exact .behind names taken
      | kept here read =>
        obtain rfl : name = some "payload" := here
        obtain ⟨k, e, rfl, names, taken⟩ := completes_payload_iff.1 completes
        exact .inFront names ((payloadOfDoc_agrees read).2 taken) ((value d).1 ⟨_, read⟩)
  · intro makes
    cases makes with
    | bare names bare => exact ⟨_, .kind rfl names, completes_kind_iff.2 (.inl ⟨rfl, _, bare⟩)⟩
    | behind names taken => exact ⟨_, .kind rfl names, completes_kind_iff.2 (.inr ⟨_, rfl, taken⟩)⟩
    | @inFront k d e c names taken readable =>
      obtain ⟨v, read⟩ := (value e).2 readable
      exact ⟨_, .kept rfl read,
        completes_payload_iff.2 ⟨k, d, rfl, names, (payloadOfDoc_agrees read).1 taken⟩⟩

/-! ### Texts -/

/-- A text of an object with these members. -/
def IsObject (text : List UInt8) (ms : List (Member Doc)) : Prop :=
  ∃ before blanks after : Gap, (Doc.object ms (.closed blanks)).WellSpelled ∧
    text = before.text ++ (Doc.object ms (.closed blanks)).text ++ after.text

/-- The text of well-spelled members is an object of them. -/
theorem isObject_of_wellSpelled {text : List UInt8} {ms : List (Member Doc)}
    (spelled : ∀ m ∈ ms, Quoted.WellSpelled m.key ∧ m.value.WellSpelled)
    (same : text = (Doc.object ms (.closed [])).text) : IsObject text ms :=
  ⟨[], [], [], ⟨Json.membersWellSpelled_iff.2 spelled, [], rfl, fun _ => rfl⟩, by simp [same, Json.Gap.text]⟩

/-- The text of named documents that are well spelled is an object of them. -/
theorem isObject_ofMembers {text : List UInt8} {es : List (String × Doc)}
    (spelled : ∀ e ∈ es, e.2.WellSpelled) (same : text = (Doc.ofMembers es).text) :
    IsObject text (es.map Record.memberOf) := by
  refine isObject_of_wellSpelled ?_ same
  rw [List.forall_mem_map]
  exact fun e member => ⟨Quoted.ofString_wellSpelled e.1, spelled e member⟩

/-- The text of an object is read as the command that stands under the two names. -/
theorem parse_object_ok_iff {text : List UInt8} {ms : List (Member Doc)} (is_object : IsObject text ms)
    {c : Command} :
    parse text = .ok c ↔ (∀ e ∈ entries ms, e.1 ≠ none) ∧ Makes (known (entries ms)) c := by
  obtain ⟨before, blanks, after, spelled, rfl⟩ := is_object
  rw [parse, Json.readText_blanks_ok_iff spelled before after, ← completes_nothing_iff,
    ← readMembers_ok_iff spelled.1 (p := ⟨before.length + 1, 1⟩) rfl]
  have finished (s : Progress) (place : Nat) :
      (s.finish.mapError fun m => (⟨.shape m, .at place⟩ : Fault)) = .ok c ↔ s.finish = .ok c := by
    cases s.finish <;> simp [Except.mapError]
  simp only [ofDoc, Place.start, Place.inside, show 0 < nestingLimit by decide, if_true,
    Json.ObjectEnd.seen, Json.bind_eq_ok_iff, Prod.exists, finished, Except.ok.injEq, exists_eq_left',
    exists_const, true_and]

/-! ### The order -/

/-- The kind stands in front of the payload in the one and behind it in the other, and a member of the
payload that a command of this kind passes over is not read as a value. -/
def Overlooks (es es' : List (Option String × Doc)) : Prop :=
  ∃ k d e names, es = [(some "type", d), (some "payload", e)] ∧
    es' = [(some "payload", e), (some "type", d)] ∧ Names k d ∧ k.payloadNames? = some names ∧
      Skips names 2 e

/-- Members in another order make the same command, unless one is overlooked. -/
theorem makes_of_perm {es es' : List (Option String × Doc)} (perm : es.Perm es') {c : Command}
    (makes : Makes es c) (no_exception : ¬ Overlooks es es') : Makes es' c := by
  cases makes with
  | bare names bare => exact List.perm_singleton.1 perm.symm ▸ .bare names bare
  | @behind k d e _ names taken =>
    rcases List.perm_pair.1 perm.symm with rfl | rfl
    · exact .behind names taken
    · rcases value_or_skips_of_payload taken with value | ⟨looked_at, is_names, skips⟩
      · exact .inFront names taken ((Doc.exists_value_iff (p := ⟨0, 1⟩) (by decide)).1 value)
      · exact absurd ⟨k, d, e, looked_at, rfl, rfl, names, is_names, skips⟩ no_exception
  | inFront names taken readable =>
    rcases List.perm_pair.1 perm.symm with rfl | rfl
    · exact .inFront names taken readable
    · exact .behind names taken

/-- Members of which one is overlooked make no command. -/
theorem not_makes_of_overlooks {es es' : List (Option String × Doc)} (overlooks : Overlooks es es')
    {c : Command} : ¬ Makes es' c := by
  intro makes
  obtain ⟨k, d, e, looked_at, -, same, -, -, skips⟩ := overlooks
  cases makes with
  | bare => simp at same
  | behind => simp at same
  | inFront names taken readable =>
    obtain rfl := (Prod.mk.inj (List.cons.inj same).1).2
    exact skips.not_readable readable

/-- Two objects that have the same members, in whatever order, are read as the same command or are both
refused, unless in one of them the kind stands in front of the payload, in the other behind it, and a member
that the payload has beside those of its kind is not read as a value. Then the object with the payload in
front is refused. -/
theorem order_matters_only_to_skipped_members {text text' : List UInt8} {ms ms' : List (Member Doc)}
    (is_object : IsObject text ms) (is_object' : IsObject text' ms')
    (reordered : (entries ms).Perm (entries ms')) :
    (¬ Overlooks (known (entries ms)) (known (entries ms')) →
      ¬ Overlooks (known (entries ms')) (known (entries ms)) →
        ∀ c, parse text = .ok c ↔ parse text' = .ok c) ∧
    (Overlooks (known (entries ms)) (known (entries ms')) → ∀ c, parse text' ≠ .ok c) ∧
    (Overlooks (known (entries ms')) (known (entries ms)) → ∀ c, parse text ≠ .ok c) := by
  have two : (known (entries ms)).Perm (known (entries ms')) := reordered.filter _
  have named : (∀ e ∈ entries ms, e.1 ≠ none) ↔ ∀ e ∈ entries ms', e.1 ≠ none :=
    forall_congr' fun e => by rw [reordered.mem_iff]
  simp only [parse_object_ok_iff is_object, parse_object_ok_iff is_object', named, ne_eq, not_and]
  refine ⟨fun no_exception no_exception' c => and_congr_right fun _ => ?_, ?_, ?_⟩
  · exact ⟨fun makes => makes_of_perm two makes no_exception,
      fun makes => makes_of_perm two.symm makes no_exception'⟩
  · exact fun overlooks c _ => not_makes_of_overlooks overlooks
  · exact fun overlooks c _ => not_makes_of_overlooks overlooks

/-- A number that is out of range. -/
def tooLarge : Json.Numeral where
  negative := false
  whole := [⟨1, by decide⟩]
  fraction := none
  exponent := some ⟨false, .unsigned, [⟨4, by decide⟩, Json.Digit.zero, Json.Digit.zero]⟩

/-- The number that is too large is well spelled. -/
theorem note_wellSpelled : (Doc.number tooLarge).WellSpelled where
  whole := by simp [tooLarge]
  leading := by simp [tooLarge, Json.Digit.zero]
  fraction := by simp [tooLarge]
  exponent := by simp [tooLarge]

/-- A kind and a payload that has a number out of range beside what its kind looks at. -/
def notedRequest : List (String × Doc) :=
  [("type", Doc.ofString "request_for_allocation"),
    ("payload", Doc.ofMembers [("alias", Doc.ofString "a"), ("amount", Doc.ofNumber (.natural 1)),
      ("note", .number tooLarge)])]

/-- The members of the request with the note are well spelled. -/
theorem notedRequest_wellSpelled : ∀ e ∈ notedRequest, e.2.WellSpelled := by
  have payload : (Doc.ofMembers [("alias", Doc.ofString "a"), ("amount", Doc.ofNumber (.natural 1)),
      ("note", .number tooLarge)]).WellSpelled :=
    Doc.ofMembers_wellSpelled (by
      simp [Doc.ofString_wellSpelled, Doc.ofNumber_wellSpelled, note_wellSpelled])
  simpa [notedRequest, Doc.ofString_wellSpelled] using payload

/-- The text with the kind in front of the payload. -/
def notedKindFirst : List UInt8 :=
  ("\x7b\"type\":\"request_for_allocation\"," ++
    "\"payload\":\x7b\"alias\":\"a\",\"amount\":1,\"note\":1e400\x7d\x7d").toUTF8.data.toList

/-- The text with the payload in front of the kind. -/
def notedPayloadFirst : List UInt8 :=
  ("\x7b\"payload\":\x7b\"alias\":\"a\",\"amount\":1,\"note\":1e400\x7d," ++
    "\"type\":\"request_for_allocation\"\x7d").toUTF8.data.toList

set_option maxRecDepth 8000 in
/-- Two orders of the same two members, of which one is read and the other is refused. -/
theorem order_matters_to_notedRequest :
    IsObject notedKindFirst (notedRequest.map Record.memberOf) ∧
      IsObject notedPayloadFirst (notedRequest.reverse.map Record.memberOf) ∧
      (entries (notedRequest.map Record.memberOf)).Perm
        (entries (notedRequest.reverse.map Record.memberOf)) ∧
      parse notedKindFirst = .ok (.requestForAllocation ⟨"a", Binary64.ofNat 1, none⟩) ∧
      ∀ c, parse notedPayloadFirst ≠ .ok c := by
  refine ⟨isObject_ofMembers notedRequest_wellSpelled (by decide +kernel),
    isObject_ofMembers (fun e member => notedRequest_wellSpelled e (List.mem_reverse.1 member))
      (by decide +kernel),
    ((List.reverse_perm _).symm.map _).map _, rfl, ?_⟩
  intro c read
  cases read

/-- A report of use as a list. -/
def listedReport : Doc :=
  Doc.ofItems [Doc.ofString "a", Doc.ofNumber (.natural 1), Doc.ofString "b"]

/-- The report in front of its kind, and between them a member of the command that is passed over. -/
def reportMembers : List (String × Doc) :=
  [("payload", listedReport), ("x", .number tooLarge), ("type", Doc.ofString "use_allocation")]

/-- The members of the report are well spelled. -/
theorem reportMembers_wellSpelled : ∀ e ∈ reportMembers, e.2.WellSpelled := by
  have report : listedReport.WellSpelled :=
    Doc.ofItems_wellSpelled (by simp [Doc.ofString_wellSpelled, Doc.ofNumber_wellSpelled])
  simp [reportMembers, Doc.ofString_wellSpelled, note_wellSpelled, report]

set_option maxRecDepth 8000 in
/-- A report is read in both orders, whatever number is passed over. -/
theorem parse_of_reportMembers :
    IsObject (Doc.ofMembers reportMembers).text (reportMembers.map Record.memberOf) ∧
      IsObject (Doc.ofMembers reportMembers.reverse).text (reportMembers.reverse.map Record.memberOf) ∧
      (entries (reportMembers.map Record.memberOf)).Perm
        (entries (reportMembers.reverse.map Record.memberOf)) ∧
      parse (Doc.ofMembers reportMembers).text =
        .ok (.useAllocation ⟨"a", Binary64.ofNat 1, "b", none⟩) ∧
      parse (Doc.ofMembers reportMembers.reverse).text =
        .ok (.useAllocation ⟨"a", Binary64.ofNat 1, "b", none⟩) := by
  have is_object := isObject_ofMembers reportMembers_wellSpelled rfl
  have is_object' := isObject_ofMembers
    (fun e member => reportMembers_wellSpelled e (List.mem_reverse.1 member)) rfl
  have reordered : (entries (reportMembers.map Record.memberOf)).Perm
      (entries (reportMembers.reverse.map Record.memberOf)) :=
    ((List.reverse_perm _).symm.map _).map _
  have read : parse (Doc.ofMembers reportMembers).text =
      .ok (.useAllocation ⟨"a", Binary64.ofNat 1, "b", none⟩) := by rfl
  have front : known (entries (reportMembers.map Record.memberOf)) =
      [(some "payload", listedReport), (some "type", Doc.ofString "use_allocation")] := by rfl
  have behind : known (entries (reportMembers.reverse.map Record.memberOf)) =
      [(some "type", Doc.ofString "use_allocation"), (some "payload", listedReport)] := by rfl
  obtain ⟨alike, -, -⟩ := order_matters_only_to_skipped_members is_object is_object' reordered
  rw [front, behind] at alike
  refine ⟨is_object, is_object', reordered, read, (alike ?_ ?_ _).1 read⟩
  · rintro ⟨k, d, e, names, same, -⟩
    simp at same
  · rintro ⟨k, d, e, names, same, -, -, -, skips⟩
    obtain ⟨ms, blanks, is_object, -⟩ := skips
    simp only [List.cons.injEq, Prod.mk.injEq, true_and, and_true] at same
    cases same.2.trans is_object

end Command

end CallPool
