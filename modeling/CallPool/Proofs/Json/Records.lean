import CallPool.Json.Record
import CallPool.Proofs.Json.Readers

/-!
# Records read back

A record is written as some of its fields, in their order: every one that is required, and the others
or not (`Written`). As no two fields have one name, each member is found to be its field, none is read
twice, and none that is required is missing, so the record is read from what it is written as.

In the other direction, a property that the blank record has and that every field keeps holds of every
record that was read, be it from an object or from a list.

Main statements: `Record.reader_takes` and `Record.reader_keeps`.
-/

set_option autoImplicit false

namespace CallPool.Json

variable {α β : Type}

/-- A field takes from a document what it changes in the record, wherever the document stands. -/
def Field.Takes (f : Field α) (d : Doc) (put : α → α) : Prop :=
  ∀ p : Place, p.nesting + d.depth ≤ nestingLimit → f.ofDoc p d = .ok put

/-- A field puts what its reader takes. -/
theorem Field.of_takes {key : String} {required : Bool} {r : Reader β} {put : β → α → α} {d : Doc}
    {x : β} (takes : r.Takes d x) : (Field.of key required r put).Takes d (put x) := by
  intro p room
  simp only [Field.of, takes p room]
  rfl

/-- A field that is read puts what its reader has taken. -/
theorem Field.of_ok {key : String} {required : Bool} {r : Reader β} {put : β → α → α} {p : Place}
    {d : Doc} {change : α → α} (read : (Field.of key required r put).ofDoc p d = .ok change) :
    ∃ x, r.ofDoc p d = .ok x ∧ change = put x := by
  simp only [Field.of] at read
  cases value : r.ofDoc p d with
  | error f => rw [value] at read; cases read
  | ok x =>
    rw [value] at read
    exact ⟨x, rfl, (Except.ok.inj read).symm⟩

/-- A field that changes nothing of what is got from a record. -/
def Field.Keeps (f : Field α) (get : α → β) : Prop :=
  ∀ (q : Place) (d : Doc) (change : α → α) (a : α), f.ofDoc q d = .ok change → get (change a) = get a

/-- A field keeps what its change does not touch. -/
theorem Field.of_keeps {γ : Type} {key : String} {required : Bool} {r : Reader β}
    {put : β → α → α} {get : α → γ} (same : ∀ x a, get (put x a) = get a) :
    (Field.of key required r put).Keeps get := by
  intro q d change a taken
  obtain ⟨x, -, rfl⟩ := Field.of_ok taken
  exact same x a

namespace Record

/-- Members that write some of these fields, in their order, with what a record is before they are read
and after. -/
inductive Written : List (Field α) → List (String × Doc) → α → α → Prop
  | nil (a : α) : Written [] [] a a
  | absent {f : Field α} {fs : List (Field α)} {ms : List (String × Doc)} {a b : α}
      (dispensable : f.required = false) (rest : Written fs ms a b) : Written (f :: fs) ms a b
  | present {f : Field α} {fs : List (Field α)} {ms : List (String × Doc)} {a b : α} {d : Doc}
      {put : α → α} (takes : f.Takes d put) (rest : Written fs ms (put a) b) :
      Written (f :: fs) ((f.key, d) :: ms) a b

/-- A member without blanks. -/
def memberOf (m : String × Doc) : Member Doc := ⟨[], Quoted.ofString m.1, [], [], m.2, []⟩

/-- A member under the name of a field that is not filled yet fills it, and the others follow. -/
theorem readMembers_cons {r : Record α} {p : Place} {rest : List (Member Doc)} {seen : List String}
    {a : α} {f : Field α} {d : Doc} {put : α → α} (known : r.field? f.key = some f)
    (unseen : f.key ∉ seen) (value : f.ofDoc (p.ofMember (memberOf (f.key, d))) d = .ok put) :
    r.readMembers p (memberOf (f.key, d) :: rest) seen a =
      r.readMembers (p.behindMember (memberOf (f.key, d))) rest (f.key :: seen) (put a) := by
  have name : Quoted.string (memberOf (f.key, d)).key (p.ofKey (memberOf (f.key, d))) = .ok f.key :=
    Quoted.string_ofString _ _
  have not_twice : seen.contains f.key = false := by simpa using unseen
  have value' : f.ofDoc (p.ofMember (memberOf (f.key, d))) (memberOf (f.key, d)).value = .ok put := value
  rw [readMembers]
  simp only [bind, Except.bind, name, known, not_twice, value', Bool.false_eq_true, if_false]

/-- The fields that are left are read one behind the other, and all that are required are seen. -/
theorem readMembers_written {r : Record α} {fs : List (Field α)} {ms : List (String × Doc)} {a b : α}
    (written : Written fs ms a b) (known : ∀ f ∈ fs, r.field? f.key = some f)
    (distinct : (fs.map Field.key).Nodup) (p : Place) (seen : List String)
    (unseen : ∀ f ∈ fs, f.key ∉ seen)
    (room : ∀ m ∈ ms, p.nesting + m.2.depth ≤ nestingLimit) :
    ∃ seen' q, r.readMembers p (ms.map memberOf) seen a = .ok (b, seen', q) ∧
      (∀ key ∈ seen, key ∈ seen') ∧ ∀ f ∈ fs, f.required = true → f.key ∈ seen' := by
  induction written generalizing p seen with
  | nil a => exact ⟨seen, p, rfl, fun _ member => member, by simp⟩
  | @absent f fs ms a b dispensable _ ih =>
    obtain ⟨seen', q, read, kept, required⟩ := ih (fun g member => known g (.tail f member))
      (List.nodup_cons.1 distinct).2 p seen (fun g member => unseen g (.tail f member)) room
    refine ⟨seen', q, read, kept, fun g member needed => ?_⟩
    rcases List.mem_cons.1 member with rfl | behind
    · rw [dispensable] at needed
      cases needed
    · exact required g behind needed
  | @present f fs ms a b d put takes _ ih =>
    obtain ⟨new, others⟩ := List.nodup_cons.1 distinct
    obtain ⟨seen', q, read, kept, required⟩ := ih (fun g member => known g (.tail f member)) others
      (p.behindMember (memberOf (f.key, d))) (f.key :: seen)
      (fun g member again => by
        rcases List.mem_cons.1 again with same | old
        · exact new (same ▸ List.mem_map_of_mem member)
        · exact unseen g (.tail f member) old)
      (fun m member => room m (.tail _ member))
    have value := takes (p.ofMember (memberOf (f.key, d))) (room _ List.mem_cons_self)
    refine ⟨seen', q, ?_, fun key member => kept key (.tail _ member), fun g member needed => ?_⟩
    · rw [List.map_cons, readMembers_cons (known f List.mem_cons_self) (unseen f List.mem_cons_self) value,
        read]
    · rcases List.mem_cons.1 member with rfl | behind
      · exact kept _ List.mem_cons_self
      · exact required g behind needed

/-- Fields with different names are found by their names. -/
theorem field?_of_mem {r : Record α} (distinct : (r.fields.map Field.key).Nodup) {f : Field α}
    (member : f ∈ r.fields) : r.field? f.key = some f := by
  rw [field?]
  generalize r.fields = fs at distinct member
  induction fs with
  | nil => cases member
  | cons g fs ih =>
    obtain ⟨new, others⟩ := List.nodup_cons.1 distinct
    rcases List.mem_cons.1 member with rfl | behind
    · simp
    · have different : (g.key == f.key) = false := by
        simpa using fun same : g.key = f.key => new (same ▸ List.mem_map_of_mem behind)
      rw [List.find?_cons, different]
      exact ih others behind

/-- A record is read from its fields, as they are written. -/
theorem reader_takes {r : Record α} (distinct : (r.fields.map Field.key).Nodup)
    {ms : List (String × Doc)} {x : α} (written : Written r.fields ms r.blank x) :
    r.reader.Takes (Doc.ofMembers ms) x := by
  intro p room
  obtain ⟨bound, same⟩ : ∃ bound, nestingLimit = p.nesting + (bound + 1) :=
    ⟨nestingLimit - p.nesting - 1, by simp only [Doc.ofMembers, Doc.depth] at room; omega⟩
  rw [same, Nat.add_le_add_iff_left, Doc.depth_ofMembers_le] at room
  obtain ⟨seen, q, read, -, required⟩ := readMembers_written written
    (fun f member => field?_of_mem distinct member) distinct ⟨p.offset + 1, p.nesting + 1⟩ []
    (by simp) fun m member => by
      have deep := room m member
      simp only []
      omega
  have complete : r.missing? seen = none := by
    refine List.find?_eq_none.2 fun f member missing => ?_
    rw [Bool.and_eq_true] at missing
    simpa [required f member missing.1] using missing.2
  have all : r.readMembers ⟨p.offset + 1, p.nesting + 1⟩
      (ms.map fun m => (⟨[], Quoted.ofString m.1, [], [], m.2, []⟩ : Member Doc)) [] r.blank =
        .ok (x, seen, q) := read
  simp only [reader, Doc.ofMembers, Place.inside_of_room (show p.nesting < nestingLimit by omega), bind,
    Except.bind, all, ObjectEnd.seen, complete]

/-! ### What every field keeps -/

section

variable {r : Record α} {holds : α → Prop} {n : Nat}
  (kept : ∀ f ∈ r.fields, ∀ (p : Place) (d : Doc) (put : α → α) (a : α), p.nesting = n →
    f.ofDoc p d = .ok put → holds a → holds (put a))

include kept

/-- What every field keeps members keep. -/
theorem readMembers_keeps {ms : List (Member Doc)} {p q : Place} {seen seen' : List String} {a b : α}
    (at_level : p.nesting = n) (start : holds a)
    (read : r.readMembers p ms seen a = .ok (b, seen', q)) : holds b := by
  induction ms generalizing p seen a with
  | nil => exact (Prod.mk.inj (Except.ok.inj read)).1 ▸ start
  | cons m ms ih =>
    rw [readMembers] at read
    simp only [bind, Except.bind] at read
    split at read
    · cases read
    · next key _ =>
      split at read
      case h_1 =>
        split at read
        · cases read
        · exact ih (p := p.behindMember m) at_level start read
      case h_2 f found =>
        split at read
        · cases read
        · split at read
          · cases read
          · next put value =>
            have next := kept f (List.mem_of_find?_eq_some found) (p.ofMember m) m.value put a
              at_level value start
            exact ih (p := p.behindMember m) at_level next read

/-- What every field keeps elements keep. -/
theorem readItems_keeps {name : String} {total count : Nat} {close : ListEnd} {fs : List (Field α)}
    {is : List (Item Doc)} {p : Place} {a b : α} (fields : ∀ f ∈ fs, f ∈ r.fields)
    (at_level : p.nesting = n) (start : holds a)
    (read : readItems name total close fs p count is a = .ok b) : holds b := by
  induction fs generalizing p count is a with
  | nil =>
    simp only [readItems, bind, Except.bind] at read
    split at read
    · cases read
    · exact Except.ok.inj read ▸ start
  | cons f fs ih =>
    cases is with
    | nil =>
      simp only [readItems, bind, Except.bind] at read
      split at read
      · cases read
      · split at read
        · cases read
        · exact ih (fun g member => fields g (.tail f member)) at_level start read
    | cons i is =>
      simp only [readItems, bind, Except.bind] at read
      split at read
      · cases read
      · next put value =>
        have next := kept f (fields f List.mem_cons_self) (p.ofItem i) i.value put a at_level value
          start
        exact ih (p := p.behindItem i) (fun g member => fields g (.tail f member)) at_level next read

end

/-- What holds of the blank record, and is kept by every field that is read one bracket further inside,
holds of a record that was read. -/
theorem reader_keeps {r : Record α} (holds : α → Prop) {p : Place} {d : Doc} {x : α}
    (blank : holds r.blank)
    (kept : ∀ f ∈ r.fields, ∀ (q : Place) (d : Doc) (put : α → α) (a : α),
      q.nesting = p.nesting + 1 → f.ofDoc q d = .ok put → holds a → holds (put a))
    (read : r.reader.ofDoc p d = .ok x) : holds x := by
  cases d with
  | object members close =>
    simp only [reader, bind, Except.bind] at read
    split at read
    · cases read
    · next q inside =>
      obtain ⟨rfl, -⟩ := Place.inside_ok inside
      split at read
      · cases read
      · next all fields =>
        obtain ⟨a, seen, q'⟩ := all
        simp only [] at read
        split at read
        · cases read
        · split at read
          · cases read
          · exact Except.ok.inj read ▸ readMembers_keeps kept rfl blank fields
  | list items close =>
    simp only [reader, bind, Except.bind] at read
    split at read
    · cases read
    · next q inside =>
      obtain ⟨rfl, -⟩ := Place.inside_ok inside
      exact readItems_keeps kept (fun f member => member) rfl blank read
  | _ => cases read

end Record

end CallPool.Json
