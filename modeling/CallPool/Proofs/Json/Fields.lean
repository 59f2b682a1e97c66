import CallPool.Proofs.Json.Meaning
import CallPool.Proofs.Json.Records
import Mathlib.Data.List.Nodup

/-!
# Records read from any document

A record is read from the members of an object, whatever their order and whatever else stands among
them, or from the elements of a list as if they were members with the names of the fields. The field of
a member is found by its name, so that reading in the order of the members is reading in the order of
the fields (`filled_cons_of_mem`), as long as no two fields touch the same part of the record
(`Field.Commutes`) and what a field reads does not depend on its place (`Field.Settled`).

Main statement: `Record.reader_ok_iff`.
-/

set_option autoImplicit false

namespace CallPool.Json

variable {α β : Type}

/-! ### Fields -/

/-- What a field changes in a record does not depend on where its document stands, inside as many
brackets as these. -/
def Field.Settled (n : Nat) (f : Field α) : Prop :=
  ∀ (p : Place) (d : Doc) (put : α → α), p.nesting = n →
    (f.ofDoc p d = .ok put ↔ f.ofDoc ⟨0, n⟩ d = .ok put)

/-- The changes of two fields may be made in any order. -/
def Field.Commutes (f g : Field α) : Prop :=
  ∀ (p q : Place) (d e : Doc) (put put' : α → α) (a : α), f.ofDoc p d = .ok put →
    g.ofDoc q e = .ok put' → put (put' a) = put' (put a)

/-- What a field takes does not depend on the place, if that of its reader does not. -/
theorem Field.of_settled {n : Nat} {key : String} {required : Bool} {r : Reader β} {put : β → α → α}
    (settled : r.Settled n) : (Field.of key required r put).Settled n := by
  intro p d change inside
  simp only [Field.of, map_eq_ok_iff, settled p d _ inside]

/-- Two fields commute if what they put does. -/
@[simp] theorem Field.of_commutes {γ : Type} {key key' : String} {required required' : Bool} {r : Reader β}
    {r' : Reader γ} {put : β → α → α} {put' : γ → α → α}
    (commute : ∀ x y a, put x (put' y a) = put' y (put x a)) :
    (Field.of key required r put).Commutes (Field.of key' required' r' put') := by
  intro p q d e change change' a taken taken'
  obtain ⟨x, -, rfl⟩ := Field.of_ok taken
  obtain ⟨y, -, rfl⟩ := Field.of_ok taken'
  exact commute x y a

namespace Record

/-- Fields in their order take from named documents what these hold for them, with what a record is
before and after. A field takes the first document under its name, and nothing if there is none. -/
def Filled (n : Nat) : List (Field α) → List (String × Doc) → α → α → Prop
  | [], _, a, b => a = b
  | f :: fs, es, a, b =>
    match es.lookup f.key with
    | none => Filled n fs es a b
    | some d => ∃ put, f.ofDoc ⟨0, n⟩ d = .ok put ∧ Filled n fs es (put a) b

variable {n : Nat} {r : Record α}

/-- What is given under a name: what its document is, or what stands for its absence. -/
def Given (es : List (String × Doc)) (key : String) (is : Doc → β → Prop) (absent : β) (x : β) : Prop :=
  match es.lookup key with
  | none => x = absent
  | some d => is d x

/-- A field that is not required puts in its place what is given under its name. -/
theorem filled_given {key : String} {r : Reader β} {put : β → α → α} {fs : List (Field α)}
    {es : List (String × Doc)} {a b : α} {is : Doc → β → Prop} {absent : β}
    (exact : ∀ d x, r.ofDoc ⟨0, n⟩ d = .ok x ↔ is d x) (same : put absent a = a) :
    Filled n (Field.of key false r put :: fs) es a b ↔
      ∃ x, Given es key is absent x ∧ Filled n fs es (put x a) b := by
  rw [Filled]
  unfold Given
  change (match es.lookup key with | none => _ | some d => _) ↔ _
  cases es.lookup key with
  | none => simp [same]
  | some d =>
    simp only [Field.of, map_eq_ok_iff, exact]
    constructor
    · rintro ⟨_, ⟨x, taken, rfl⟩, filled⟩
      exact ⟨x, taken, filled⟩
    · rintro ⟨x, taken, filled⟩
      exact ⟨_, ⟨x, taken, rfl⟩, filled⟩

/-- A document whose name is that of no field is not taken. -/
theorem filled_cons_of_notMem {fs : List (Field α)} {key : String} {d : Doc}
    {es : List (String × Doc)} {a b : α} (unknown : key ∉ fs.map Field.key) :
    Filled n fs ((key, d) :: es) a b ↔ Filled n fs es a b := by
  induction fs generalizing a with
  | nil => exact Iff.rfl
  | cons f fs ih =>
    obtain ⟨other, others⟩ := not_or.1 (mt List.mem_cons.2 unknown)
    have passed : (f.key == key) = false := by simpa using fun same : f.key = key => other same.symm
    simp only [Filled, List.lookup_cons, passed]
    cases es.lookup f.key with
    | none => exact ih others
    | some e => exact exists_congr fun put => and_congr_right fun _ => ih others

/-- The first document is taken by its field, at once or in the field's turn. -/
theorem filled_cons_of_mem {fs : List (Field α)} (commute : fs.Pairwise Field.Commutes)
    (distinct : (fs.map Field.key).Nodup) {f : Field α} (member : f ∈ fs) {d : Doc}
    {es : List (String × Doc)} {a b : α} :
    Filled n fs ((f.key, d) :: es) a b ↔ ∃ put, f.ofDoc ⟨0, n⟩ d = .ok put ∧
      Filled n (fs.filter fun g => g.key ≠ f.key) es (put a) b := by
  induction fs generalizing a with
  | nil => cases member
  | cons g fs ih =>
    obtain ⟨new, others⟩ := List.nodup_cons.1 distinct
    obtain ⟨with_rest, rest_commutes⟩ := List.pairwise_cons.1 commute
    rcases List.mem_cons.1 member with rfl | behind
    · have no_other : fs.filter (fun g => g.key ≠ f.key) = fs := by
        refine List.filter_eq_self.2 fun g there => ?_
        simpa using fun same : g.key = f.key => new (same ▸ List.mem_map_of_mem there)
      have dropped : (f :: fs).filter (fun g => g.key ≠ f.key) = fs := by
        rw [List.filter_cons_of_neg (by simp), no_other]
      rw [dropped, Filled, List.lookup_cons_self]
      exact exists_congr fun put => and_congr_right fun _ => filled_cons_of_notMem new
    · have different : g.key ≠ f.key := fun same => new (same ▸ List.mem_map_of_mem behind)
      have passed : (g.key == f.key) = false := by simpa using different
      rw [List.filter_cons_of_pos (by simpa using different)]
      simp only [Filled, List.lookup_cons, passed]
      cases es.lookup g.key with
      | none => exact ih rest_commutes others behind
      | some e =>
        simp only [ih rest_commutes others behind]
        constructor
        · rintro ⟨put', taken', put, taken, filled⟩
          rw [← with_rest f behind _ _ _ _ _ _ a taken' taken] at filled
          exact ⟨put, taken, put', taken', filled⟩
        · rintro ⟨put, taken, put', taken', filled⟩
          rw [with_rest f behind _ _ _ _ _ _ a taken' taken] at filled
          exact ⟨put', taken', put, taken, filled⟩

/-! ### Members -/

/-- The names that members have and the documents under them, if every key stands for a text. -/
def Named (ms : List (Member Doc)) (es : List (String × Doc)) : Prop :=
  ms.map (fun m => (Quoted.meaning? m.key, m.value)) = es.map fun e => (some e.1, e.2)

/-- Members are named if the first one is and the others are. -/
theorem named_cons {m : Member Doc} {ms : List (Member Doc)} {es : List (String × Doc)} :
    Named (m :: ms) es ↔
      ∃ key rest, Quoted.meaning? m.key = some key ∧ Named ms rest ∧ es = (key, m.value) :: rest := by
  unfold Named
  cases es with
  | nil => simp
  | cons e es =>
    simp only [List.map_cons, List.cons.injEq, Prod.mk.injEq]
    constructor
    · rintro ⟨⟨name, value⟩, others⟩
      exact ⟨e.1, es, name, others, by rw [value], rfl⟩
    · rintro ⟨key, rest, name, others, rfl, rfl⟩
      exact ⟨⟨name, rfl⟩, others⟩

/-- How often a name stands among named documents. -/
def occurrences (key : String) (es : List (String × Doc)) : Nat := es.countP fun e => e.1 == key

/-- What members are read as: those under other names are complete, no field stands there that was seen
before, none stands there twice, and the others take what is theirs. -/
structure Taken (r : Record α) (n : Nat) (seen : List String) (es : List (String × Doc)) (a b : α) :
    Prop where
  complete : ∀ e ∈ es, e.1 ∉ r.fields.map Field.key → e.2.break? = none
  once : ∀ f ∈ r.fields, occurrences f.key es ≤ if f.key ∈ seen then 0 else 1
  filled : Filled n (r.fields.filter fun f => f.key ∉ seen) es a b

/-- A record has no field of a name exactly if none of its keys is that name. -/
theorem field?_eq_none_iff {key : String} : r.field? key = none ↔ key ∉ r.fields.map Field.key := by
  rw [field?, List.find?_eq_none]
  simp

/-- The field of a name is a field of the record, and has that name. -/
theorem field?_eq_some {key : String} {f : Field α} (found : r.field? key = some f) :
    f ∈ r.fields ∧ f.key = key := by
  rw [field?] at found
  exact ⟨List.mem_of_find?_eq_some found, by simpa using List.find?_some found⟩

/-- A document can be passed over exactly if it is complete. -/
theorem passOver_eq_ok_iff {d : Doc} {u : Unit} : d.passOver = .ok u ↔ d.break? = none := by
  unfold Doc.passOver
  cases d.break? <;> simp

/-- A member under an unknown name is passed over. -/
theorem taken_unknown {seen : List String} {key : String} {d : Doc} {es : List (String × Doc)} {a b : α}
    (unknown : key ∉ r.fields.map Field.key) :
    r.Taken n seen ((key, d) :: es) a b ↔ d.break? = none ∧ r.Taken n seen es a b := by
  have other : ∀ f ∈ r.fields, (key == f.key) = false := by
    intro f member
    simpa using fun same : key = f.key => unknown (same ▸ List.mem_map_of_mem member)
  have counted : ∀ f ∈ r.fields, occurrences f.key ((key, d) :: es) = occurrences f.key es := by
    intro f member
    simp [occurrences, other f member]
  have unread : key ∉ (r.fields.filter fun f => f.key ∉ seen).map Field.key := by
    intro member
    obtain ⟨f, there, same⟩ := List.mem_map.1 member
    exact unknown (same ▸ List.mem_map_of_mem (List.mem_filter.1 there).1)
  constructor
  · rintro ⟨complete, once, filled⟩
    refine ⟨complete _ List.mem_cons_self unknown, fun e member => complete e (.tail _ member), ?_, ?_⟩
    · intro f member
      rw [← counted f member]
      exact once f member
    · exact (filled_cons_of_notMem unread).1 filled
  · rintro ⟨whole, complete, once, filled⟩
    refine ⟨List.forall_mem_cons.2 ⟨fun _ => whole, complete⟩, ?_, (filled_cons_of_notMem unread).2 filled⟩
    intro f member
    rw [counted f member]
    exact once f member

/-- One member is read: it is passed over, or its field takes it. -/
theorem readMembers_cons_ok_iff {p : Place} {m : Member Doc} {ms : List (Member Doc)}
    {seen : List String} {a : α} {x : α × List String × Place} :
    r.readMembers p (m :: ms) seen a = .ok x ↔ ∃ key, Quoted.meaning? m.key = some key ∧
      (r.field? key = none ∧ m.value.break? = none ∧
        r.readMembers (p.behindMember m) ms seen a = .ok x ∨
      ∃ f, r.field? key = some f ∧ key ∉ seen ∧ ∃ put, f.ofDoc (p.ofMember m) m.value = .ok put ∧
        r.readMembers (p.behindMember m) ms (key :: seen) (put a) = .ok x) := by
  rw [readMembers, bind_eq_ok_iff]
  refine exists_congr fun key => and_congr Quoted.string_ok_iff ?_
  cases r.field? key with
  | none => simp [bind_eq_ok_iff, passOver_eq_ok_iff]
  | some f =>
    by_cases old : key ∈ seen
    · simp [old]
    · simp [old, bind_eq_ok_iff]

/-- Without members nothing is taken. -/
theorem taken_nil {seen : List String} {a b : α} : r.Taken n seen [] a b ↔ a = b := by
  have nothing : ∀ fs : List (Field α), Filled n fs [] a b ↔ a = b := by
    intro fs
    induction fs with
    | nil => exact Iff.rfl
    | cons f fs ih => exact ih
  exact ⟨fun taken => (nothing _).1 taken.filled,
    fun same => ⟨by simp, by simp [occurrences], (nothing _).2 same⟩⟩

/-- The fields that were read are those that had been read before and those that stand there. -/
theorem mem_seen_iff {ms : List (Member Doc)} {p q : Place} {seen seen' : List String} {a b : α}
    {es : List (String × Doc)} (named : Named ms es)
    (read : r.readMembers p ms seen a = .ok (b, seen', q)) {f : Field α} (member : f ∈ r.fields) :
    f.key ∈ seen' ↔ f.key ∈ seen ∨ f.key ∈ es.map Prod.fst := by
  induction ms generalizing p seen a es with
  | nil =>
    obtain rfl : es = [] := List.map_eq_nil_iff.1 named.symm
    obtain ⟨-, rfl, -⟩ := Prod.mk.inj (Except.ok.inj read) |>.imp id Prod.mk.inj
    simp
  | cons m ms ih =>
    obtain ⟨key, rest, name, rest_named, rfl⟩ := named_cons.1 named
    obtain ⟨key', name', ⟨found, -, read⟩ | ⟨g, found, -, put, -, read⟩⟩ :=
      readMembers_cons_ok_iff.1 read
    · obtain rfl : key = key' := Option.some.inj (name.symm.trans name')
      have other : f.key ≠ key := fun same =>
        field?_eq_none_iff.1 found (same ▸ List.mem_map_of_mem member)
      rw [ih rest_named read]
      simp [other]
    · obtain rfl : key = key' := Option.some.inj (name.symm.trans name')
      rw [ih rest_named read]
      simp [or_left_comm, or_assoc]

/-- A name that was not seen may stand there once: now it does, or it is seen and does no more. -/
theorem once_cons_iff {seen : List String} {key name : String} {d : Doc} {es : List (String × Doc)}
    (unseen : key ∉ seen) :
    (occurrences name ((key, d) :: es) ≤ if name ∈ seen then 0 else 1) ↔
      occurrences name es ≤ if name ∈ key :: seen then 0 else 1 := by
  by_cases same : name = key
  · subst same
    simp [occurrences, unseen]
  · have other : key ≠ name := fun same' => same same'.symm
    simp [occurrences, same, other]

section

variable (distinct : (r.fields.map Field.key).Nodup) (commute : r.fields.Pairwise Field.Commutes)

include distinct commute

/-- A member under the name of a field fills it, unless it has been filled before. -/
theorem taken_known {seen : List String} {f : Field α} (member : f ∈ r.fields) {d : Doc}
    {es : List (String × Doc)} {a b : α} :
    r.Taken n seen ((f.key, d) :: es) a b ↔ f.key ∉ seen ∧ ∃ put, f.ofDoc ⟨0, n⟩ d = .ok put ∧
      r.Taken n (f.key :: seen) es (put a) b := by
  have left : (r.fields.filter fun g => g.key ∉ seen).filter (fun g => g.key ≠ f.key) =
      r.fields.filter fun g => g.key ∉ f.key :: seen := by
    rw [List.filter_filter]
    refine List.filter_congr fun g _ => ?_
    by_cases same : g.key = f.key <;> simp [same]
  have known : f.key ∈ r.fields.map Field.key := List.mem_map_of_mem member
  have taken_filled (unseen : f.key ∉ seen) :
      Filled n (r.fields.filter fun g => g.key ∉ seen) ((f.key, d) :: es) a b ↔
        ∃ put, f.ofDoc ⟨0, n⟩ d = .ok put ∧
          Filled n (r.fields.filter fun g => g.key ∉ f.key :: seen) es (put a) b := by
    rw [← left]
    exact filled_cons_of_mem (commute.sublist List.filter_sublist)
      (distinct.sublist (List.filter_sublist.map Field.key))
      (List.mem_filter.2 ⟨member, by simpa using unseen⟩)
  constructor
  · rintro ⟨complete, once, filled⟩
    have unseen : f.key ∉ seen := by
      intro old
      have none_more := once f member
      simp [occurrences, old] at none_more
    obtain ⟨put, taken, rest⟩ := (taken_filled unseen).1 filled
    exact ⟨unseen, put, taken, fun e there => complete e (.tail _ there),
      fun g there => (once_cons_iff unseen).1 (once g there), rest⟩
  · rintro ⟨unseen, put, taken, complete, once, rest⟩
    exact ⟨List.forall_mem_cons.2 ⟨fun unknown => absurd known unknown, complete⟩,
      fun g there => (once_cons_iff unseen).2 (once g there),
      (taken_filled unseen).2 ⟨put, taken, rest⟩⟩

/-- Members are read exactly if all their keys stand for texts and they are taken. -/
theorem readMembers_ok_iff (settled : ∀ f ∈ r.fields, f.Settled n) {ms : List (Member Doc)} {p : Place}
    (inside : p.nesting = n) {seen : List String} {a b : α} :
    (∃ seen' q, r.readMembers p ms seen a = .ok (b, seen', q)) ↔
      ∃ es, Named ms es ∧ r.Taken n seen es a b := by
  induction ms generalizing p seen a with
  | nil =>
    constructor
    · rintro ⟨seen', q, read⟩
      exact ⟨[], rfl, taken_nil.2 (Prod.mk.inj (Except.ok.inj read)).1⟩
    · rintro ⟨es, named, taken⟩
      obtain rfl : es = [] := List.map_eq_nil_iff.1 named.symm
      exact ⟨seen, p, by rw [taken_nil.1 taken]; rfl⟩
  | cons m ms ih =>
    constructor
    · rintro ⟨seen', q, read⟩
      obtain ⟨key, name, ⟨found, whole, read⟩ | ⟨f, found, unseen, put, value, read⟩⟩ :=
        readMembers_cons_ok_iff.1 read
      · obtain ⟨es, named, taken⟩ := (ih (p := p.behindMember m) inside).1 ⟨seen', q, read⟩
        exact ⟨_, named_cons.2 ⟨key, es, name, named, rfl⟩,
          (taken_unknown (field?_eq_none_iff.1 found)).2 ⟨whole, taken⟩⟩
      · obtain ⟨member, rfl⟩ := field?_eq_some found
        obtain ⟨es, named, taken⟩ := (ih (p := p.behindMember m) inside).1 ⟨seen', q, read⟩
        exact ⟨_, named_cons.2 ⟨f.key, es, name, named, rfl⟩, (taken_known distinct commute member).2
          ⟨unseen, put, (settled f member (p.ofMember m) _ _ inside).1 value, taken⟩⟩
    · rintro ⟨_, all_named, taken⟩
      obtain ⟨key, es, name, named, rfl⟩ := named_cons.1 all_named
      cases found : r.field? key with
      | none =>
        obtain ⟨whole, taken⟩ := (taken_unknown (field?_eq_none_iff.1 found)).1 taken
        obtain ⟨seen', q, read⟩ := (ih (p := p.behindMember m) inside).2 ⟨es, named, taken⟩
        exact ⟨seen', q, readMembers_cons_ok_iff.2 ⟨key, name, .inl ⟨found, whole, read⟩⟩⟩
      | some f =>
        obtain ⟨member, rfl⟩ := field?_eq_some found
        obtain ⟨unseen, put, value, taken⟩ := (taken_known distinct commute member).1 taken
        obtain ⟨seen', q, read⟩ := (ih (p := p.behindMember m) inside).2 ⟨es, named, taken⟩
        exact ⟨seen', q, readMembers_cons_ok_iff.2 ⟨f.key, name, .inr ⟨f, found, unseen, put,
          (settled f member (p.ofMember m) _ _ inside).2 value, read⟩⟩⟩

end

/-! ### Elements -/

/-- Nothing is left over exactly if no element is, and the list is closed. -/
theorem leftOver_ok_iff {p : Place} {is : List (Item Doc)} {close : ListEnd} {u : Unit} :
    leftOver p is close = .ok u ↔ is = [] ∧ ∃ blanks, close = .closed blanks := by
  cases is with
  | nil =>
    cases close with
    | closed blanks => simp [leftOver]
    | broken b =>
      simp only [leftOver]
      split <;> simp
  | cons i is =>
    simp only [leftOver]
    split
    · split <;> simp
    · simp

/-- The end of a list is seen exactly if it is closed. -/
theorem seen_ok_iff {close : ListEnd} {u : Unit} :
    close.seen = .ok u ↔ ∃ blanks, close = .closed blanks := by
  cases close <;> simp [ListEnd.seen]

/-- The end of an object is seen exactly if it is closed. -/
theorem object_seen_ok_iff {close : ObjectEnd} {p : Place} {u : Unit} :
    close.seen p = .ok u ↔ ∃ blanks, close = .closed blanks := by
  cases close <;> simp [ObjectEnd.seen]

/-- The elements of a list under the names of fields. -/
def numbered (fs : List (Field α)) (is : List (Item Doc)) : List (String × Doc) :=
  (fs.map Field.key).zip (is.map Item.value)

/-- Elements are read exactly if they are no more than the fields, none is missing that is required, and
they are taken under the names of the fields. -/
theorem readItems_ok_iff {name : String} {total : Nat} {close : ListEnd} {fs : List (Field α)}
    (distinct : (fs.map Field.key).Nodup) (settled : ∀ f ∈ fs, f.Settled n) {p : Place}
    (inside : p.nesting = n) {count : Nat} {is : List (Item Doc)} {a b : α} :
    readItems name total close fs p count is a = .ok b ↔ (∃ blanks, close = .closed blanks) ∧
      is.length ≤ fs.length ∧
      (∀ f ∈ fs, f.required = true → f.key ∈ (numbered fs is).map Prod.fst) ∧
      Filled n fs (numbered fs is) a b := by
  induction fs generalizing p count is a with
  | nil =>
    rw [readItems, bind_eq_ok_iff]
    simp only [leftOver_ok_iff, numbered, Filled, List.length_nil, Nat.le_zero,
      List.length_eq_zero_iff]
    grind
  | cons f fs ih =>
    obtain ⟨new, others⟩ := List.nodup_cons.1 distinct
    have rest_settled : ∀ g ∈ fs, g.Settled n := fun g member => settled g (.tail f member)
    cases is with
    | nil =>
      have rest : readItems name total close fs p count [] a = .ok b ↔ _ :=
        ih others rest_settled inside
      simp only [readItems, bind_eq_ok_iff, seen_ok_iff]
      simp only [numbered, List.map_nil, List.zip_nil_right, List.not_mem_nil, List.length_nil,
        Nat.zero_le, true_and] at rest
      cases needed : f.required with
      | true => simp [numbered, needed]
      | false => simp [numbered, needed, rest, Filled]
    | cons i is =>
      have keys : numbered (f :: fs) (i :: is) = (f.key, i.value) :: numbered fs is := rfl
      have filled : Filled n (f :: fs) ((f.key, i.value) :: numbered fs is) a b ↔
          ∃ put, f.ofDoc ⟨0, n⟩ i.value = .ok put ∧ Filled n fs (numbered fs is) (put a) b := by
        rw [Filled, List.lookup_cons_self]
        exact exists_congr fun put => and_congr_right fun _ => filled_cons_of_notMem new
      have needed : (∀ g ∈ f :: fs, g.required = true →
            g.key ∈ ((f.key, i.value) :: numbered fs is).map Prod.fst) ↔
          ∀ g ∈ fs, g.required = true → g.key ∈ (numbered fs is).map Prod.fst := by
        rw [List.forall_mem_cons]
        refine ⟨fun all g member required => ?_, fun all => ⟨fun _ => List.mem_cons_self, ?_⟩⟩
        · refine (List.mem_cons.1 (all.2 g member required)).resolve_left fun same => ?_
          exact new (List.mem_map.2 ⟨g, member, same⟩)
        · exact fun g member required => .tail _ (all g member required)
      simp only [readItems, bind_eq_ok_iff, keys, filled, needed, List.length_cons,
        Nat.add_le_add_iff_right]
      constructor
      · rintro ⟨put, taken, read⟩
        obtain ⟨closed, few, all, rest⟩ :=
          (ih others rest_settled (p := p.behindItem i) inside).1 read
        exact ⟨closed, few, all, put,
          (settled f List.mem_cons_self (p.ofItem i) _ _ inside).1 taken, rest⟩
      · rintro ⟨closed, few, all, put, taken, rest⟩
        exact ⟨put, (settled f List.mem_cons_self (p.ofItem i) _ _ inside).2 taken,
          (ih others rest_settled (p := p.behindItem i) inside).2 ⟨closed, few, all, rest⟩⟩

/-! ### Documents -/

/-- A record is what named documents hold: those under other names are complete, no field stands there
twice, none is missing that is required, and the fields take what is theirs. -/
structure Holds (r : Record α) (n : Nat) (es : List (String × Doc)) (x : α) : Prop where
  complete : ∀ e ∈ es, e.1 ∉ r.fields.map Field.key → e.2.break? = none
  once : ∀ f ∈ r.fields, occurrences f.key es ≤ 1
  required : ∀ f ∈ r.fields, f.required = true → f.key ∈ es.map Prod.fst
  filled : Filled n r.fields es r.blank x

/-- The records that documents spell inside as many brackets as these, their own included: an object does
with its members, and a list with its elements under the names of the fields. -/
inductive Spells (r : Record α) (n : Nat) : Doc → α → Prop
  | object {ms : List (Member Doc)} {blanks : Gap} {es : List (String × Doc)} {x : α}
      (named : Named ms es) (holds : r.Holds n es x) : Spells r n (.object ms (.closed blanks)) x
  | list {is : List (Item Doc)} {blanks : Gap} {x : α} (few : is.length ≤ r.fields.length)
      (holds : r.Holds n (numbered r.fields is) x) : Spells r n (.list is (.closed blanks)) x

/-- Where nothing has been seen members are taken exactly if the unknown ones are complete, no field is
named twice, and each is filled. -/
theorem taken_none_seen {es : List (String × Doc)} {a b : α} :
    r.Taken n [] es a b ↔ (∀ e ∈ es, e.1 ∉ r.fields.map Field.key → e.2.break? = none) ∧
      (∀ f ∈ r.fields, occurrences f.key es ≤ 1) ∧ Filled n r.fields es a b := by
  have all : (r.fields.filter fun f => f.key ∉ ([] : List String)) = r.fields := by simp
  constructor
  · rintro ⟨complete, once, filled⟩
    rw [all] at filled
    exact ⟨complete, by simpa using once, filled⟩
  · rintro ⟨complete, once, filled⟩
    refine ⟨complete, by simpa using once, ?_⟩
    rw [all]
    exact filled

/-- Nothing is missing exactly if every required field has been seen. -/
theorem missing?_eq_none_iff {seen : List String} :
    r.missing? seen = none ↔ ∀ f ∈ r.fields, f.required = true → f.key ∈ seen := by
  simp [missing?, List.find?_eq_none]

/-- Elements have the names of the first fields. -/
theorem names_numbered (fs : List (Field α)) (is : List (Item Doc)) :
    ((numbered fs is).map Prod.fst).Sublist (fs.map Field.key) := by
  induction fs generalizing is with
  | nil => exact List.Sublist.slnil
  | cons f fs ih =>
    cases is with
    | nil => exact List.nil_sublist _
    | cons i is => exact (ih is).cons_cons f.key

/-- No element has another name than a field, and no two have one name. -/
theorem numbered_fits {fs : List (Field α)} (distinct : (fs.map Field.key).Nodup)
    (is : List (Item Doc)) : (∀ e ∈ numbered fs is, e.1 ∈ fs.map Field.key) ∧
      ∀ key, occurrences key (numbered fs is) ≤ 1 := by
  refine ⟨fun e member => (names_numbered fs is).subset (List.mem_map_of_mem member), fun key => ?_⟩
  have counted : occurrences key (numbered fs is) = ((numbered fs is).map Prod.fst).count key := by
    rw [occurrences, List.count, List.countP_map]
    rfl
  rw [counted]
  exact List.nodup_iff_count_le_one.1 (distinct.sublist (names_numbered fs is)) key

/-- A record is read from a document exactly if the document spells it and its bracket may be opened. -/
theorem reader_ok_iff (distinct : (r.fields.map Field.key).Nodup)
    (commute : r.fields.Pairwise Field.Commutes) {p : Place}
    (settled : ∀ f ∈ r.fields, f.Settled (p.nesting + 1)) {d : Doc} {x : α} :
    r.reader.ofDoc p d = .ok x ↔ p.nesting < nestingLimit ∧ r.Spells (p.nesting + 1) d x := by
  cases d with
  | object ms close =>
    simp only [reader, bind_eq_ok_iff, Place.inside_ok_iff]
    constructor
    · rintro ⟨_, ⟨rfl, room⟩, ⟨a, seen, q⟩, read, _, closed, rest⟩
      obtain ⟨blanks, rfl⟩ := object_seen_ok_iff.1 closed
      split at rest
      · cases rest
      · next all_there =>
        obtain rfl := Except.ok.inj rest
        obtain ⟨es, named, taken⟩ :=
          (readMembers_ok_iff distinct commute settled rfl).1 ⟨seen, q, read⟩
        obtain ⟨complete, once, filled⟩ := taken_none_seen.1 taken
        refine ⟨room, .object named ⟨complete, once, fun f member needed => ?_, filled⟩⟩
        have there := missing?_eq_none_iff.1 all_there f member needed
        exact ((mem_seen_iff named read member).1 there).resolve_left List.not_mem_nil
    · rintro ⟨room, spells⟩
      cases spells with
      | object named holds =>
        obtain ⟨seen, q, read⟩ := (readMembers_ok_iff distinct commute settled
            (p := ⟨p.offset + 1, p.nesting + 1⟩) rfl).2
          ⟨_, named, taken_none_seen.2 ⟨holds.complete, holds.once, holds.filled⟩⟩
        have all_there : r.missing? seen = none :=
          missing?_eq_none_iff.2 fun f member needed =>
            (mem_seen_iff named read member).2 (.inr (holds.required f member needed))
        exact ⟨_, ⟨rfl, room⟩, _, read, (), rfl, by simp only [all_there]⟩
  | list is close =>
    simp only [reader, bind_eq_ok_iff, Place.inside_ok_iff]
    constructor
    · rintro ⟨_, ⟨rfl, room⟩, read⟩
      obtain ⟨⟨blanks, rfl⟩, few, required, filled⟩ := (readItems_ok_iff distinct settled rfl).1 read
      obtain ⟨known, once⟩ := numbered_fits distinct is
      exact ⟨room, .list few ⟨fun e member unknown => absurd (known e member) unknown,
        fun f _ => once f.key, required, filled⟩⟩
    · rintro ⟨room, spells⟩
      cases spells with
      | list few holds =>
        exact ⟨_, ⟨rfl, room⟩, (readItems_ok_iff distinct settled rfl).2
          ⟨⟨_, rfl⟩, few, holds.required, holds.filled⟩⟩
  | _ =>
    constructor
    · intro read
      cases read
    · rintro ⟨_, spells⟩
      cases spells

/-- What a record takes does not depend on the place, if its fields are settled and commute. -/
theorem reader_settled (distinct : (r.fields.map Field.key).Nodup)
    (commute : r.fields.Pairwise Field.Commutes) (settled : ∀ f ∈ r.fields, f.Settled (n + 1)) :
    r.reader.Settled n := by
  rintro p d x rfl
  exact (reader_ok_iff distinct commute settled).trans
    (reader_ok_iff (p := ⟨0, p.nesting⟩) distinct commute settled).symm

end Record

end CallPool.Json
