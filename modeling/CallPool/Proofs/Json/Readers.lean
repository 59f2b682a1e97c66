import CallPool.Proofs.Json.Values

/-!
# Readers of what was written

`Reader.Takes` says that a reader takes a value from a document wherever that stands, as long as the
brackets in it may be opened. A whole text is then read as that value (`Reader.Takes.parse`). The
readers of text, numbers, values and lists take what is written from what it is written as.

In the other direction, the readers of free values only give normal forms that are nested within the
limit (`Reader.any_ok`, `Reader.members_ok`).
-/

set_option autoImplicit false

namespace CallPool.Json

/-! ### Lists and objects as documents -/

/-- Elements are no deeper than a bound if none of them is. -/
theorem itemsDepth_le {is : List (Item Doc)} {bound : Nat} :
    itemsDepth is ≤ bound ↔ ∀ i ∈ is, i.value.depth ≤ bound := by
  induction is with
  | nil => simp [itemsDepth]
  | cons i is ih => rw [itemsDepth, Nat.max_le, ih, List.forall_mem_cons]

/-- Members are no deeper than a bound if no value of theirs is. -/
theorem membersDepth_le {ms : List (Member Doc)} {bound : Nat} :
    membersDepth ms ≤ bound ↔ ∀ m ∈ ms, m.value.depth ≤ bound := by
  induction ms with
  | nil => simp [membersDepth]
  | cons m ms ih => rw [membersDepth, Nat.max_le, ih, List.forall_mem_cons]

/-- A list is one bracket deeper than its elements. -/
theorem Doc.depth_ofItems_le {ds : List Doc} {n : Nat} :
    (Doc.ofItems ds).depth ≤ n + 1 ↔ ∀ d ∈ ds, d.depth ≤ n := by
  simp [Doc.ofItems, Doc.depth, itemsDepth_le]

/-- An object is one bracket deeper than its values. -/
theorem Doc.depth_ofMembers_le {ms : List (String × Doc)} {n : Nat} :
    (Doc.ofMembers ms).depth ≤ n + 1 ↔ ∀ m ∈ ms, m.2.depth ≤ n := by
  rw [Doc.ofMembers, Doc.depth, Nat.succ_le_succ_iff, membersDepth_le, List.forall_mem_map]

/-- A list of well-spelled elements is well spelled. -/
theorem Doc.ofItems_wellSpelled {ds : List Doc} (spelled : ∀ d ∈ ds, d.WellSpelled) :
    (Doc.ofItems ds).WellSpelled := by
  refine ⟨?_, [], rfl, fun _ => rfl⟩
  induction ds with
  | nil => trivial
  | cons d ds ih => exact ⟨spelled d List.mem_cons_self, ih fun e member => spelled e (.tail d member)⟩

/-- An object of well-spelled values is well spelled. -/
theorem Doc.ofMembers_wellSpelled {ms : List (String × Doc)}
    (spelled : ∀ m ∈ ms, m.2.WellSpelled) : (Doc.ofMembers ms).WellSpelled := by
  refine ⟨?_, [], rfl, fun _ => rfl⟩
  induction ms with
  | nil => trivial
  | cons m ms ih =>
    exact ⟨Quoted.ofString_wellSpelled m.1, spelled m List.mem_cons_self,
      ih fun n member => spelled n (.tail m member)⟩

/-- An object value is written as its members are. -/
theorem Doc.ofValue_object (ms : List (String × Value)) :
    Doc.ofValue (.object ms) = Doc.ofMembers (ms.map fun m => (m.1, Doc.ofValue m.2)) := by
  rw [Doc.ofValue, Doc.ofMembers]
  congr 1
  induction ms with
  | nil => rfl
  | cons m ms ih =>
    obtain ⟨k, v⟩ := m
    simp only [membersOfValues, List.map_cons, ih]

namespace Reader

variable {α β : Type}

/-- A reader takes this from a document, wherever that stands with room for its brackets. -/
def Takes (r : Reader α) (d : Doc) (x : α) : Prop :=
  ∀ p : Place, p.nesting + d.depth ≤ nestingLimit → r.ofDoc p d = .ok x

/-- A text is read as what the reader takes from its document. -/
theorem Takes.parse {r : Reader α} {d : Doc} {x : α} (takes : r.Takes d x)
    (spelled : d.WellSpelled) (room : d.depth ≤ nestingLimit) : r.parse d.text = .ok x := by
  rw [Reader.parse_text r spelled, takes _ (by simpa [Place.start] using room)]
  rfl

/-! ### What is taken -/

/-- A text is read back from its document. -/
theorem text_takes (s : String) : text.Takes (Doc.ofString s) s :=
  fun p _ => Quoted.string_ofString s (p.offset + 1)

/-- A number that is accepted is read back from its document. -/
theorem ofNumber_takes {expected : Expected} {accept : Number → Except Mismatch α} {n : Number}
    {x : α} (accepted : accept n = .ok x) (back : ∀ y, n = .float y → y.ReadsBack) :
    (ofNumber expected accept).Takes (Doc.ofNumber n) x := by
  obtain ⟨t, same, read⟩ := Doc.ofNumber_eq_numeral back
  intro p _
  rw [same]
  simp only [ofNumber, read, accepted]

/-- A floating-point number is read back from its document, if its spelling reads back. -/
theorem float_takes {x : Binary64} (back : x.ReadsBack) :
    float.Takes (Doc.ofNumber (.float x)) x :=
  ofNumber_takes rfl fun _ same => Number.float.inj same ▸ back

/-- An unsigned number is read back from its document. -/
theorem unsigned_takes (n : UInt64) : unsigned.Takes (Doc.ofNumber (.natural n)) n :=
  ofNumber_takes rfl fun _ absurd_float => by cases absurd_float

/-- A signed number is read back from its document. -/
theorem signed_takes (i : Int64) : signed.Takes (Doc.ofNumber (Number.ofInt64 i)) i := by
  have below := i.toInt_lt
  have above := i.le_toInt
  by_cases nonnegative : 0 ≤ i.toInt
  · have written : Number.ofInt64 i = .natural (UInt64.ofNat i.toInt.toNat) := if_pos nonnegative
    have small : (UInt64.ofNat i.toInt.toNat).toNat = i.toInt.toNat :=
      UInt64.toNat_ofNat_of_lt' (by simp only [UInt64.size]; omega)
    have same : Int64.ofNat i.toInt.toNat = i := by
      rw [← Int64.ofInt_eq_ofNat, Int.toNat_of_nonneg nonnegative, Int64.ofInt_toInt]
    rw [written]
    refine ofNumber_takes ?_ fun _ absurd_float => by cases absurd_float
    simp only [small, same]
    exact if_pos (by simp only [Nat.pow_eq]; omega)
  · have written : Number.ofInt64 i = .negative (Fin.ofNat (Nat.pow 2 63) (-i.toInt - 1).toNat) :=
      if_neg nonnegative
    have small : (Fin.ofNat (Nat.pow 2 63) (-i.toInt - 1).toNat).val = (-i.toInt - 1).toNat :=
      Nat.mod_eq_of_lt (by simp only [Nat.pow_eq]; omega)
    have same : Int64.ofInt (Int.negSucc (-i.toInt - 1).toNat) = i := by
      rw [show Int.negSucc (-i.toInt - 1).toNat = i.toInt by omega, Int64.ofInt_toInt]
    rw [written]
    refine ofNumber_takes ?_ fun _ absurd_float => by cases absurd_float
    simp only [small, same]

/-- A value is taken in normal form. -/
theorem any_takes {v : Value} (back : v.FloatsReadBack) : any.Takes (Doc.ofValue v) v.normal := by
  intro p room
  rw [Doc.depth_ofValue] at room
  simp only [any, Doc.value_ofValue v p back room]
  rfl

/-- The members of an object are taken in normal form. -/
theorem members_takes {ms : Members} (back : FieldsReadBack ms) :
    members.Takes (Doc.ofValue (.object ms)) (normalMembers ms []) := by
  intro p room
  rw [Doc.depth_ofValue, Value.depth] at room
  obtain ⟨q, read⟩ :=
    memberValues_ofValues ms ⟨p.offset + 1, p.nesting + 1⟩ back (by simp only []; omega)
  simp only [members, Doc.ofValue, Place.inside_of_room (show p.nesting < nestingLimit by omega),
    bind, Except.bind, read, ObjectEnd.seen]

/-- What is optional and there is read back, if its document is not null. -/
theorem optional_takes {r : Reader α} {d : Doc} {x : α} (takes : r.Takes d x)
    (not_null : d ≠ .literal .null) : r.optional.Takes d (some x) := by
  intro p room
  simp only [optional]
  rw [takes p room]
  rfl

/-- Elements are read back one by one, as long as there is room for their brackets. -/
theorem items_takes {r : Reader α} {write : α → Doc} {xs : List α}
    (takes : ∀ x ∈ xs, r.Takes (write x) x) (p : Place)
    (room : ∀ x ∈ xs, p.nesting + (write x).depth ≤ nestingLimit) :
    items r p ((xs.map write).map fun d => ⟨[], d, []⟩) = .ok xs := by
  induction xs generalizing p with
  | nil => rfl
  | cons x xs ih =>
    have first := takes x List.mem_cons_self (p.ofItem ⟨[], write x, []⟩) (room x List.mem_cons_self)
    have others := ih (fun y member => takes y (.tail x member)) (p.behindItem ⟨[], write x, []⟩)
      fun y member => room y (.tail x member)
    simp only [List.map_cons, items, bind, Except.bind, first, others]

/-- A list is read back from its document, if its elements are. -/
theorem list_takes {r : Reader α} {write : α → Doc} {xs : List α}
    (takes : ∀ x ∈ xs, r.Takes (write x) x) :
    (list r).Takes (Doc.ofItems (xs.map write)) xs := by
  intro p room
  obtain ⟨bound, same⟩ : ∃ bound, nestingLimit = p.nesting + (bound + 1) :=
    ⟨nestingLimit - p.nesting - 1, by simp only [Doc.ofItems, Doc.depth] at room; omega⟩
  rw [same, Nat.add_le_add_iff_left, Doc.depth_ofItems_le, List.forall_mem_map] at room
  have read := items_takes takes ⟨p.offset + 1, p.nesting + 1⟩ fun x member => by
    have deep := room x member
    simp only []
    omega
  simp only [list, Doc.ofItems, Place.inside_of_room (show p.nesting < nestingLimit by omega), bind,
    Except.bind, read, ListEnd.seen]

/-! ### What can be taken -/

/-- A value that is read is in normal form, and its brackets have room. -/
theorem any_ok {p : Place} {d : Doc} {v : Value} (outside : p.nesting ≤ nestingLimit)
    (read : any.ofDoc p d = .ok v) : v.normal = v ∧ p.nesting + v.depth ≤ nestingLimit := by
  simp only [any] at read
  cases value : d.value p with
  | error f => rw [value] at read; cases read
  | ok w =>
    rw [value] at read
    obtain rfl : w.normal = v := Except.ok.inj read
    have within := Doc.depth_le_of_value outside value
    have shallower := w.depth_normal_le
    exact ⟨w.normal_normal, by omega⟩

/-- Members that are read are in normal form, and their brackets have room. -/
theorem members_ok {p : Place} {d : Doc} {ms : Members} (read : members.ofDoc p d = .ok ms) :
    normalMembers ms [] = ms ∧ p.nesting + (fieldsDepth ms + 1) ≤ nestingLimit := by
  cases d with
  | object members close =>
    simp only [Reader.members, bind, Except.bind] at read
    split at read
    · cases read
    · next q inside =>
      split at read
      · cases read
      · next all elements =>
        obtain ⟨vs, q'⟩ := all
        simp only [] at read
        split at read
        · cases read
        · obtain ⟨rfl, room⟩ := Place.inside_ok inside
          obtain rfl := Except.ok.inj read
          have within := fieldsDepth_le_of_memberValues (Nat.succ_le_of_lt room) elements
          have shallower := (Value.object vs).depth_normal_le
          simp only [Value.normal, Value.depth] at within shallower
          exact ⟨normalMembers_idem vs, by omega⟩
  | _ => cases read

/-- What is optional and there has been taken by its reader. -/
theorem optional_ok {r : Reader α} {p : Place} {d : Doc} {x : α}
    (read : r.optional.ofDoc p d = .ok (some x)) : r.ofDoc p d = .ok x := by
  simp only [optional] at read
  split at read
  · cases read
  · cases value : r.ofDoc p d with
    | error f => rw [value] at read; cases read
    | ok y =>
      rw [value] at read
      exact congrArg Except.ok (Option.some.inj (Except.ok.inj read))

end Reader

end CallPool.Json
