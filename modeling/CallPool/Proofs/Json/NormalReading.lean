import CallPool.Proofs.Json.Decoding
import Mathlib.Data.List.Pairwise

/-!
# Reading normal forms

A value in normal form has lost the order of its members, and of several members with one key all but the
last. A reader does not miss them: what it takes from a value it takes from its normal form
(`Reader.TakesNormal`). A record refuses two members under the name of a field, so those that it takes
stand there once, and their order is of no importance as long as no two fields touch the same part of the
record (`Field.CommutesOnValues`). Of the members that it passes over any may be dropped.

Main statement: `Record.reader_takesNormal`.
-/

set_option autoImplicit false

namespace CallPool.Json

variable {α β : Type}

/-- What a reader takes from a value it takes from its normal form. -/
def Reader.TakesNormal (r : Reader α) : Prop :=
  ∀ (rule : SurplusRule) (v : Value) (x : α), r.ofValue rule v = .ok x →
    r.ofValue rule v.normal = .ok x

/-- The elements of a normal form are the normal forms of the elements. -/
theorem normalItems_eq_map (vs : List Value) : normalItems vs = vs.map Value.normal := by
  induction vs with
  | nil => rfl
  | cons v vs ih => rw [normalItems, ih, List.map_cons]

namespace Reader

/-- A text is its own normal form. -/
theorem text_takesNormal : text.TakesNormal := by
  intro rule v x taken
  cases v with
  | string s => exact taken
  | _ => cases taken

/-- A number is its own normal form. -/
theorem ofNumber_takesNormal {expected : Expected} {accept : Number → Except Mismatch α} :
    (ofNumber expected accept).TakesNormal := by
  intro rule v x taken
  cases v with
  | number n => exact taken
  | _ => cases taken

/-- Members that are read from a value are read from its normal form. -/
theorem members_takesNormal : members.TakesNormal := by
  intro rule v x taken
  cases v with
  | object ms => simpa [members, Value.normal, normalMembers_idem] using taken
  | _ => cases taken

/-- What is optional is read from the normal form too, if its reader takes that. -/
theorem optional_takesNormal {r : Reader α} (takes : r.TakesNormal) : r.optional.TakesNormal := by
  intro rule v x taken
  cases v with
  | null => exact taken
  | _ =>
    obtain ⟨y, here, rfl⟩ := map_eq_ok_iff.1 taken
    exact map_eq_ok_iff.2 ⟨y, takes rule _ y here, rfl⟩

/-- A list is read from the normal form too, if the reader of its elements takes that. -/
theorem list_takesNormal {r : Reader α} (takes : r.TakesNormal) : (list r).TakesNormal := by
  intro rule v xs taken
  cases v with
  | list vs =>
    simp only [list, Value.normal, normalItems_eq_map] at taken ⊢
    induction vs generalizing xs with
    | nil => exact taken
    | cons v vs ih =>
      rw [List.mapM_cons, bind_eq_ok_iff] at taken
      obtain ⟨y, here, taken⟩ := taken
      obtain ⟨ys, behind, same⟩ := bind_eq_ok_iff.1 taken
      rw [List.map_cons, List.mapM_cons]
      exact bind_eq_ok_iff.2 ⟨y, takes rule v y here, bind_eq_ok_iff.2 ⟨ys, ih ys behind, same⟩⟩
  | _ => cases taken

end Reader

/-- What a field takes from a value it takes from its normal form. -/
def Field.TakesNormal (f : Field α) : Prop :=
  ∀ (rule : SurplusRule) (v : Value) (put : α → α), f.ofValue rule v = .ok put →
    f.ofValue rule v.normal = .ok put

/-- The changes of two fields that were read from values may be made in any order. -/
def Field.CommutesOnValues (f g : Field α) : Prop :=
  ∀ (rule : SurplusRule) (v w : Value) (put put' : α → α) (a : α), f.ofValue rule v = .ok put →
    g.ofValue rule w = .ok put' → put (put' a) = put' (put a)

/-- A field is read from the normal form too, if its reader takes that. -/
theorem Field.of_takesNormal {key : String} {required : Bool} {r : Reader β} {put : β → α → α}
    (takes : r.TakesNormal) : (Field.of key required r put).TakesNormal := by
  intro rule v change taken
  obtain ⟨x, here, rfl⟩ := map_eq_ok_iff.1 taken
  exact map_eq_ok_iff.2 ⟨x, takes rule v x here, rfl⟩

/-- Two fields commute on values if what they put does. -/
@[simp] theorem Field.of_commutesOnValues {γ : Type} {key key' : String} {required required' : Bool}
    {r : Reader β} {r' : Reader γ} {put : β → α → α} {put' : γ → α → α}
    (commute : ∀ x y a, put x (put' y a) = put' y (put x a)) :
    (Field.of key required r put).CommutesOnValues (Field.of key' required' r' put') := by
  intro rule v w change change' a taken taken'
  obtain ⟨x, -, rfl⟩ := map_eq_ok_iff.1 taken
  obtain ⟨y, -, rfl⟩ := map_eq_ok_iff.1 taken'
  exact commute x y a

instance : Std.Symm (Field.CommutesOnValues (α := α)) where
  symm _ _ commute rule v w put put' a taken taken' := (commute rule w v put' put a taken' taken).symm

namespace Record

variable {r : Record α} {rule : SurplusRule}

/-! ### Members that are passed over -/

/-- The members that fields of the record have. -/
def knownMembers (r : Record α) (es : Members) : Members := es.filter fun e => (r.field? e.1).isSome

/-- A member that a field has is known. -/
theorem knownMembers_cons_of_known {f : Field α} {k : String} {v : Value} {es : Members}
    (known : r.field? k = some f) : r.knownMembers ((k, v) :: es) = (k, v) :: r.knownMembers es :=
  List.filter_cons_of_pos (by simp [known])

/-- A member that no field has is not known. -/
theorem knownMembers_cons_of_unknown {k : String} {v : Value} {es : Members}
    (unknown : r.field? k = none) : r.knownMembers ((k, v) :: es) = r.knownMembers es :=
  List.filter_cons_of_neg (by simp [unknown])

/-- Members that are not known do not matter to the record. -/
theorem readValueMembers_known (es : Members) (seen : List String) (a : α) :
    r.readValueMembers rule (r.knownMembers es) seen a = r.readValueMembers rule es seen a := by
  induction es generalizing seen a with
  | nil => rfl
  | cons e es ih =>
    obtain ⟨key, v⟩ := e
    cases found : r.field? key with
    | none => simpa only [knownMembers_cons_of_unknown found, readValueMembers, found] using ih seen a
    | some f => simp only [knownMembers_cons_of_known found, readValueMembers, found, ih]

/-- No two members that are read have one name, and none has a name that was seen before. -/
theorem nodup_of_readValueMembers {es : Members} {seen : List String} {a : α} {x : α × List String}
    (read : r.readValueMembers rule es seen a = .ok x) :
    ((r.knownMembers es).map Prod.fst).Nodup ∧ ∀ key ∈ (r.knownMembers es).map Prod.fst, key ∉ seen := by
  induction es generalizing seen a with
  | nil => simp [knownMembers]
  | cons e es ih =>
    obtain ⟨key, v⟩ := e
    obtain ⟨unknown, rest⟩ | ⟨f, known, unseen, put, -, rest⟩ := readValueMembers_cons_ok_iff.1 read
    · rw [knownMembers_cons_of_unknown unknown]
      exact ih rest
    · rw [knownMembers_cons_of_known known, List.map_cons]
      obtain ⟨distinct, fresh⟩ := ih rest
      refine ⟨List.nodup_cons.2 ⟨fun again => fresh key again List.mem_cons_self, distinct⟩, ?_⟩
      rw [List.forall_mem_cons]
      exact ⟨unseen, fun other member old => fresh other member (.tail key old)⟩

/-! ### The order of the members -/

/-- Which names were seen first is of no importance. -/
theorem readValueMembers_seen {es : Members} {seen seen₁ seen' : List String} {a b : α}
    (same : ∀ key, key ∈ seen ↔ key ∈ seen₁)
    (read : r.readValueMembers rule es seen a = .ok (b, seen')) :
    ∃ seen₁', r.readValueMembers rule es seen₁ a = .ok (b, seen₁') ∧
      ∀ key, key ∈ seen' ↔ key ∈ seen₁' := by
  induction es generalizing seen seen₁ a with
  | nil =>
    obtain ⟨rfl, rfl⟩ := Prod.mk.inj (Except.ok.inj read)
    exact ⟨seen₁, rfl, same⟩
  | cons e es ih =>
    obtain ⟨unknown, rest⟩ | ⟨f, known, unseen, put, taken, rest⟩ :=
      readValueMembers_cons_ok_iff.1 read
    · obtain ⟨seen₁', read', same'⟩ := ih same rest
      exact ⟨seen₁', readValueMembers_cons_ok_iff.2 (.inl ⟨unknown, read'⟩), same'⟩
    · have more : ∀ key, key ∈ e.1 :: seen ↔ key ∈ e.1 :: seen₁ := by simp [same]
      obtain ⟨seen₁', read', same'⟩ := ih more rest
      have unseen₁ : e.1 ∉ seen₁ := fun old => unseen ((same e.1).2 old)
      exact ⟨seen₁', readValueMembers_cons_ok_iff.2
        (.inr ⟨f, known, unseen₁, put, taken, read'⟩), same'⟩

/-- Two members next to each other may be read in either order. -/
theorem readValueMembers_swap (commute : r.fields.Pairwise Field.CommutesOnValues)
    {e e' : String × Value} {es : Members} {seen seen' : List String} {a b : α}
    (read : r.readValueMembers rule (e :: e' :: es) seen a = .ok (b, seen')) :
    ∃ seen₁', r.readValueMembers rule (e' :: e :: es) seen a = .ok (b, seen₁') ∧
      ∀ key, key ∈ seen' ↔ key ∈ seen₁' := by
  simp only [readValueMembers_cons_ok_iff (e := e), readValueMembers_cons_ok_iff (e := e')] at read ⊢
  obtain ⟨unknown, ⟨unknown', rest⟩ | ⟨g, known', unseen', put', taken', rest⟩⟩ |
    ⟨f, known, unseen, put, taken, ⟨unknown', rest⟩ | ⟨g, known', unseen', put', taken', rest⟩⟩ := read
  · exact ⟨seen', .inl ⟨unknown', .inl ⟨unknown, rest⟩⟩, fun _ => Iff.rfl⟩
  · exact ⟨seen', .inr ⟨g, known', unseen', put', taken', .inl ⟨unknown, rest⟩⟩, fun _ => Iff.rfl⟩
  · exact ⟨seen', .inl ⟨unknown', .inr ⟨f, known, unseen, put, taken, rest⟩⟩, fun _ => Iff.rfl⟩
  · obtain ⟨member, same⟩ := field?_eq_some known
    obtain ⟨member', same'⟩ := field?_eq_some known'
    obtain ⟨other, old⟩ := not_or.1 (mt List.mem_cons.2 unseen')
    have different : f ≠ g := fun equal => other (by rw [← same, ← same', equal])
    have either := commute.forall member member' different rule _ _ put put' a taken taken'
    rw [← either] at rest
    have both : ∀ key, key ∈ e'.1 :: e.1 :: seen ↔ key ∈ e.1 :: e'.1 :: seen :=
      fun key => by simp [or_left_comm]
    obtain ⟨seen₁', read', kept⟩ := readValueMembers_seen both rest
    have unseen₁ : e.1 ∉ e'.1 :: seen := by simp [unseen, Ne.symm other]
    exact ⟨seen₁', .inr ⟨g, known', old, put', taken', .inr ⟨f, known, unseen₁, put, taken, read'⟩⟩, kept⟩

/-- Members are read in any order as the same record. -/
theorem readValueMembers_perm (commute : r.fields.Pairwise Field.CommutesOnValues) {es es' : Members}
    (perm : es.Perm es') {seen seen' : List String} {a b : α}
    (read : r.readValueMembers rule es seen a = .ok (b, seen')) :
    ∃ seen₁', r.readValueMembers rule es' seen a = .ok (b, seen₁') ∧
      ∀ key, key ∈ seen' ↔ key ∈ seen₁' := by
  induction perm generalizing seen seen' a with
  | nil => exact ⟨seen', read, fun _ => Iff.rfl⟩
  | cons e _ ih =>
    obtain ⟨unknown, rest⟩ | ⟨f, known, unseen, put, taken, rest⟩ :=
      readValueMembers_cons_ok_iff.1 read
    · obtain ⟨seen₁', read', same⟩ := ih rest
      exact ⟨seen₁', readValueMembers_cons_ok_iff.2 (.inl ⟨unknown, read'⟩), same⟩
    · obtain ⟨seen₁', read', same⟩ := ih rest
      exact ⟨seen₁', readValueMembers_cons_ok_iff.2
        (.inr ⟨f, known, unseen, put, taken, read'⟩), same⟩
  | swap e e' es => exact readValueMembers_swap commute read
  | trans _ _ ih ih' =>
    obtain ⟨seen₁, read₁, same₁⟩ := ih read
    obtain ⟨seen₂, read₂, same₂⟩ := ih' read₁
    exact ⟨seen₂, read₂, fun key => (same₁ key).trans (same₂ key)⟩

/-! ### Members in normal form -/

/-- A member with a new name is added to the others, wherever it comes to stand. -/
theorem insert_perm {k : String} {v : Value} {ms : Members} (fresh : k ∉ ms.map Prod.fst) :
    (ms.insert k v).Perm ((k, v) :: ms) := by
  induction ms with
  | nil => exact List.Perm.refl _
  | cons m ms ih =>
    obtain ⟨other, others⟩ := not_or.1 (mt List.mem_cons.2 fresh)
    rw [Members.insert, if_neg other]
    split
    · exact List.Perm.refl _
    · exact ((ih others).cons m).trans (List.Perm.swap _ _ _)

/-- A member that no field has changes nothing of those that fields have. -/
theorem knownMembers_insert {k : String} {v : Value} {ms : Members} (unknown : r.field? k = none) :
    r.knownMembers (ms.insert k v) = r.knownMembers ms := by
  induction ms with
  | nil => simp [Members.insert, knownMembers, unknown]
  | cons m ms ih =>
    obtain ⟨k', v'⟩ := m
    rw [Members.insert]
    split
    case isTrue before => exact knownMembers_cons_of_unknown unknown
    case isFalse not_before =>
      split
      case isTrue same =>
        subst same
        rw [knownMembers_cons_of_unknown unknown, knownMembers_cons_of_unknown unknown]
      case isFalse different =>
        cases found : r.field? k' with
        | none => rw [knownMembers_cons_of_unknown found, knownMembers_cons_of_unknown found, ih]
        | some f => rw [knownMembers_cons_of_known found, knownMembers_cons_of_known found, ih]

/-- In normal form a record finds the members that its fields have, if no two have one name. -/
theorem knownMembers_normalMembers {es done : Members}
    (distinct : ((r.knownMembers es).map Prod.fst).Nodup)
    (fresh : ∀ key ∈ (r.knownMembers es).map Prod.fst, key ∉ (r.knownMembers done).map Prod.fst) :
    (r.knownMembers (normalMembers es done)).Perm
      (r.knownMembers (es.map fun e => (e.1, e.2.normal)) ++ r.knownMembers done) := by
  induction es generalizing done with
  | nil => exact List.Perm.refl _
  | cons e es ih =>
    obtain ⟨k, v⟩ := e
    rw [normalMembers, List.map_cons]
    cases found : r.field? k with
    | none =>
      rw [knownMembers_cons_of_unknown found] at distinct fresh
      have same : r.knownMembers (done.insert k v.normal) = r.knownMembers done :=
        knownMembers_insert found
      rw [knownMembers_cons_of_unknown found, ← same]
      exact ih distinct (by rwa [same])
    | some f =>
      rw [knownMembers_cons_of_known found, List.map_cons] at distinct fresh
      rw [knownMembers_cons_of_known found, List.cons_append]
      obtain ⟨once, distinct⟩ := List.nodup_cons.1 distinct
      obtain ⟨first, fresh⟩ := List.forall_mem_cons.1 fresh
      have absent : k ∉ done.map Prod.fst := fun old => first (by
        obtain ⟨m, member, same⟩ := List.mem_map.1 old
        exact List.mem_map.2 ⟨m, List.mem_filter.2 ⟨member, by simp [same, found]⟩, same⟩)
      have added : (r.knownMembers (done.insert k v.normal)).Perm
          ((k, v.normal) :: r.knownMembers done) :=
        knownMembers_cons_of_known found ▸ (insert_perm absent).filter _
      have fresh' : ∀ key ∈ (r.knownMembers es).map Prod.fst,
          key ∉ (r.knownMembers (done.insert k v.normal)).map Prod.fst := by
        intro key member old
        rcases List.mem_cons.1 ((added.map Prod.fst).mem_iff.1 old) with rfl | old
        · exact once member
        · exact fresh key member old
      exact (ih distinct fresh').trans ((added.append_left _).trans List.perm_middle)

/-- A member whose value is put in normal form is read as it was. -/
theorem readValueMembers_map_normal (takes : ∀ f ∈ r.fields, f.TakesNormal) {es : Members}
    {seen : List String} {a : α} {x : α × List String}
    (read : r.readValueMembers rule es seen a = .ok x) :
    r.readValueMembers rule (es.map fun e => (e.1, e.2.normal)) seen a = .ok x := by
  induction es generalizing seen a with
  | nil => exact read
  | cons e es ih =>
    rw [List.map_cons, readValueMembers_cons_ok_iff]
    obtain ⟨unknown, rest⟩ | ⟨f, known, unseen, put, taken, rest⟩ :=
      readValueMembers_cons_ok_iff.1 read
    · exact .inl ⟨unknown, ih rest⟩
    · have taken' := takes f (field?_eq_some known).1 rule _ put taken
      exact .inr ⟨f, known, unseen, put, taken', ih rest⟩

/-- The members of an object are read as those of its normal form. -/
theorem readValueMembers_normalMembers (takes : ∀ f ∈ r.fields, f.TakesNormal)
    (commute : r.fields.Pairwise Field.CommutesOnValues) {es : Members} {seen : List String} {a b : α}
    (read : r.readValueMembers rule es [] a = .ok (b, seen)) :
    ∃ seen', r.readValueMembers rule (normalMembers es []) [] a = .ok (b, seen') ∧
      ∀ key, key ∈ seen ↔ key ∈ seen' := by
  obtain ⟨distinct, -⟩ := nodup_of_readValueMembers read
  have perm : (r.knownMembers (normalMembers es [])).Perm
      (r.knownMembers (es.map fun e => (e.1, e.2.normal)) ++ []) :=
    knownMembers_normalMembers distinct fun key _ old => nomatch old
  rw [List.append_nil] at perm
  have values := readValueMembers_map_normal takes read
  rw [← readValueMembers_known] at values
  obtain ⟨seen', read', same⟩ := readValueMembers_perm commute perm.symm values
  exact ⟨seen', by rwa [readValueMembers_known] at read', same⟩

/-- It does not matter to what is missing in which order the fields have been seen. -/
theorem missing?_congr {seen seen' : List String} (same : ∀ key, key ∈ seen ↔ key ∈ seen') :
    r.missing? seen = r.missing? seen' := by
  unfold missing?
  congr 1
  funext f
  rw [List.contains_eq_mem, List.contains_eq_mem, decide_eq_decide.2 (same f.key)]

/-- The elements of a list are read as those of its normal form. -/
theorem readValueItems_normal {name : String} {total length : Nat} {fs : List (Field α)}
    (takes : ∀ f ∈ fs, f.TakesNormal) {count : Nat} {vs : List Value} {a b : α}
    (read : readValueItems name total length rule fs count vs a = .ok b) :
    readValueItems name total length rule fs count (vs.map Value.normal) a = .ok b := by
  induction fs generalizing count vs a with
  | nil =>
    cases vs with
    | nil => exact read
    | cons v vs => cases read
  | cons f fs ih =>
    have behind : ∀ g ∈ fs, g.TakesNormal := fun g member => takes g (.tail f member)
    cases vs with
    | nil => exact read
    | cons v vs =>
      obtain ⟨put, taken, rest⟩ := bind_eq_ok_iff.1 read
      exact bind_eq_ok_iff.2 ⟨put, takes f List.mem_cons_self rule v put taken, ih behind rest⟩

/-- What a record is read as from a value it is read as from its normal form. -/
theorem reader_takesNormal (takes : ∀ f ∈ r.fields, f.TakesNormal)
    (commute : r.fields.Pairwise Field.CommutesOnValues) : r.reader.TakesNormal := by
  intro rule v x taken
  cases v with
  | object es =>
    obtain ⟨⟨a, seen⟩, members, rest⟩ := bind_eq_ok_iff.1 taken
    obtain ⟨seen', members', same⟩ := readValueMembers_normalMembers takes commute members
    refine bind_eq_ok_iff.2 ⟨(a, seen'), members', ?_⟩
    dsimp only at rest ⊢
    rwa [← missing?_congr same]
  | list vs =>
    simp only [reader, Value.normal, normalItems_eq_map, List.length_map] at taken ⊢
    exact readValueItems_normal takes taken
  | _ => cases taken

end Record

end CallPool.Json
