import CallPool.Proofs.Json.Normal
import CallPool.Proofs.Json.Numbers
import CallPool.Proofs.Json.Strings

/-!
# Values read back

A value is written as a well-spelled document (`Doc.ofValue_wellSpelled`), nested as deep as the value
is. Where that many brackets may still be opened, the value is read from it just as it was, if its
floating-point numbers are read back. A value that was read from any document is nested no deeper than
the brackets allowed, and its normal form is no deeper.

Main statements: `Doc.value_ofValue` and `Doc.depth_le_of_value`.
-/

set_option autoImplicit false

namespace CallPool.Json

/-! ### Nesting -/

mutual

/-- How many brackets are open at once in a document. -/
def Doc.depth : Doc → Nat
  | .literal _ => 0
  | .number _ => 0
  | .string _ => 0
  | .list items _ => itemsDepth items + 1
  | .object members _ => membersDepth members + 1
  | .missing _ => 0
  | .brokenWord _ => 0
  | .brokenString _ _ _ => 0

/-- How many brackets are open at once in an element of a list. -/
def itemsDepth : List (Item Doc) → Nat
  | [] => 0
  | ⟨_, value, _⟩ :: rest => max value.depth (itemsDepth rest)

/-- How many brackets are open at once in a member of an object. -/
def membersDepth : List (Member Doc) → Nat
  | [] => 0
  | ⟨_, _, _, _, value, _⟩ :: rest => max value.depth (membersDepth rest)

end

mutual

/-- How deep a value is nested. -/
def Value.depth : Value → Nat
  | .null => 0
  | .bool _ => 0
  | .number _ => 0
  | .string _ => 0
  | .list items => valuesDepth items + 1
  | .object members => fieldsDepth members + 1

/-- How deep the deepest of some values is nested. -/
def valuesDepth : List Value → Nat
  | [] => 0
  | v :: rest => max v.depth (valuesDepth rest)

/-- How deep the deepest value of some members is nested. -/
def fieldsDepth : List (String × Value) → Nat
  | [] => 0
  | (_, v) :: rest => max v.depth (fieldsDepth rest)

end

/-- A number opens no bracket. -/
theorem Doc.depth_ofNumber (n : Number) : (Doc.ofNumber n).depth = 0 := by
  rw [Doc.ofNumber]
  split <;> rfl

mutual

/-- A value is written with as many brackets as it is nested deep. -/
theorem Doc.depth_ofValue : ∀ v : Value, (Doc.ofValue v).depth = v.depth
  | .null => rfl
  | .bool _ => rfl
  | .number n => Doc.depth_ofNumber n
  | .string _ => rfl
  | .list items => congrArg (· + 1) (itemsDepth_ofValues items)
  | .object members => congrArg (· + 1) (membersDepth_ofValues members)

/-- Written elements are as deep as the values. -/
theorem itemsDepth_ofValues : ∀ vs : List Value, itemsDepth (itemsOfValues vs) = valuesDepth vs
  | [] => rfl
  | v :: rest => by
    simp only [itemsOfValues, itemsDepth, valuesDepth, Doc.depth_ofValue v, itemsDepth_ofValues rest]

/-- Written members are as deep as their values. -/
theorem membersDepth_ofValues : ∀ ms : List (String × Value),
    membersDepth (membersOfValues ms) = fieldsDepth ms
  | [] => rfl
  | (_, v) :: rest => by
    simp only [membersOfValues, membersDepth, fieldsDepth, Doc.depth_ofValue v,
      membersDepth_ofValues rest]

end

/-- Members are no deeper than a bound if no value of theirs is. -/
theorem fieldsDepth_le {ms : List (String × Value)} {bound : Nat} :
    fieldsDepth ms ≤ bound ↔ ∀ m ∈ ms, m.2.depth ≤ bound := by
  induction ms with
  | nil => simp [fieldsDepth]
  | cons m ms ih => rw [fieldsDepth, Nat.max_le, ih, List.forall_mem_cons]

mutual

/-- A normal form is nested no deeper than the value. -/
theorem Value.depth_normal_le : ∀ v : Value, v.normal.depth ≤ v.depth
  | .null => Nat.le_refl _
  | .bool _ => Nat.le_refl _
  | .number _ => Nat.le_refl _
  | .string _ => Nat.le_refl _
  | .list items => Nat.succ_le_succ (valuesDepth_normalItems_le items)
  | .object members => by
    refine Nat.succ_le_succ (fieldsDepth_le.2 fun m member => ?_)
    rcases mem_normalMembers member with old | ⟨n, mem, rfl⟩
    · cases old
    · exact depth_normal_le_of_mem members n mem

/-- The normal form of elements is no deeper than they are. -/
theorem valuesDepth_normalItems_le : ∀ vs : List Value, valuesDepth (normalItems vs) ≤ valuesDepth vs
  | [] => Nat.le_refl _
  | v :: rest => by
    have first := Value.depth_normal_le v
    have others := valuesDepth_normalItems_le rest
    simp only [normalItems, valuesDepth]
    omega

/-- The normal form of a member is no deeper than the members are. -/
theorem depth_normal_le_of_mem : ∀ ms : List (String × Value), ∀ m ∈ ms,
    m.2.normal.depth ≤ fieldsDepth ms
  | [], _, member => by cases member
  | (k, v) :: rest, m, member => by
    rw [fieldsDepth]
    rcases List.mem_cons.1 member with rfl | behind
    · exact Nat.le_trans (Value.depth_normal_le v) (Nat.le_max_left _ _)
    · exact Nat.le_trans (depth_normal_le_of_mem rest m behind) (Nat.le_max_right _ _)

end

/-! ### Spelling -/

mutual

/-- What a value is written as is complete, and spelled as JSON admits. -/
theorem Doc.ofValue_wellSpelled : ∀ v : Value, (Doc.ofValue v).WellSpelled
  | .null => trivial
  | .bool _ => trivial
  | .number n => Doc.ofNumber_wellSpelled n
  | .string s => Quoted.ofString_wellSpelled s
  | .list items => ⟨itemsOfValues_wellSpelled items, [], rfl, fun _ => rfl⟩
  | .object members => ⟨membersOfValues_wellSpelled members, [], rfl, fun _ => rfl⟩

/-- Elements are written as they may be spelled. -/
theorem itemsOfValues_wellSpelled : ∀ vs : List Value, ItemsWellSpelled (itemsOfValues vs)
  | [] => trivial
  | v :: rest => ⟨Doc.ofValue_wellSpelled v, itemsOfValues_wellSpelled rest⟩

/-- Members are written as they may be spelled. -/
theorem membersOfValues_wellSpelled : ∀ ms : List (String × Value),
    MembersWellSpelled (membersOfValues ms)
  | [] => trivial
  | (k, v) :: rest =>
    ⟨Quoted.ofString_wellSpelled k, Doc.ofValue_wellSpelled v, membersOfValues_wellSpelled rest⟩

end

/-! ### Reading what was written -/

mutual

/-- Whether every floating-point number in a value is read back. -/
def Value.FloatsReadBack : Value → Prop
  | .null => True
  | .bool _ => True
  | .number n => ∀ x, n = .float x → x.ReadsBack
  | .string _ => True
  | .list items => ItemsReadBack items
  | .object members => FieldsReadBack members

/-- Whether every floating-point number in some values is read back. -/
def ItemsReadBack : List Value → Prop
  | [] => True
  | v :: rest => v.FloatsReadBack ∧ ItemsReadBack rest

/-- Whether every floating-point number in the values of some members is read back. -/
def FieldsReadBack : List (String × Value) → Prop
  | [] => True
  | (_, v) :: rest => v.FloatsReadBack ∧ FieldsReadBack rest

end

/-- A bracket that is opened is one place further and one level deeper, below the limit. -/
theorem Place.inside_ok {p q : Place} (inside : p.inside = .ok q) :
    q = ⟨p.offset + 1, p.nesting + 1⟩ ∧ p.nesting < nestingLimit := by
  rw [Place.inside] at inside
  split at inside
  case isTrue room => exact ⟨(Except.ok.inj inside).symm, room⟩
  case isFalse => cases inside

/-- A bracket may be opened where there is room. -/
theorem Place.inside_of_room {p : Place} (room : p.nesting < nestingLimit) :
    p.inside = .ok ⟨p.offset + 1, p.nesting + 1⟩ :=
  if_pos room

/-- The elements of a list are read one behind the other. -/
theorem itemValues_cons {p : Place} {i : Item Doc} {rest : List (Item Doc)} {all : List Value} :
    itemValues p (i :: rest) = .ok all ↔ ∃ v vs, i.value.value (p.ofItem i) = .ok v ∧
      itemValues (p.behindItem i) rest = .ok vs ∧ all = v :: vs := by
  obtain ⟨before, value, after⟩ := i
  rw [itemValues]
  simp only [Place.ofItem, Place.behindItem, bind, Except.bind]
  cases value.value { p with offset := p.offset + before.length } with
  | error f => simp
  | ok v =>
    cases itemValues
      { p with offset := p.offset + before.length + value.width + after.length + 1 } rest with
    | error f => simp
    | ok vs => simp [eq_comm]

/-- The members of an object are read one behind the other. -/
theorem memberValues_cons {p q : Place} {m : Member Doc} {rest : List (Member Doc)} {all : Members} :
    memberValues p (m :: rest) = .ok (all, q) ↔ ∃ k v ms,
      Quoted.string m.key (p.ofKey m) = .ok k ∧ m.value.value (p.ofMember m) = .ok v ∧
        memberValues (p.behindMember m) rest = .ok (ms, q) ∧ all = (k, v) :: ms := by
  obtain ⟨before, key, beforeColon, afterColon, value, after⟩ := m
  rw [memberValues]
  simp only [Place.ofKey, Place.ofMember, Place.behindMember, bind, Except.bind]
  cases Quoted.string key (p.offset + before.length + 1) with
  | error f => simp
  | ok k =>
    simp only []
    cases value.value { p with offset :=
        p.offset + before.length + Quoted.width key + beforeColon.length + 1 + afterColon.length } with
    | error f => simp
    | ok v =>
      simp only []
      split
      · next others => simp [others]
      · next others =>
        simp only [others]
        grind

/-- What a number is written as is read as that number, unless it is a floating-point one that is not read back. -/
theorem Doc.ofNumber_eq_numeral {n : Number} (back : ∀ x, n = .float x → x.ReadsBack) :
    ∃ t, Doc.ofNumber n = .number t ∧ ∀ place, t.number place = .ok n := by
  obtain ⟨t, written, read⟩ : ∃ t, Numeral.ofNumber? n = some t ∧ ∀ place, t.number place = .ok n := by
    cases n with
    | natural k => exact ⟨_, rfl, Numeral.number_natural k⟩
    | negative k => exact ⟨_, rfl, Numeral.number_negative k⟩
    | float x => exact (back x rfl).numeral
  exact ⟨t, by rw [Doc.ofNumber, written], read⟩

mutual

/-- A value is read from what it is written as, where its brackets may be opened. -/
theorem Doc.value_ofValue : ∀ (v : Value) (p : Place), v.FloatsReadBack →
    p.nesting + v.depth ≤ nestingLimit → (Doc.ofValue v).value p = .ok v
  | .null, _, _, _ => rfl
  | .bool true, _, _, _ => rfl
  | .bool false, _, _, _ => rfl
  | .number n, p, back, _ => by
    obtain ⟨t, same, read⟩ := Doc.ofNumber_eq_numeral back
    rw [Doc.ofValue, same, Doc.value, read]
    rfl
  | .string s, p, _, _ => by
    rw [Doc.ofValue, Doc.ofString, Doc.value, Quoted.string_ofString]
    rfl
  | .list items, p, back, room => by
    rw [Value.depth] at room
    rw [Doc.ofValue, Doc.value, Place.inside_of_room (by omega)]
    have read := itemValues_ofValues items ⟨p.offset + 1, p.nesting + 1⟩ back (by simp; omega)
    simp only [bind, Except.bind, read, ListEnd.seen]
  | .object members, p, back, room => by
    rw [Value.depth] at room
    rw [Doc.ofValue, Doc.value, Place.inside_of_room (by omega)]
    obtain ⟨q, read⟩ :=
      memberValues_ofValues members ⟨p.offset + 1, p.nesting + 1⟩ back (by simp; omega)
    simp only [bind, Except.bind, read, ObjectEnd.seen]

/-- Elements whose numbers read back are read back, with room for their brackets. -/
theorem itemValues_ofValues : ∀ (vs : List Value) (p : Place), ItemsReadBack vs →
    p.nesting + valuesDepth vs ≤ nestingLimit → itemValues p (itemsOfValues vs) = .ok vs
  | [], _, _, _ => rfl
  | v :: rest, p, back, room => by
    rw [valuesDepth] at room
    have first := Doc.value_ofValue v (p.ofItem ⟨[], Doc.ofValue v, []⟩) back.1
      (by simp only [Place.ofItem]; omega)
    have others := itemValues_ofValues rest (p.behindItem ⟨[], Doc.ofValue v, []⟩) back.2
      (by simp only [Place.behindItem]; omega)
    exact itemValues_cons.2 ⟨v, rest, first, others, rfl⟩

/-- Members whose numbers read back are read back, with room for their brackets. -/
theorem memberValues_ofValues : ∀ (ms : List (String × Value)) (p : Place), FieldsReadBack ms →
    p.nesting + fieldsDepth ms ≤ nestingLimit →
      ∃ q, memberValues p (membersOfValues ms) = .ok (ms, q)
  | [], p, _, _ => ⟨p, rfl⟩
  | (k, v) :: rest, p, back, room => by
    rw [fieldsDepth] at room
    have first := Doc.value_ofValue v
      (p.ofMember ⟨[], Quoted.ofString k, [], [], Doc.ofValue v, []⟩) back.1
      (by simp only [Place.ofMember]; omega)
    obtain ⟨q, others⟩ := memberValues_ofValues rest
      (p.behindMember ⟨[], Quoted.ofString k, [], [], Doc.ofValue v, []⟩) back.2
      (by simp only [Place.behindMember]; omega)
    exact ⟨q, memberValues_cons.2 ⟨k, v, rest, Quoted.string_ofString k _, first, others, rfl⟩⟩

end

/-! ### What was read is nested within the limit -/

mutual

/-- A value that was read stands, with all brackets in it, within the limit. -/
theorem Doc.depth_le_of_value : ∀ {d : Doc} {p : Place} {v : Value}, p.nesting ≤ nestingLimit →
    d.value p = .ok v → p.nesting + v.depth ≤ nestingLimit
  | .literal .null, _, _, outside, read => Except.ok.inj read ▸ outside
  | .literal .yes, _, _, outside, read => Except.ok.inj read ▸ outside
  | .literal .no, _, _, outside, read => Except.ok.inj read ▸ outside
  | .number n, p, v, outside, read => by
    simp only [Doc.value, bind, Except.bind] at read
    split at read
    · cases read
    · exact Except.ok.inj read ▸ outside
  | .string s, p, v, outside, read => by
    simp only [Doc.value, bind, Except.bind] at read
    split at read
    · cases read
    · exact Except.ok.inj read ▸ outside
  | .list items close, p, v, outside, read => by
    simp only [Doc.value, bind, Except.bind] at read
    split at read
    · cases read
    · next q inside =>
      split at read
      · cases read
      · next vs elements =>
        split at read
        · cases read
        · obtain ⟨rfl, room⟩ := Place.inside_ok inside
          have within := valuesDepth_le_of_itemValues (Nat.succ_le_of_lt room) elements
          rw [← Except.ok.inj read, Value.depth]
          simp only [] at within
          omega
  | .object members close, p, v, outside, read => by
    simp only [Doc.value, bind, Except.bind] at read
    split at read
    · cases read
    · next q inside =>
      split at read
      · cases read
      · next all elements =>
        obtain ⟨ms, q'⟩ := all
        simp only [] at read
        split at read
        · cases read
        · obtain ⟨rfl, room⟩ := Place.inside_ok inside
          have within := fieldsDepth_le_of_memberValues (Nat.succ_le_of_lt room) elements
          rw [← Except.ok.inj read, Value.depth]
          simp only [] at within
          omega
  | .missing _, _, _, _, read => by cases read
  | .brokenWord _, _, _, _, read => by cases read
  | .brokenString _ _ _, _, _, _, read => by cases read

/-- Elements that are read have had room for their brackets. -/
theorem valuesDepth_le_of_itemValues : ∀ {items : List (Item Doc)} {p : Place} {vs : List Value},
    p.nesting ≤ nestingLimit → itemValues p items = .ok vs →
      p.nesting + valuesDepth vs ≤ nestingLimit
  | [], _, _, outside, read => Except.ok.inj read ▸ outside
  | i :: rest, p, _, outside, read => by
    obtain ⟨v, vs, first, others, rfl⟩ := itemValues_cons.1 read
    have here := Doc.depth_le_of_value (d := i.value) (p := p.ofItem i) outside first
    have behind := valuesDepth_le_of_itemValues (p := p.behindItem i) outside others
    simp only [Place.ofItem, Place.behindItem] at here behind
    rw [valuesDepth]
    omega

/-- Members that are read have had room for their brackets. -/
theorem fieldsDepth_le_of_memberValues : ∀ {members : List (Member Doc)} {p q : Place} {ms : Members},
    p.nesting ≤ nestingLimit → memberValues p members = .ok (ms, q) →
      p.nesting + fieldsDepth ms ≤ nestingLimit
  | [], _, _, _, outside, read => (Prod.mk.inj (Except.ok.inj read)).1 ▸ outside
  | m :: rest, p, _, _, outside, read => by
    obtain ⟨k, v, ms, -, first, others, rfl⟩ := memberValues_cons.1 read
    have here := Doc.depth_le_of_value (d := m.value) (p := p.ofMember m) outside first
    have behind := fieldsDepth_le_of_memberValues (p := p.behindMember m) outside others
    simp only [Place.ofMember, Place.behindMember] at here behind
    rw [fieldsDepth]
    omega

end

end CallPool.Json
