import CallPool.Proofs.Json.Readers

/-!
# What documents stand for

A complete document stands for a value, if its strings stand for texts and its numbers are in range
(`Doc.meaning?`); where it stands and how deep does not matter. That value is read from it exactly where
all its brackets may be opened.

Main statement: `Doc.value_ok_iff`.
-/

set_option autoImplicit false

namespace CallPool.Json

/-- A result that is mapped is right exactly if it was. -/
theorem map_eq_ok_iff {ε α β : Type} {e : Except ε α} {f : α → β} {y : β} :
    e.map f = .ok y ↔ ∃ x, e = .ok x ∧ f x = y := by
  cases e with
  | error _ => exact ⟨nofun, nofun⟩
  | ok x => exact ⟨fun same => ⟨x, rfl, Except.ok.inj same⟩, fun ⟨_, here, same⟩ => by
      rw [← same, ← Except.ok.inj here]
      rfl⟩

/-- What is kept of a result is there exactly if the result is right. -/
theorem toOption_eq_some_iff {ε α : Type} {e : Except ε α} {x : α} :
    e.toOption = some x ↔ e = .ok x := by
  cases e <;> simp [Except.toOption]

/-! ### Strings and numbers -/

/-- The bytes of a string depend neither on its place nor on what would be wrong if it broke off. -/
theorem Quoted.bytes_elsewhere {dangling dangling' : Nat → Fault} {place : Nat} {s : Quoted}
    {bytes : List UInt8} (read : Quoted.bytes dangling place s = .ok bytes) (place' : Nat) :
    Quoted.bytes dangling' place' s = .ok bytes := by
  fun_induction Quoted.bytes dangling place s generalizing place' bytes with
  | case1 => exact read
  | case2 place b rest ih =>
    obtain ⟨front, others, rfl⟩ := map_eq_ok_iff.1 read
    rw [Quoted.bytes, ih others]
    rfl
  | case3 place e rest ih =>
    obtain ⟨front, others, rfl⟩ := map_eq_ok_iff.1 read
    rw [Quoted.bytes, ih others]
    rfl
  | case4 => cases read
  | case5 place a b c d n no_trail lead a' b' c' d' rest m trail =>
    rename_i ih
    obtain ⟨front, others, rfl⟩ := map_eq_ok_iff.1 read
    unfold Quoted.bytes
    simp only []
    rw [if_neg no_trail, if_pos lead, if_pos trail, ih others]
    rfl
  | case6 => cases read
  | case7 => cases read
  | case8 => cases read
  | case9 => cases read
  | case10 place a b c d rest n no_trail no_lead =>
    rename_i ih
    obtain ⟨front, others, rfl⟩ := map_eq_ok_iff.1 read
    unfold Quoted.bytes
    simp only []
    rw [if_neg no_trail, if_neg no_lead, ih others]
    rfl

/-- The text that a string stands for, if it stands for one. -/
def Quoted.meaning? (s : Quoted) : Option String := (Quoted.string s 0).toOption

/-- The text that is read from a string does not depend on the place. -/
theorem Quoted.string_place {s : Quoted} {place : Nat} {t : String}
    (read : Quoted.string s place = .ok t) (place' : Nat) : Quoted.string s place' = .ok t := by
  unfold Quoted.string at read ⊢
  split at read
  · cases read
  · next bytes found =>
    rw [Quoted.bytes_elsewhere found place']
    simp only []
    split at read
    · exact read
    · cases read

/-- A quoted text is read as the text that it stands for. -/
theorem Quoted.string_ok_iff {s : Quoted} {place : Nat} {t : String} :
    Quoted.string s place = .ok t ↔ Quoted.meaning? s = some t := by
  rw [Quoted.meaning?, toOption_eq_some_iff]
  exact ⟨fun read => Quoted.string_place read 0, fun read => Quoted.string_place read place⟩

/-- The number that a spelling stands for, if it is in range. -/
def Numeral.meaning? (n : Numeral) : Option Number := (n.number 0).toOption

/-- A numeral is read as the number that it stands for. -/
theorem Numeral.number_ok_iff {n : Numeral} {place : Nat} {x : Number} :
    n.number place = .ok x ↔ n.meaning? = some x := by
  rw [Numeral.meaning?, toOption_eq_some_iff]
  exact ⟨fun read => Numeral.number_place read 0, fun read => Numeral.number_place read place⟩

/-! ### Documents -/

mutual

/-- The value that a document stands for, if it stands for one. -/
def Doc.meaning? : Doc → Option Value
  | .literal .null => some .null
  | .literal .yes => some (.bool true)
  | .literal .no => some (.bool false)
  | .number n => n.meaning?.map .number
  | .string s => (Quoted.meaning? s).map .string
  | .list items (.closed _) => (itemMeanings? items).map .list
  | .object members (.closed _) => (memberMeanings? members).map .object
  | _ => none

/-- The values that elements stand for. -/
def itemMeanings? : List (Item Doc) → Option (List Value)
  | [] => some []
  | ⟨_, value, _⟩ :: rest =>
    match value.meaning?, itemMeanings? rest with
    | some v, some vs => some (v :: vs)
    | _, _ => none

/-- The members that stand in a document. -/
def memberMeanings? : List (Member Doc) → Option Members
  | [] => some []
  | ⟨_, key, _, _, value, _⟩ :: rest =>
    match Quoted.meaning? key, value.meaning?, memberMeanings? rest with
    | some k, some v, some ms => some ((k, v) :: ms)
    | _, _, _ => none

end

/-- Elements stand for values if the first one does and the others do. -/
theorem itemMeanings?_cons {i : Item Doc} {rest : List (Item Doc)} {all : List Value} :
    itemMeanings? (i :: rest) = some all ↔ ∃ v vs, i.value.meaning? = some v ∧
      itemMeanings? rest = some vs ∧ all = v :: vs := by
  obtain ⟨before, value, after⟩ := i
  rw [itemMeanings?]
  cases value.meaning? <;> cases itemMeanings? rest <;> simp [eq_comm]

/-- Members stand for named values if the first one does and the others do. -/
theorem memberMeanings?_cons {m : Member Doc} {rest : List (Member Doc)} {all : Members} :
    memberMeanings? (m :: rest) = some all ↔ ∃ k v ms, Quoted.meaning? m.key = some k ∧
      m.value.meaning? = some v ∧ memberMeanings? rest = some ms ∧ all = (k, v) :: ms := by
  obtain ⟨before, key, beforeColon, afterColon, value, after⟩ := m
  rw [memberMeanings?]
  cases Quoted.meaning? key <;> cases value.meaning? <;> cases memberMeanings? rest <;>
    simp [eq_comm]

/-- Two steps give a result exactly if the first one does and the second one makes it of that. -/
theorem bind_eq_ok_iff {ε α β : Type} {e : Except ε α} {f : α → Except ε β} {y : β} :
    (do let x ← e; f x) = .ok y ↔ ∃ x, e = .ok x ∧ f x = .ok y := by
  cases e with
  | error _ => exact ⟨nofun, nofun⟩
  | ok x => exact ⟨fun same => ⟨x, rfl, same⟩, fun ⟨_, here, same⟩ => Except.ok.inj here ▸ same⟩

/-- A bracket may be opened exactly if the nesting is below the limit. -/
theorem Place.inside_ok_iff {p q : Place} :
    p.inside = .ok q ↔ q = ⟨p.offset + 1, p.nesting + 1⟩ ∧ p.nesting < nestingLimit :=
  ⟨Place.inside_ok, fun ⟨same, room⟩ => by rw [same, Place.inside_of_room room]⟩

mutual

/-- A value is read from a document exactly if the document stands for it and all its brackets may be
opened where it stands. -/
theorem Doc.value_ok_iff : ∀ (d : Doc) (p : Place) (v : Value), p.nesting ≤ nestingLimit →
    (d.value p = .ok v ↔ d.meaning? = some v ∧ p.nesting + d.depth ≤ nestingLimit)
  | .literal .null, p, v, outside => by simp [Doc.value, Doc.meaning?, Doc.depth, outside]
  | .literal .yes, p, v, outside => by simp [Doc.value, Doc.meaning?, Doc.depth, outside]
  | .literal .no, p, v, outside => by simp [Doc.value, Doc.meaning?, Doc.depth, outside]
  | .number n, p, v, outside => by
    rw [Doc.value, bind_eq_ok_iff]
    simp [Numeral.number_ok_iff, Doc.meaning?, Doc.depth, outside]
  | .string s, p, v, outside => by
    rw [Doc.value, bind_eq_ok_iff]
    simp [Quoted.string_ok_iff, Doc.meaning?, Doc.depth, outside]
  | .list items (.closed _), p, v, outside => by
    have elements := fun vs (room : p.nesting < nestingLimit) =>
      itemValues_ok_iff items ⟨p.offset + 1, p.nesting + 1⟩ vs room
    rw [Doc.value]
    simp only [bind_eq_ok_iff, Place.inside_ok_iff, ListEnd.seen, Doc.meaning?, Doc.depth,
      Option.map_eq_some_iff]
    constructor
    · rintro ⟨_, ⟨rfl, room⟩, vs, read, _, _, same⟩
      obtain ⟨meant, deep⟩ := (elements vs room).1 read
      exact ⟨⟨vs, meant, Except.ok.inj same⟩, by simp only [] at deep; omega⟩
    · rintro ⟨⟨vs, meant, rfl⟩, deep⟩
      have room : p.nesting < nestingLimit := by omega
      exact ⟨_, ⟨rfl, room⟩, vs, (elements vs room).2 ⟨meant, by simp only []; omega⟩, (), trivial, rfl⟩
  | .list items (.broken b), p, v, outside => by
    rw [Doc.value]
    simp [bind_eq_ok_iff, ListEnd.seen, Doc.meaning?]
  | .object members (.closed _), p, v, outside => by
    have elements := fun ms (room : p.nesting < nestingLimit) =>
      memberValues_ok_iff members ⟨p.offset + 1, p.nesting + 1⟩ ms room
    rw [Doc.value]
    simp only [bind_eq_ok_iff, Place.inside_ok_iff, ObjectEnd.seen, Doc.meaning?, Doc.depth,
      Option.map_eq_some_iff, Prod.exists]
    constructor
    · rintro ⟨_, ⟨rfl, room⟩, ms, q, read, _, _, same⟩
      obtain ⟨meant, deep⟩ := (elements ms room).1 ⟨q, read⟩
      exact ⟨⟨ms, meant, Except.ok.inj same⟩, by simp only [] at deep; omega⟩
    · rintro ⟨⟨ms, meant, rfl⟩, deep⟩
      have room : p.nesting < nestingLimit := by omega
      obtain ⟨q, read⟩ := (elements ms room).2 ⟨meant, by simp only []; omega⟩
      exact ⟨_, ⟨rfl, room⟩, ms, q, read, (), trivial, rfl⟩
  | .object members (.broken b), p, v, outside => by
    rw [Doc.value]
    simp [bind_eq_ok_iff, ObjectEnd.seen, Doc.meaning?]
  | .object members (.brokenKey _ _ _ b), p, v, outside => by
    rw [Doc.value]
    simp [bind_eq_ok_iff, ObjectEnd.seen, Doc.meaning?]
  | .missing _, _, _, _ => ⟨nofun, nofun⟩
  | .brokenWord _, _, _, _ => ⟨nofun, nofun⟩
  | .brokenString _ _ _, _, _, _ => ⟨nofun, nofun⟩

/-- Elements are read as values exactly if they stand for them, with room for their brackets. -/
theorem itemValues_ok_iff : ∀ (items : List (Item Doc)) (p : Place) (vs : List Value),
    p.nesting ≤ nestingLimit → (itemValues p items = .ok vs ↔
      itemMeanings? items = some vs ∧ p.nesting + itemsDepth items ≤ nestingLimit)
  | [], p, vs, outside => by simp [itemValues, itemMeanings?, itemsDepth, outside]
  | i :: rest, p, vs, outside => by
    have here := fun v => Doc.value_ok_iff i.value (p.ofItem i) v outside
    have behind := fun vs => itemValues_ok_iff rest (p.behindItem i) vs outside
    have deepest : p.nesting + itemsDepth (i :: rest) ≤ nestingLimit ↔
        p.nesting + i.value.depth ≤ nestingLimit ∧ p.nesting + itemsDepth rest ≤ nestingLimit := by
      rw [itemsDepth]
      omega
    simp only [Place.ofItem, Place.behindItem] at here behind
    simp only [itemValues_cons, itemMeanings?_cons, Place.ofItem, Place.behindItem, here, behind, deepest]
    constructor
    · rintro ⟨v, vs', ⟨meant, deep⟩, ⟨others, deep'⟩, same⟩
      exact ⟨⟨v, vs', meant, others, same⟩, deep, deep'⟩
    · rintro ⟨⟨v, vs', meant, others, same⟩, deep, deep'⟩
      exact ⟨v, vs', ⟨meant, deep⟩, ⟨others, deep'⟩, same⟩

/-- Members are read as named values exactly if they stand for them, with room for their brackets. -/
theorem memberValues_ok_iff : ∀ (members : List (Member Doc)) (p : Place) (ms : Members),
    p.nesting ≤ nestingLimit → ((∃ q, memberValues p members = .ok (ms, q)) ↔
      memberMeanings? members = some ms ∧ p.nesting + membersDepth members ≤ nestingLimit)
  | [], p, ms, outside => by simp [memberValues, memberMeanings?, membersDepth, outside]
  | m :: rest, p, ms, outside => by
    have here := fun v => Doc.value_ok_iff m.value (p.ofMember m) v outside
    have behind := fun ms => memberValues_ok_iff rest (p.behindMember m) ms outside
    have deepest : p.nesting + membersDepth (m :: rest) ≤ nestingLimit ↔
        p.nesting + m.value.depth ≤ nestingLimit ∧ p.nesting + membersDepth rest ≤ nestingLimit := by
      rw [membersDepth]
      omega
    rw [deepest, memberMeanings?_cons]
    constructor
    · rintro ⟨q, read⟩
      obtain ⟨k, v, ms', name, value, others, same⟩ := memberValues_cons.1 read
      obtain ⟨meant, deep⟩ := (here v).1 value
      obtain ⟨meant', deep'⟩ := (behind ms').1 ⟨q, others⟩
      exact ⟨⟨k, v, ms', Quoted.string_ok_iff.1 name, meant, meant', same⟩, deep, deep'⟩
    · rintro ⟨⟨k, v, ms', name, meant, meant', same⟩, deep, deep'⟩
      obtain ⟨q, others⟩ := (behind ms').2 ⟨meant', deep'⟩
      exact ⟨q, memberValues_cons.2
        ⟨k, v, ms', Quoted.string_ok_iff.2 name, (here v).2 ⟨meant, deep⟩, others, same⟩⟩

end

/-- Only the word stands for `null`. -/
theorem Doc.meaning?_eq_null_iff {d : Doc} : d.meaning? = some .null ↔ d = .literal .null := by
  cases d with
  | literal w => cases w <;> simp [Doc.meaning?]
  | list items close => cases close <;> simp [Doc.meaning?]
  | object members close => cases close <;> simp [Doc.meaning?]
  | _ => simp [Doc.meaning?]

/-- A well-spelled document is complete. -/
theorem Doc.break?_of_wellSpelled {d : Doc} (spelled : d.WellSpelled) : d.break? = none := by
  cases d with
  | literal _ => rfl
  | number _ => rfl
  | string _ => rfl
  | list items close =>
    obtain ⟨_, blanks, rfl, _⟩ := spelled
    rfl
  | object members close =>
    obtain ⟨_, blanks, rfl, _⟩ := spelled
    rfl
  | _ => exact spelled.elim

/-! ### Readers -/

namespace Reader

variable {α : Type}

/-- What a reader takes does not depend on where the document stands, inside as many brackets as these. -/
def Settled (n : Nat) (r : Reader α) : Prop :=
  ∀ (p : Place) (d : Doc) (x : α), p.nesting = n → (r.ofDoc p d = .ok x ↔ r.ofDoc ⟨0, n⟩ d = .ok x)

/-- Text is read from a document that stands for a text. -/
theorem text_ok_iff {p : Place} {d : Doc} {t : String} :
    text.ofDoc p d = .ok t ↔ d.meaning? = some (.string t) := by
  cases d with
  | string s => simp [text, Quoted.string_ok_iff, Doc.meaning?]
  | literal w => cases w <;> simp [text, Doc.meaning?]
  | list items close => cases close <;> simp [text, Doc.meaning?]
  | object members close => cases close <;> simp [text, Doc.meaning?]
  | _ => simp [text, Doc.meaning?]

/-- What is read as a text does not depend on the place. -/
theorem text_settled (n : Nat) : text.Settled n :=
  fun _ _ _ _ => text_ok_iff.trans text_ok_iff.symm

/-- Any value is read, in normal form, from a document that stands for it and has room for its
brackets. -/
theorem any_ok_iff {p : Place} {d : Doc} {v : Value} (outside : p.nesting ≤ nestingLimit) :
    any.ofDoc p d = .ok v ↔
      ∃ w, d.meaning? = some w ∧ p.nesting + d.depth ≤ nestingLimit ∧ w.normal = v := by
  simp only [any, map_eq_ok_iff, Doc.value_ok_iff d p _ outside, and_assoc]

/-- What is read as a value does not depend on the place, inside as many brackets. -/
theorem any_settled {n : Nat} (inside : n ≤ nestingLimit) : any.Settled n := by
  rintro p d v rfl
  exact (any_ok_iff inside).trans (any_ok_iff (p := ⟨0, p.nesting⟩) inside).symm

/-- What is optional is null, or what its reader takes. -/
theorem optional_ok_iff {r : Reader α} {p : Place} {d : Doc} {o : Option α} :
    r.optional.ofDoc p d = .ok o ↔ d = .literal .null ∧ o = none ∨
      d ≠ .literal .null ∧ ∃ x, r.ofDoc p d = .ok x ∧ o = some x := by
  by_cases null : d = .literal .null
  · subst null
    simp [optional, eq_comm]
  · have not_null : r.optional.ofDoc p d = (r.ofDoc p d).map some := by
      simp only [optional]
    rw [not_null, map_eq_ok_iff]
    simp [null, eq_comm]

/-- What is optional does not depend on the place, if that of its reader does not. -/
theorem optional_settled {n : Nat} {r : Reader α} (settled : r.Settled n) : r.optional.Settled n := by
  intro p d o inside
  simp only [optional_ok_iff, settled p d _ inside]

end Reader

end CallPool.Json
