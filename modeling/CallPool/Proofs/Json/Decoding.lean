import CallPool.Proofs.Json.Fields

/-!
# Reading documents and reading their values

A reader takes a typed value from a document, and it takes one from a value. Where a document is read as
a value, with its members as they stand there, both ways take the same (`Reader.Agrees`): each reader looks
at a document just as `Doc.value` does (`Doc.ReadAs`), and a record goes through the members, or the
elements, in the same order in both.

What is passed over is the only difference. A reader that looks at a whole document takes nothing unless
the document is read as a value (`Reader.Looks`), so that what it takes does not depend on the place, as the
value does not (`Field.Looks.settled`). A record takes something from a document that is not read as a value
only if that is an object with such a document under a name that no field has (`Record.Skips`).

Main statements: `Record.reader_agrees` and `Record.value_or_skips_of_read`.
-/

set_option autoImplicit false

namespace CallPool.Json

variable {α β : Type}

/-! ### How a value was read -/

/-- The value that a document at this place is read as, and from which parts. -/
inductive Doc.ReadAs (p : Place) : Doc → Value → Prop
  | null : ReadAs p (.literal .null) .null
  | yes : ReadAs p (.literal .yes) (.bool true)
  | no : ReadAs p (.literal .no) (.bool false)
  | number {n : Numeral} {x : Number} (read : n.number p.offset = .ok x) :
      ReadAs p (.number n) (.number x)
  | string {s : Quoted} {t : String} (read : Quoted.string s (p.offset + 1) = .ok t) :
      ReadAs p (.string s) (.string t)
  | list {is : List (Item Doc)} {blanks : Gap} {q : Place} {vs : List Value} (inside : p.inside = .ok q)
      (elements : itemValues q is = .ok vs) : ReadAs p (.list is (.closed blanks)) (.list vs)
  | object {ms : List (Member Doc)} {blanks : Gap} {q q' : Place} {vs : Members}
      (inside : p.inside = .ok q) (elements : memberValues q ms = .ok (vs, q')) :
      ReadAs p (.object ms (.closed blanks)) (.object vs)

/-- A document is read as a value exactly if it stands for it, with room for its brackets. -/
theorem Doc.value_eq_ok_iff {p : Place} {d : Doc} {v : Value} : d.value p = .ok v ↔ d.ReadAs p v := by
  constructor
  · intro read
    cases d with
    | literal w => cases w <;> exact Except.ok.inj read ▸ by constructor
    | number n =>
      obtain ⟨x, here, same⟩ := bind_eq_ok_iff.1 read
      exact Except.ok.inj same ▸ .number here
    | string s =>
      obtain ⟨t, here, same⟩ := bind_eq_ok_iff.1 read
      exact Except.ok.inj same ▸ .string here
    | list is close =>
      obtain ⟨q, inside, rest⟩ := bind_eq_ok_iff.1 read
      obtain ⟨vs, elements, rest⟩ := bind_eq_ok_iff.1 rest
      obtain ⟨_, closed, same⟩ := bind_eq_ok_iff.1 rest
      cases close with
      | closed blanks => exact Except.ok.inj same ▸ .list inside elements
      | broken b => cases closed
    | object ms close =>
      obtain ⟨q, inside, rest⟩ := bind_eq_ok_iff.1 read
      obtain ⟨⟨vs, q'⟩, elements, rest⟩ := bind_eq_ok_iff.1 rest
      obtain ⟨_, closed, same⟩ := bind_eq_ok_iff.1 rest
      cases close with
      | closed blanks => exact Except.ok.inj same ▸ .object inside elements
      | broken b => cases closed
      | brokenKey blanks key stop b => cases closed
    | _ => cases read
  · intro readAs
    cases readAs with
    | null => rfl
    | yes => rfl
    | no => rfl
    | number read => exact bind_eq_ok_iff.2 ⟨_, read, rfl⟩
    | string read => exact bind_eq_ok_iff.2 ⟨_, read, rfl⟩
    | list inside elements =>
      exact bind_eq_ok_iff.2 ⟨_, inside, bind_eq_ok_iff.2 ⟨_, elements, rfl⟩⟩
    | object inside elements =>
      exact bind_eq_ok_iff.2 ⟨_, inside, bind_eq_ok_iff.2 ⟨_, elements, rfl⟩⟩

/-- A document that is read as a value is complete. -/
theorem Doc.break?_of_value {p : Place} {d : Doc} {v : Value} (read : d.value p = .ok v) :
    d.break? = none := by
  cases Doc.value_eq_ok_iff.1 read <;> rfl

/-! ### Both ways take the same -/

namespace Reader

/-- From a document that is read as a value a reader takes what it takes from that value. -/
def Agrees (r : Reader α) : Prop :=
  ∀ (rule : SurplusRule) (p : Place) (d : Doc) (v : Value) (x : α), d.value p = .ok v →
    (r.ofDoc p d = .ok x ↔ r.ofValue rule v = .ok x)

/-- A text is the same whether it is read from the document or from the value. -/
theorem text_agrees : text.Agrees := by
  intro rule p d v x read
  cases Doc.value_eq_ok_iff.1 read with
  | string here => simp [text, here]
  | _ => simp [text]

/-- A number is the same whether it is read from the document or from the value. -/
theorem ofNumber_agrees {expected : Expected} {accept : Number → Except Mismatch α} :
    (ofNumber expected accept).Agrees := by
  intro rule p d v x read
  cases Doc.value_eq_ok_iff.1 read with
  | number here =>
    simp only [ofNumber, here]
    split <;> simp_all
  | _ => simp [ofNumber]

/-- A value is the same whether it is read from the document or taken as it is. -/
theorem any_agrees : any.Agrees := by
  intro rule p d v x read
  simp [any, read, Except.map]

/-- Members are the same whether they are read from the document or from the value. -/
theorem members_agrees : members.Agrees := by
  intro rule p d v x read
  cases Doc.value_eq_ok_iff.1 read with
  | object inside elements =>
    simp [members, bind_eq_ok_iff, inside, ObjectEnd.seen, elements]
  | _ => simp [members]

/-- What is optional is absent for the document and for the value alike. -/
theorem optional_agrees {r : Reader α} (agrees : r.Agrees) : r.optional.Agrees := by
  intro rule p d v x read
  have same := fun y => agrees rule p d v y read
  cases Doc.value_eq_ok_iff.1 read with
  | null => simp [optional]
  | _ => simp only [optional, map_eq_ok_iff, same]

/-- Elements are read alike one by one, from the document and from the value. -/
theorem items_agrees {r : Reader α} (agrees : r.Agrees) (rule : SurplusRule) {is : List (Item Doc)}
    {p : Place} {vs : List Value} {xs : List α} (elements : itemValues p is = .ok vs) :
    items r p is = .ok xs ↔ vs.mapM (r.ofValue rule) = .ok xs := by
  induction is generalizing p vs xs with
  | nil =>
    obtain rfl := Except.ok.inj elements
    simp [items, pure, Except.pure]
  | cons i is ih =>
    obtain ⟨v, vs, here, behind, rfl⟩ := itemValues_cons.1 elements
    rw [items, List.mapM_cons]
    simp only [bind_eq_ok_iff, agrees rule _ _ v _ here, ih behind, pure, Except.pure,
      Except.ok.injEq]

/-- A list is the same whether it is read from the document or from the value, if its elements are. -/
theorem list_agrees {r : Reader α} (agrees : r.Agrees) : (list r).Agrees := by
  intro rule p d v xs read
  cases Doc.value_eq_ok_iff.1 read with
  | list inside elements =>
    simp [list, bind_eq_ok_iff, inside, ListEnd.seen, items_agrees agrees rule elements]
  | _ => simp [list]

end Reader

/-- From a document that is read as a value a field takes what it takes from that value. -/
def Field.Agrees (f : Field α) : Prop :=
  ∀ (rule : SurplusRule) (p : Place) (d : Doc) (v : Value) (put : α → α), d.value p = .ok v →
    (f.ofDoc p d = .ok put ↔ f.ofValue rule v = .ok put)

/-- A field takes the same from the document and from the value, if its reader does. -/
theorem Field.of_agrees {key : String} {required : Bool} {r : Reader β} {put : β → α → α}
    (agrees : r.Agrees) : (Field.of key required r put).Agrees := by
  intro rule p d v change read
  simp only [Field.of, map_eq_ok_iff, agrees rule p d v _ read]

namespace Record

/-- One member of a value is read: it is passed over, or its field takes it. -/
theorem readValueMembers_cons_ok_iff {r : Record α} {rule : SurplusRule} {e : String × Value}
    {es : List (String × Value)} {seen : List String} {a : α} {x : α × List String} :
    r.readValueMembers rule (e :: es) seen a = .ok x ↔
      r.field? e.1 = none ∧ r.readValueMembers rule es seen a = .ok x ∨
      ∃ f, r.field? e.1 = some f ∧ e.1 ∉ seen ∧ ∃ put, f.ofValue rule e.2 = .ok put ∧
        r.readValueMembers rule es (e.1 :: seen) (put a) = .ok x := by
  obtain ⟨key, v⟩ := e
  rw [readValueMembers]
  cases r.field? key with
  | none => simp
  | some f =>
    by_cases old : key ∈ seen
    · simp [old]
    · simp [old, bind_eq_ok_iff]

section

variable {r : Record α} (agrees : ∀ f ∈ r.fields, f.Agrees) (rule : SurplusRule)

include agrees

/-- Members fill a record alike, whether they stand in the document or in the value. -/
theorem readMembers_agrees {ms : List (Member Doc)} {p q : Place} {es : Members}
    (elements : memberValues p ms = .ok (es, q)) {seen seen' : List String} {a b : α} :
    (∃ q', r.readMembers p ms seen a = .ok (b, seen', q')) ↔
      r.readValueMembers rule es seen a = .ok (b, seen') := by
  induction ms generalizing p es seen a with
  | nil =>
    obtain ⟨rfl, rfl⟩ := Prod.mk.inj (Except.ok.inj elements)
    simp [readMembers, readValueMembers]
  | cons m ms ih =>
    obtain ⟨key, v, es, name, here, behind, rfl⟩ := memberValues_cons.1 elements
    have named : Quoted.meaning? m.key = some key := Quoted.string_ok_iff.1 name
    have whole : m.value.break? = none := Doc.break?_of_value here
    rw [readValueMembers_cons_ok_iff]
    constructor
    · rintro ⟨q', read⟩
      obtain ⟨key', name', step⟩ := readMembers_cons_ok_iff.1 read
      obtain rfl : key = key' := Option.some.inj (named.symm.trans name')
      obtain ⟨unknown, -, rest⟩ | ⟨f, known, unseen, put, taken, rest⟩ := step
      · exact .inl ⟨unknown, (ih behind).1 ⟨q', rest⟩⟩
      · have taken' := (agrees f (field?_eq_some known).1 rule _ _ v put here).1 taken
        exact .inr ⟨f, known, unseen, put, taken', (ih behind).1 ⟨q', rest⟩⟩
    · rintro (⟨unknown, rest⟩ | ⟨f, known, unseen, put, taken, rest⟩)
      · obtain ⟨q', read⟩ := (ih behind).2 rest
        exact ⟨q', readMembers_cons_ok_iff.2 ⟨key, named, .inl ⟨unknown, whole, read⟩⟩⟩
      · obtain ⟨q', read⟩ := (ih behind).2 rest
        have taken' := (agrees f (field?_eq_some known).1 rule _ _ v put here).2 taken
        exact ⟨q', readMembers_cons_ok_iff.2 ⟨key, named, .inr ⟨f, known, unseen, put, taken', read⟩⟩⟩

/-- Elements fill a record alike, whether they stand in the document or in the value. -/
theorem readItems_agrees {name : String} {total length : Nat} {blanks : Gap} {fs : List (Field α)}
    (fields : ∀ f ∈ fs, f ∈ r.fields) {is : List (Item Doc)} {p : Place} {vs : List Value}
    (elements : itemValues p is = .ok vs) {count : Nat} {a b : α} :
    readItems name total (.closed blanks) fs p count is a = .ok b ↔
      readValueItems name total length rule fs count vs a = .ok b := by
  induction fs generalizing is p vs count a with
  | nil =>
    rw [readItems, bind_eq_ok_iff]
    cases is with
    | nil =>
      obtain rfl := Except.ok.inj elements
      simp [leftOver, readValueItems]
    | cons i is =>
      obtain ⟨v, vs, -, -, rfl⟩ := itemValues_cons.1 elements
      simp [leftOver_ok_iff, readValueItems]
  | cons f fs ih =>
    have others : ∀ g ∈ fs, g ∈ r.fields := fun g member => fields g (.tail f member)
    cases is with
    | nil =>
      obtain rfl := Except.ok.inj elements
      rw [readItems, readValueItems]
      cases f.required with
      | true => simp [ListEnd.seen, bind_eq_ok_iff]
      | false => simp [ListEnd.seen, bind_eq_ok_iff, ih others elements]
    | cons i is =>
      obtain ⟨v, vs, here, behind, rfl⟩ := itemValues_cons.1 elements
      have same := fun put => agrees f (fields f List.mem_cons_self) rule _ _ v put here
      simp only [readItems, readValueItems, bind_eq_ok_iff, same, ih others behind]

/-- From a document that is read as a value a record is read just as from that value. -/
theorem reader_agrees : r.reader.Agrees := by
  intro rule p d v x read
  cases Doc.value_eq_ok_iff.1 read with
  | @object ms blanks q q' es inside elements =>
    simp only [reader, bind_eq_ok_iff, inside, Except.ok.injEq, exists_eq_left', Prod.exists,
      ObjectEnd.seen, exists_const, true_and, ← readMembers_agrees agrees rule elements]
    refine exists_congr fun a => exists_congr fun seen => ?_
    cases r.missing? seen <;> simp
  | list inside elements =>
    simp only [reader, bind_eq_ok_iff, inside, Except.ok.injEq, exists_eq_left']
    exact readItems_agrees agrees rule (fun f member => member) elements
  | _ => simp [reader]

end

end Record

/-! ### What is passed over -/

/-- A document that is read as a value inside as many brackets as these: it stands for one, and its own
brackets may be opened there. -/
def Doc.Readable (n : Nat) (d : Doc) : Prop := ∃ v, d.meaning? = some v ∧ n + d.depth ≤ nestingLimit

/-- A document is read as some value exactly if it is readable inside its brackets. -/
theorem Doc.exists_value_iff {p : Place} {d : Doc} (outside : p.nesting ≤ nestingLimit) :
    (∃ v, d.value p = .ok v) ↔ d.Readable p.nesting :=
  exists_congr fun v => Doc.value_ok_iff d p v outside

/-- A reader that takes something only from documents that are read as values. -/
def Reader.Looks (r : Reader α) : Prop :=
  ∀ (p : Place) (d : Doc) (x : α), r.ofDoc p d = .ok x → ∃ v, d.value p = .ok v

namespace Reader

/-- A text is read only from what is read as a value. -/
@[simp] theorem text_looks : text.Looks := by
  intro p d x read
  cases d with
  | string s => exact ⟨_, Doc.value_eq_ok_iff.2 (.string read)⟩
  | _ => cases read

/-- A number is read only from what is read as a value. -/
theorem ofNumber_looks {expected : Expected} {accept : Number → Except Mismatch α} :
    (ofNumber expected accept).Looks := by
  intro p d x read
  cases d with
  | number n =>
    cases here : n.number p.offset with
    | error f => simp [ofNumber, here] at read
    | ok y => exact ⟨_, Doc.value_eq_ok_iff.2 (.number here)⟩
  | _ => cases read

/-- A floating-point number is read only from what is read as a value. -/
@[simp] theorem float_looks : float.Looks := ofNumber_looks

/-- Members are read only from what is read as a value. -/
@[simp] theorem members_looks : members.Looks := by
  intro p d x read
  cases d with
  | object ms close =>
    obtain ⟨q, inside, rest⟩ := bind_eq_ok_iff.1 read
    obtain ⟨⟨vs, q'⟩, elements, rest⟩ := bind_eq_ok_iff.1 rest
    obtain ⟨_, closed, -⟩ := bind_eq_ok_iff.1 rest
    obtain ⟨blanks, rfl⟩ := Record.object_seen_ok_iff.1 closed
    exact ⟨_, Doc.value_eq_ok_iff.2 (.object inside elements)⟩
  | _ => cases read

/-- What is optional is read only from what is read as a value, if its reader looks. -/
@[simp] theorem optional_looks {r : Reader α} (looks : r.Looks) : r.optional.Looks := by
  intro p d x read
  obtain ⟨rfl, -⟩ | ⟨-, y, taken, -⟩ := optional_ok_iff.1 read
  · exact ⟨_, Doc.value_eq_ok_iff.2 .null⟩
  · exact looks p d y taken

end Reader

/-- A field that takes something only from documents that are read as values. -/
def Field.Looks (f : Field α) : Prop :=
  ∀ (p : Place) (d : Doc) (put : α → α), f.ofDoc p d = .ok put → ∃ v, d.value p = .ok v

/-- A field is read only from what is read as a value, if its reader looks. -/
@[simp] theorem Field.of_looks {key : String} {required : Bool} {r : Reader β} {put : β → α → α}
    (looks : r.Looks) : (Field.of key required r put).Looks := by
  intro p d change taken
  obtain ⟨x, here, -⟩ := Field.of_ok taken
  exact looks p d x here

/-- What a field takes does not depend on the place if it takes the same from a document and from its value,
as the value does not. -/
theorem Field.Looks.settled {f : Field α} (looks : f.Looks) (agrees : f.Agrees) {n : Nat}
    (inside : n ≤ nestingLimit) : f.Settled n := by
  have moved {d : Doc} {put : α → α} (p q : Place) (here : p.nesting = n) (there : q.nesting = n)
      (taken : f.ofDoc p d = .ok put) : f.ofDoc q d = .ok put := by
    subst here
    obtain ⟨v, value⟩ := looks p d put taken
    have meant := (Doc.value_ok_iff d p v inside).1 value
    have value' : d.value q = .ok v := (Doc.value_ok_iff d q v (there ▸ inside)).2 (there ▸ meant)
    exact (agrees .fewer q d v put value').2 ((agrees .fewer p d v put value).1 taken)
  exact fun p d put here => ⟨moved p ⟨0, n⟩ here rfl, moved ⟨0, n⟩ p rfl here⟩

/-- If members stand for values each of them does. -/
theorem memberMeanings?_mem {ms : List (Member Doc)} {vs : Members} (meant : memberMeanings? ms = some vs)
    {m : Member Doc} (member : m ∈ ms) : ∃ v, m.value.meaning? = some v := by
  induction ms generalizing vs with
  | nil => cases member
  | cons n ms ih =>
    obtain ⟨k, v, vs, -, value, others, -⟩ := memberMeanings?_cons.1 meant
    rcases List.mem_cons.1 member with rfl | behind
    · exact ⟨v, value⟩
    · exact ih others behind

namespace Record

/-- An object with a member under none of these names that is not read as a value inside as many brackets
as these. -/
def Skips (names : List String) (n : Nat) (d : Doc) : Prop :=
  ∃ ms blanks, d = .object ms (.closed blanks) ∧ ∃ m ∈ ms, ∃ key, Quoted.meaning? m.key = some key ∧
    key ∉ names ∧ ¬ m.value.Readable n

/-- An object that has an unreadable member is not readable. -/
theorem Skips.not_readable {names : List String} {n : Nat} {d : Doc} (skips : Skips names (n + 1) d) :
    ¬ d.Readable n := by
  rintro ⟨v, meant, room⟩
  obtain ⟨ms, blanks, rfl, m, member, key, -, -, unreadable⟩ := skips
  obtain ⟨vs, all, -⟩ := Option.map_eq_some_iff.1 meant
  obtain ⟨w, value⟩ := memberMeanings?_mem all member
  have deepest := membersDepth_le.1 (Nat.le_refl (membersDepth ms)) m member
  rw [Doc.depth] at room
  exact unreadable ⟨w, value, by omega⟩

section

variable {r : Record α} (looks : ∀ f ∈ r.fields, f.Looks)

include looks

/-- Members that fill a record are read as values, if those that are passed over are. -/
theorem memberValues_of_readMembers {ms : List (Member Doc)} {p q : Place} {seen seen' : List String}
    {a b : α} (outside : p.nesting ≤ nestingLimit)
    (read : r.readMembers p ms seen a = .ok (b, seen', q))
    (others : ∀ m ∈ ms, ∀ key, Quoted.meaning? m.key = some key → key ∉ r.fields.map Field.key →
      m.value.Readable p.nesting) : ∃ es q', memberValues p ms = .ok (es, q') := by
  induction ms generalizing p seen a with
  | nil => exact ⟨[], p, rfl⟩
  | cons m ms ih =>
    have behind := fun m' member => others m' (List.mem_cons_of_mem m member)
    obtain ⟨key, named, step⟩ := readMembers_cons_ok_iff.1 read
    have name : Quoted.string m.key (p.ofKey m) = .ok key := Quoted.string_ok_iff.2 named
    have value : ∃ v, m.value.value (p.ofMember m) = .ok v := by
      obtain ⟨unknown, -, -⟩ | ⟨f, known, -, put, taken, -⟩ := step
      · exact (Doc.exists_value_iff (p := p.ofMember m) outside).2
          (others m List.mem_cons_self key named (field?_eq_none_iff.1 unknown))
      · exact looks f (field?_eq_some known).1 _ _ put taken
    have rest : ∃ es q', memberValues (p.behindMember m) ms = .ok (es, q') := by
      obtain ⟨-, -, read⟩ | ⟨f, -, -, put, -, read⟩ := step
      · exact ih (p := p.behindMember m) outside read behind
      · exact ih (p := p.behindMember m) outside read behind
    obtain ⟨v, here⟩ := value
    obtain ⟨es, q', rest⟩ := rest
    exact ⟨_, q', memberValues_cons.2 ⟨key, v, es, name, here, rest, rfl⟩⟩

/-- Elements that fill a record are read as values, and nothing else is in their list. -/
theorem itemValues_of_readItems {name : String} {total : Nat} {close : ListEnd} {fs : List (Field α)}
    (fields : ∀ f ∈ fs, f ∈ r.fields) {is : List (Item Doc)} {p : Place} {count : Nat} {a b : α}
    (read : readItems name total close fs p count is a = .ok b) :
    (∃ vs, itemValues p is = .ok vs) ∧ ∃ blanks, close = .closed blanks := by
  induction fs generalizing is p count a with
  | nil =>
    obtain ⟨_, ended, -⟩ := bind_eq_ok_iff.1 read
    obtain ⟨rfl, closed⟩ := leftOver_ok_iff.1 ended
    exact ⟨⟨[], rfl⟩, closed⟩
  | cons f fs ih =>
    have others : ∀ g ∈ fs, g ∈ r.fields := fun g member => fields g (.tail f member)
    cases is with
    | nil =>
      obtain ⟨_, closed, -⟩ := bind_eq_ok_iff.1 read
      exact ⟨⟨[], rfl⟩, seen_ok_iff.1 closed⟩
    | cons i is =>
      obtain ⟨put, taken, read⟩ := bind_eq_ok_iff.1 read
      obtain ⟨v, here⟩ := looks f (fields f List.mem_cons_self) _ _ put taken
      obtain ⟨⟨vs, behind⟩, closed⟩ := ih others read
      exact ⟨⟨_, itemValues_cons.2 ⟨v, vs, here, behind, rfl⟩⟩, closed⟩

/-- A document from which a record is read is read as a value too, unless something in it that the record
passes over is not. -/
theorem value_or_skips_of_read {p : Place} {d : Doc} {x : α} (read : r.reader.ofDoc p d = .ok x) :
    (∃ v, d.value p = .ok v) ∨ Skips (r.fields.map Field.key) (p.nesting + 1) d := by
  cases d with
  | object ms close =>
    obtain ⟨q, inside, rest⟩ := bind_eq_ok_iff.1 read
    obtain ⟨⟨a, seen, q'⟩, members, rest⟩ := bind_eq_ok_iff.1 rest
    obtain ⟨_, closed, -⟩ := bind_eq_ok_iff.1 rest
    obtain ⟨blanks, rfl⟩ := object_seen_ok_iff.1 closed
    obtain ⟨rfl, room⟩ := Place.inside_ok inside
    by_cases others : ∀ m ∈ ms, ∀ key, Quoted.meaning? m.key = some key →
        key ∉ r.fields.map Field.key → m.value.Readable (p.nesting + 1)
    · obtain ⟨es, q', elements⟩ :=
        memberValues_of_readMembers looks (Nat.succ_le_of_lt room) members others
      exact .inl ⟨_, Doc.value_eq_ok_iff.2 (.object inside elements)⟩
    · push Not at others
      obtain ⟨m, member, key, named, unknown, unreadable⟩ := others
      exact .inr ⟨ms, blanks, rfl, m, member, key, named, unknown, unreadable⟩
  | list is close =>
    obtain ⟨q, inside, items⟩ := bind_eq_ok_iff.1 read
    obtain ⟨⟨vs, elements⟩, blanks, rfl⟩ := itemValues_of_readItems looks (fun f member => member) items
    exact .inl ⟨_, Doc.value_eq_ok_iff.2 (.list inside elements)⟩
  | _ => cases read

end

end Record

end CallPool.Json
