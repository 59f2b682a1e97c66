import CallPool.Json.Value

/-!
# Normal forms

The members of an object in normal form have ascending keys and values in normal form
(`IsNormal.members`). Inserting a member keeps that, and members that are in normal form already are
inserted one behind the other, so a normal form is its own normal form.

Main statements: `Value.normal_normal` and `normalMembers_idem`.
-/

set_option autoImplicit false

namespace CallPool.Json

/-- Members in normal form: their keys ascend, and their values are in normal form. -/
structure NormalMembers (ms : Members) : Prop where
  ascending : ms.Pairwise fun m n => m.1 < n.1
  values : ∀ m ∈ ms, m.2.normal = m.2

/-- No members are in normal form. -/
theorem NormalMembers.nil : NormalMembers [] := ⟨.nil, by simp⟩

/-- Members in normal form are so without the first one. -/
theorem NormalMembers.tail {m : String × Value} {ms : Members} (normal : NormalMembers (m :: ms)) :
    NormalMembers ms :=
  ⟨(List.pairwise_cons.1 normal.ascending).2, fun n member => normal.values n (.tail m member)⟩

namespace Members

/-- A member behind an insertion is the new one, or was there before. -/
theorem mem_insert {k : String} {v : Value} {ms : Members} {m : String × Value}
    (member : m ∈ ms.insert k v) : m = (k, v) ∨ m ∈ ms := by
  induction ms with
  | nil => exact .inl (List.mem_singleton.1 member)
  | cons n ms ih =>
    obtain ⟨k', v'⟩ := n
    rw [Members.insert] at member
    split at member
    · simpa using member
    · split at member
      · rcases List.mem_cons.1 member with here | behind
        · exact .inl here
        · exact .inr (.tail _ behind)
      · rcases List.mem_cons.1 member with here | behind
        · exact .inr (here ▸ List.mem_cons_self)
        · exact (ih behind).imp_right (.tail _)

/-- Members in normal form are so with one more that is inserted. -/
theorem insert_normal {k : String} {v : Value} {ms : Members} (normal : NormalMembers ms)
    (value : v.normal = v) : NormalMembers (ms.insert k v) := by
  refine ⟨?_, fun m member => ?_⟩
  · induction ms with
    | nil => exact List.pairwise_singleton _ _
    | cons n ms ih =>
      obtain ⟨k', v'⟩ := n
      obtain ⟨above, rest⟩ := List.pairwise_cons.1 normal.ascending
      rw [Members.insert]
      split
      case isTrue before =>
        refine List.pairwise_cons.2 ⟨fun m member => ?_, normal.ascending⟩
        rcases List.mem_cons.1 member with rfl | behind
        · exact before
        · exact String.lt_trans before (above m behind)
      case isFalse not_before =>
        split
        case isTrue same =>
          subst same
          exact List.pairwise_cons.2 ⟨above, rest⟩
        case isFalse different =>
          have behind_it : k' < k := Decidable.byContradiction fun not_behind =>
            different (String.le_antisymm (String.not_lt.1 not_behind) (String.not_lt.1 not_before))
          refine List.pairwise_cons.2 ⟨fun m member => ?_, ih normal.tail⟩
          rcases mem_insert member with rfl | behind
          · exact behind_it
          · exact above m behind
  · rcases mem_insert member with rfl | old
    · exact value
    · exact normal.values m old

/-- A key above all others goes to the end. -/
theorem insert_of_above {k : String} {v : Value} {ms : Members} (above : ∀ m ∈ ms, m.1 < k) :
    ms.insert k v = ms ++ [(k, v)] := by
  induction ms with
  | nil => rfl
  | cons m ms ih =>
    have below := above m List.mem_cons_self
    have not_before : ¬ k < m.1 := fun before => String.lt_irrefl _ (String.lt_trans below before)
    have different : ¬ k = m.1 := fun same => String.lt_irrefl _ (same ▸ below)
    rw [Members.insert, if_neg not_before, if_neg different, List.cons_append,
      ih fun n member => above n (.tail m member)]

end Members

/-- Members in normal form are added as they are behind members with smaller keys. -/
theorem normalMembers_of_normal {ms : Members} (done : Members) (normal : NormalMembers (done ++ ms)) :
    normalMembers ms done = done ++ ms := by
  induction ms generalizing done with
  | nil => rw [List.append_nil]; rfl
  | cons m ms ih =>
    obtain ⟨k, v⟩ := m
    have value : v.normal = v := normal.values (k, v) (by simp)
    have above : ∀ n ∈ done, n.1 < k := fun n member =>
      (List.pairwise_append.1 normal.ascending).2.2 n member (k, v) List.mem_cons_self
    rw [normalMembers, value, Members.insert_of_above above, ih _ (by rwa [← List.append_cons]),
      ← List.append_cons]

/-- What is added to members in normal form gives such members, if its values have normal forms. -/
theorem normalMembers_normal {ms done : Members}
    (values : ∀ m ∈ ms, m.2.normal.normal = m.2.normal) (normal : NormalMembers done) :
    NormalMembers (normalMembers ms done) := by
  induction ms generalizing done with
  | nil => exact normal
  | cons m ms ih =>
    exact ih (fun n member => values n (.tail m member))
      (Members.insert_normal normal (values m List.mem_cons_self))

/-- Every member of a normal form is one of the members, with its value in normal form. -/
theorem mem_normalMembers {ms done : Members} {m : String × Value}
    (member : m ∈ normalMembers ms done) : m ∈ done ∨ ∃ n ∈ ms, m = (n.1, n.2.normal) := by
  induction ms generalizing done with
  | nil => exact .inl member
  | cons n ms ih =>
    rcases ih member with old | ⟨n', mem, same⟩
    · rcases Members.mem_insert old with rfl | old
      · exact .inr ⟨n, List.mem_cons_self, rfl⟩
      · exact .inl old
    · exact .inr ⟨n', .tail n mem, same⟩

mutual

/-- A normal form is its own normal form. -/
theorem Value.normal_normal : ∀ v : Value, v.normal.normal = v.normal
  | .null => rfl
  | .bool _ => rfl
  | .number _ => rfl
  | .string _ => rfl
  | .list items => congrArg Value.list (normalItems_normalItems items)
  | .object members => congrArg Value.object
      (normalMembers_of_normal []
        (normalMembers_normal (normal_normal_of_mem members) NormalMembers.nil))

/-- Elements in normal form are so already. -/
theorem normalItems_normalItems : ∀ items : List Value,
    normalItems (normalItems items) = normalItems items
  | [] => rfl
  | v :: rest => by
    simp only [normalItems, Value.normal_normal v, normalItems_normalItems rest]

/-- The value of a member in normal form is so already. -/
theorem normal_normal_of_mem : ∀ ms : Members, ∀ m ∈ ms, m.2.normal.normal = m.2.normal
  | [], _, member => by cases member
  | (k, v) :: rest, m, member => by
    rcases List.mem_cons.1 member with rfl | behind
    · exact Value.normal_normal v
    · exact normal_normal_of_mem rest m behind

end

/-- Members in normal form are so already. -/
theorem normalMembers_idem (ms : Members) :
    normalMembers (normalMembers ms []) [] = normalMembers ms [] :=
  normalMembers_of_normal []
    (normalMembers_normal (fun m _ => m.2.normal_normal) NormalMembers.nil)

end CallPool.Json
