import CallPool.Proofs.Pool.Bookkeeping

/-!
# The least busy connections

A connection can be chosen if it lives and stands in a slot, and it is least busy if nobody that can
be chosen has fewer parties waiting. The connections that are tied are exactly these (`mem_tied`), and
a choice takes one of them, the place of which the cursor tells, or none if no slot is live
(`choose?_eq_none_iff`).
-/

set_option autoImplicit false

namespace CallPool.Pool

/-- A connection stands in a slot, and lives. -/
def Available (p : Pool) (g : Nat) (c : Connection) : Prop :=
  (∃ s : Nat, p.slots[s]? = some (some g)) ∧ p.connections[g]? = some c ∧ c.connected = true

/-- A connection can be chosen, and at none of the others that can be fewer parties wait. -/
def LeastBusy (p : Pool) (g : Nat) : Prop :=
  ∃ c, p.Available g c ∧ ∀ g' c', p.Available g' c' → c.pending ≤ c'.pending

section Loads

variable {p p' : Pool} {g n : Nat}

/-- The loads are those of the available connections. -/
theorem mem_loads : (g, n) ∈ p.loads ↔ ∃ c, p.Available g c ∧ c.pending = n := by
  unfold loads
  rw [List.mem_filterMap]
  constructor
  · rintro ⟨held, member, found⟩
    obtain ⟨s, place⟩ := List.mem_iff_getElem?.1 member
    simp only [Option.bind_eq_bind, Option.bind_eq_some_iff, Option.some.injEq, Prod.mk.injEq,
      Connection.load, Option.ite_none_right_eq_some] at found
    obtain ⟨g', rfl, c, there, n', ⟨live, rfl⟩, rfl, rfl⟩ := found
    exact ⟨c, ⟨⟨s, place⟩, there, live⟩, rfl⟩
  · rintro ⟨c, ⟨⟨s, held⟩, there, live⟩, rfl⟩
    refine ⟨some g, List.mem_of_getElem? held, ?_⟩
    simp [there, Connection.load, live]

/-- The tied connections are those that are least busy. -/
theorem mem_tied : g ∈ p.tied ↔ p.LeastBusy g := by
  have least_iff : ∀ least, (p.loads.map Prod.snd).min? = some least ↔
      (∃ g, (g, least) ∈ p.loads) ∧ ∀ g n, (g, n) ∈ p.loads → least ≤ n := by
    intro least
    rw [List.min?_eq_some_iff]
    simp only [List.mem_map, Prod.exists, exists_eq_right, forall_exists_index]
    exact and_congr_right fun _ => forall_comm
  unfold tied
  cases found : (p.loads.map Prod.snd).min? with
  | none =>
    have nothing : p.loads = [] := by simpa using found
    refine iff_of_false List.not_mem_nil ?_
    rintro ⟨c, available, _⟩
    have member : (g, c.pending) ∈ p.loads := mem_loads.2 ⟨c, available, rfl⟩
    rw [nothing] at member
    cases member
  | some least =>
    obtain ⟨⟨g₀, reached⟩, bound⟩ := (least_iff least).1 found
    obtain ⟨c₀, available₀, rfl⟩ := mem_loads.1 reached
    rw [List.mem_map]
    simp only [List.mem_filter, decide_eq_true_eq, Prod.exists, exists_and_right, exists_eq_right]
    constructor
    · intro member
      obtain ⟨c, available, same⟩ := mem_loads.1 member
      refine ⟨c, available, fun g' c' available' => ?_⟩
      rw [same]
      exact bound g' c'.pending (mem_loads.2 ⟨c', available', rfl⟩)
    · rintro ⟨c, available, fewest⟩
      have member : (g, c.pending) ∈ p.loads := mem_loads.2 ⟨c, available, rfl⟩
      rw [Nat.le_antisymm (bound g c.pending member) (fewest g₀ c₀ available₀)]
      exact member

/-- Nobody is tied exactly if no slot is live: among some that can be chosen one is least busy. -/
theorem tied_eq_nil_iff : p.tied = [] ↔ ∀ s, p.isLive s = false := by
  constructor
  · intro none s
    rw [← Bool.not_eq_true, isLive_iff]
    rintro ⟨g, c, held, there, live⟩
    have member : (g, c.pending) ∈ p.loads := mem_loads.2 ⟨c, ⟨⟨s, held⟩, there, live⟩, rfl⟩
    obtain ⟨least, found⟩ := Option.isSome_iff_exists.1
      (List.isSome_min?_of_mem (List.mem_map_of_mem member (f := Prod.snd)))
    obtain ⟨⟨g', n⟩, member', rfl⟩ := List.mem_map.1 (List.min?_mem found)
    have chosen : g' ∈ p.tied := by
      unfold tied
      rw [found]
      exact List.mem_map.2 ⟨_, List.mem_filter.2 ⟨member', decide_eq_true rfl⟩, rfl⟩
    rw [none] at chosen
    cases chosen
  · intro dead
    rw [List.eq_nil_iff_forall_not_mem]
    intro g member
    obtain ⟨c, ⟨⟨s, held⟩, there, live⟩, _⟩ := mem_tied.1 member
    have lives := isLive_iff.2 ⟨g, c, held, there, live⟩
    rw [dead s] at lives
    cases lives

/-- Which connections are tied depends on the loads alone. -/
theorem tied_congr (same : p'.loads = p.loads) : p'.tied = p.tied := by
  unfold tied
  rw [same]

/-- What is made of the held connections keeps their order. -/
theorem map_fst_filterMap_sublist {f : Nat → Option (Nat × Nat)}
    (own : ∀ g r, f g = some r → r.1 = g) (held : List (Option Nat)) :
    ((held.filterMap fun s => s.bind f).map Prod.fst).Sublist (held.filterMap id) := by
  induction held with
  | nil => exact .slnil
  | cons first rest ih =>
    cases first with
    | none => exact ih
    | some g =>
      rw [List.filterMap_cons, List.filterMap_cons, Option.bind_some]
      cases found : f g with
      | none => exact ih.cons g
      | some r =>
        rw [List.map_cons, own g r found]
        exact ih.cons_cons g

/-- The connections that are tied stand in the order of their slots. -/
theorem tied_sublist (p : Pool) : p.tied.Sublist (p.slots.filterMap id) := by
  have generations : (p.loads.map Prod.fst).Sublist (p.slots.filterMap id) := by
    refine map_fst_filterMap_sublist (fun g r found => ?_) p.slots
    simp only [Option.bind_eq_bind, Option.bind_eq_some_iff, Option.some.injEq] at found
    obtain ⟨_, _, _, _, rfl⟩ := found
    rfl
  unfold tied
  split
  · exact List.nil_sublist _
  · exact (List.filter_sublist.map Prod.fst).trans generations

end Loads

section Choice

variable {p q : Pool} {g : Nat}

/-- Where connections are tied the cursor chooses one of them. -/
theorem choose?_of_tied (some_tied : p.tied ≠ []) :
    ∃ g ∈ p.tied, p.tied[p.cursor.toNat % p.tied.length]? = some g ∧
      p.choose? = some (g, { p with cursor := p.cursor + 1 }) := by
  have inside : p.cursor.toNat % p.tied.length < p.tied.length :=
    Nat.mod_lt _ (List.length_pos_iff.2 some_tied)
  have there := List.getElem?_eq_getElem inside
  refine ⟨_, List.getElem_mem inside, there, ?_⟩
  unfold choose?
  rw [there]
  rfl

/-- Nothing is chosen exactly if no slot is live. -/
theorem choose?_eq_none_iff : p.choose? = none ↔ ∀ s, p.isLive s = false := by
  rw [← tied_eq_nil_iff]
  constructor
  · intro none
    rcases Decidable.em (p.tied = []) with nobody | some_tied
    · exact nobody
    · obtain ⟨_, _, _, chosen⟩ := choose?_of_tied some_tied
      rw [none] at chosen
      cases chosen
  · intro nobody
    unfold choose?
    rw [nobody]
    rfl

/-- What is chosen is least busy, stands where the cursor points, and moves that on. -/
theorem of_choose? (chosen : p.choose? = some (g, q)) :
    p.LeastBusy g ∧ p.tied[p.cursor.toNat % p.tied.length]? = some g ∧
      q = { p with cursor := p.cursor + 1 } := by
  have some_tied : p.tied ≠ [] := by
    intro nobody
    rw [choose?_eq_none_iff.2 (tied_eq_nil_iff.1 nobody)] at chosen
    cases chosen
  obtain ⟨g', member, there, chosen'⟩ := choose?_of_tied some_tied
  obtain ⟨rfl, rfl⟩ := Prod.mk.inj (Option.some.inj (chosen.symm.trans chosen'))
  exact ⟨mem_tied.1 member, there, rfl⟩

end Choice

end CallPool.Pool
