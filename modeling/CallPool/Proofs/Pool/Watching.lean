import CallPool.Proofs.Pool.LedgerRun

/-!
# Who watches over a slot

While a pool is open its supervisor runs, and a slot holds a connection that was opened for it
(`Seated`). A slot is attended when the notice of its connection is queued for the supervisor, or
when it has a reconnector. Each move of an open pool leaves a slot attended whose connection is dead
and stays in it, unless the reconnector of the slot gives up (`Attended.of_move`); and a loss is
heard of at once (`heard_of_move`).
-/

set_option autoImplicit false

namespace CallPool.Pool

variable {p p' : Pool} {now : Nat} {past es : List Event}

/-! ## The books of the supervisor -/

/-- No slot loses its reconnector when one is started. -/
theorem mem_reconnecting_recover {slot : Nat} {e : Nat × Token} (member : e ∈ p.reconnecting) :
    e ∈ (p.recover now slot).1.reconnecting := by
  cases recovered : p.recover now slot with
  | mk q es =>
    cases Recovers.of_recover recovered with
    | shut _ => exact member
    | held _ _ => exact member
    | starts _ _ => exact List.mem_append_left _ member

/-- A slot of an open pool that is recovered has a reconnector. -/
theorem exists_reconnecting_recover (isOpen : p.closed = false) (slot : Nat) :
    ∃ t, (slot, t) ∈ (p.recover now slot).1.reconnecting := by
  cases recovered : p.recover now slot with
  | mk q es =>
    cases Recovers.of_recover recovered with
    | shut closed => cases isOpen.symm.trans closed
    | @held t _ token =>
      obtain ⟨e, first, rfl⟩ := Option.map_eq_some_iff.1 token
      have mine : e.1 = slot := by simpa using List.find?_some first
      refine ⟨e.2, ?_⟩
      rw [← mine]
      exact List.mem_of_find?_eq_some first
    | starts _ _ => exact ⟨_, List.mem_append_right _ (List.mem_singleton_self _)⟩

/-- A reconnector that the pool started for a slot gives up. -/
def GivesUp (s : Nat) (es : List Event) : Prop :=
  ∃ r, Event.gaveUp r ∈ es ∧ r.owned = true ∧ r.slot = s

/-- Who has given up has done so with more behind it. -/
theorem GivesUp.append_left {s : Nat} (h : GivesUp s es) (es' : List Event) : GivesUp s (es ++ es') := by
  obtain ⟨r, told, mine⟩ := h
  exact ⟨r, List.mem_append_left _ told, mine⟩

/-- Who gives up does so with more in front of it. -/
theorem GivesUp.append_right {s : Nat} (h : GivesUp s es) (es' : List Event) : GivesUp s (es' ++ es) := by
  obtain ⟨r, told, mine⟩ := h
  exact ⟨r, List.mem_append_right _ told, mine⟩

/-- A pool whose dials and reconnectors change is watched over as before. -/
theorem Work.watch (work : Work now p es p') : Watch p es p' := by
  rcases work.aside_or_books with other | books
  · exact other.watch
  · exact .of_books books

/-- Work leaves a pool watched over as before. -/
theorem Works.watch (works : Works now p es p') : Watch p es p' := by
  induction works with
  | nil p => exact .of_same rfl rfl rfl rfl (by simp)
  | cons work _ ih => exact work.watch.trans ih

/-- A caller that is dropped leaves a pool watched over as before. -/
theorem Watch.cancel (p : Pool) (now : Nat) (t : Ticket) :
    Watch p (p.cancel now t).2 (p.cancel now t).1 := by
  have watch := (Aside.cancel p now t).watch
  exact ⟨watch.slots, watch.supervised, watch.closed, watch.kept, watch.heard, watch.queued⟩

/-- In an open pool a slot keeps its reconnector until that one fills the slot or gives up. -/
theorem Work.kept (work : Work now p es p') (h : Ledger past p) (isOpen : p.closed = false)
    {e : Nat × Token} (member : e ∈ p.reconnecting) : e ∈ p'.reconnecting ∨ GivesUp e.1 es := by
  cases work with
  | aside other =>
    rw [other.reconnecting]
    exact .inl member
  | dials _ => exact .inl member
  | ends _ _ => exact .inl member
  | starts _ _ => exact .inl (mem_reconnecting_recover member)
  | joins => exact .inl member
  | redials _ _ _ _ => exact .inl member
  | fails _ _ _ => exact .inl member
  | fills _ _ _ _ => exact .inl (mem_reconnecting_endReconnector.2 ⟨member, nofun⟩)
  | @givesUp r _ _ =>
    by_cases mine : r.owned = true ∧ e = (r.slot, r.token)
    · right
      obtain ⟨owned, rfl⟩ := mine
      exact ⟨r, List.mem_cons_self, owned, rfl⟩
    · left
      apply mem_reconnecting_endReconnector.2
      exact ⟨member, fun _ owned same => mine ⟨owned, same⟩⟩
  | @stops r _ r_member _ why =>
    -- A reconnector of an open pool does not stop, for neither is it orphaned nor is the pool closed.
    left
    apply mem_reconnecting_endReconnector.2
    refine ⟨member, fun _ owned _ => ?_⟩
    rcases why with orphaned | closed
    · rw [(h.owned r r_member owned).1] at orphaned
      cases orphaned
    · rw [isOpen] at closed
      cases closed

/-- In an open pool an entry is kept by a work, or its reconnector gives up. -/
theorem Works.kept (works : Works now p es p') (h : Ledger past p) (isOpen : p.closed = false)
    {e : Nat × Token} (member : e ∈ p.reconnecting) : e ∈ p'.reconnecting ∨ GivesUp e.1 es := by
  -- The accounts are carried along, for they say that no reconnector in the chain is orphaned.
  induction works generalizing past with
  | nil p => exact .inl member
  | @cons p q p' es es' work _ ih =>
    rcases work.kept h isOpen member with there | gaveUp
    · have still_open : q.closed = false := by
        rw [work.watch.closed]
        exact isOpen
      rcases ih (h.of_work work) still_open there with kept | gaveUp
      · exact .inl kept
      · exact .inr (gaveUp.append_right es)
    · exact .inr (gaveUp.append_left es')

/-! ## The connections in the slots -/

namespace Follows

variable {may : Nat → Connection.Action → Prop} {began g : Nat}

/-- A connection keeps its place, whatever becomes of it. -/
theorem placed (follows : Follows may p began es now p') {c : Connection}
    (found : p.connections[g]? = some c) :
    ∃ c', p'.connections[g]? = some c' ∧ c'.notice = c.notice := by
  have course := follows.course g
  rw [found] at course
  generalize p'.connections[g]? = x at course
  generalize toldOf g es = told at course
  cases course with
  | goesOn run _ => exact ⟨_, rfl, Connection.place_of_run run⟩

/-- A dead connection stays dead, whatever becomes of it. -/
theorem dead (follows : Follows may p began es now p') {c : Connection}
    (found : p.connections[g]? = some c) (dead : c.connected = false) :
    ∃ c', p'.connections[g]? = some c' ∧ c'.connected = false := by
  have course := follows.course g
  rw [found] at course
  generalize p'.connections[g]? = x at course
  generalize toldOf g es = told at course
  cases course with
  | goesOn run _ => exact ⟨_, rfl, (Connection.dead_of_run run dead).2⟩

/-- A connection that is lost is dead, and its notice says which one it is. -/
theorem lost (follows : Follows may p began es now p') {n : Notice}
    (told : Event.connection g (.lost n) ∈ es) :
    ∃ c, p'.connections[g]? = some c ∧ c.connected = false ∧ c.notice = n := by
  have course := follows.course g
  have seen := mem_toldOf.2 told
  generalize p.connections[g]? = y at course
  generalize p'.connections[g]? = x at course ⊢
  generalize toldOf g es = events at course seen
  cases course with
  | absent => cases seen
  | opens run _ =>
    obtain ⟨same, dead⟩ := Connection.dead_of_lost_in_run run seen
    exact ⟨_, rfl, dead, same.symm⟩
  | goesOn run _ =>
    obtain ⟨same, dead⟩ := Connection.dead_of_lost_in_run run seen
    exact ⟨_, rfl, dead, same.symm⟩

end Follows

/-- The supervisor runs exactly while the pool is open, and a slot holds a connection that was opened
for it. -/
structure Seated (p : Pool) : Prop where
  supervised : p.supervised = !p.closed
  seated : ∀ s g : Nat, p.slots[s]? = some (some g) → ∃ c, p.connections[g]? = some c ∧ c.notice = ⟨s, g⟩

/-- A pool that is closed has neither a supervisor nor a connection in a slot. -/
theorem closed_close (p : Pool) (now : Nat) :
    (p.close now).1.closed = true ∧ (p.close now).1.supervised = false ∧
      (p.close now).1.slots = p.slots.map fun _ => none := by
  rw [close_rest]
  exact ⟨rfl, rfl, rfl⟩

/-- A closed pool stays closed. -/
theorem closed_of_move (move : Move now p es p') (closed : p.closed = true) : p'.closed = true := by
  cases move with
  | works works => rw [works.watch.closed, closed]
  | closes => exact (closed_close p now).1
  | drops _ => rw [(Watch.cancel p now _).closed, closed]
  | supervises _ _ handled =>
    rw [(Works.of_handled handled).watch.closed]
    exact closed
  | installs _ opens _ installation concludes _ =>
    rw [concludes.watch.closed, installation.rest]
    dsimp only
    rw [opens.watch.closed, closed]

/-- A notice that is queued after a move was queued before, or is that of a loss which is told. -/
theorem queued_of_move (move : Move now p es p') {n : Notice} (member : n ∈ p'.notices) :
    n ∈ p.notices ∨ ∃ g, Event.connection g (.lost n) ∈ es := by
  cases move with
  | works works => exact works.watch.queued n member
  | closes =>
    rw [close_rest] at member
    cases member
  | drops _ => exact (Watch.cancel p now _).queued n member
  | supervises _ notices handled =>
    rcases (Works.of_handled handled).watch.queued n member with there | told
    · left
      rw [notices]
      exact List.mem_cons_of_mem _ there
    · exact .inr told
  | installs _ opens _ installation concludes _ =>
    rcases concludes.watch.queued n member with there | ⟨g, told⟩
    · rw [installation.rest] at there
      rcases opens.watch.queued n there with older | ⟨g, told⟩
      · exact .inl older
      · exact .inr ⟨g, List.mem_append_left _ (List.mem_append_left _ told)⟩
    · exact .inr ⟨g, List.mem_append_right _ told⟩

/-- What a slot holds after a move it held before, or it is the connection that was opened for it. -/
theorem slot_of_move (move : Move now p es p') {s g : Nat} (held : p'.slots[s]? = some (some g)) :
    p.slots[s]? = some (some g) ∨ g = p.connections.length ∧
      ∃ c, p'.connections[g]? = some c ∧ c.notice = ⟨s, g⟩ := by
  cases move with
  | works works =>
    rw [works.watch.slots] at held
    exact .inl held
  | closes =>
    rw [(closed_close p now).2.2, List.getElem?_map] at held
    cases inside : p.slots[s]? with
    | none => simp [inside] at held
    | some _ => simp [inside] at held
  | drops _ =>
    rw [(Watch.cancel p now _).slots] at held
    exact .inl held
  | supervises _ _ handled =>
    rw [(Works.of_handled handled).watch.slots] at held
    exact .inl held
  | @installs d _ _ _ q _ _ _ _ born opens _ installation concludes after =>
    rw [concludes.watch.slots] at held
    rcases installation.slots with same | placed
    · rw [same, opens.watch.slots] at held
      exact .inl held
    · rw [placed, opens.watch.slots] at held
      by_cases mine : s = d.slot
      · subst mine
        have inside : d.slot < p.slots.length := by
          by_contra outside
          rw [List.getElem?_eq_none (by simpa using outside)] at held
          cases held
        rw [List.getElem?_set_self inside] at held
        obtain rfl := Option.some.inj (Option.some.inj held)
        obtain ⟨c, found, notice⟩ := born
        obtain ⟨c', found', same⟩ := after.placed found
        exact .inr ⟨rfl, c', found', same.trans notice⟩
      · rw [List.getElem?_set_ne (Ne.symm mine)] at held
        exact .inl held

namespace Seated

/-- Every move leaves the slots with connections of their own, and the supervisor as it should be. -/
theorem of_move {may : Nat → Connection.Action → Prop} (h : Seated p) (move : Move now p es p')
    (follows : Follows may p now es now p') : Seated p' where
  supervised := by
    have watched : Watch p es p' → p'.supervised = !p'.closed := by
      intro watch
      rw [watch.supervised, watch.closed]
      exact h.supervised
    cases move with
    | works works => exact watched works.watch
    | closes =>
      obtain ⟨closed, supervised, _⟩ := closed_close p now
      rw [closed, supervised]
      rfl
    | drops _ => exact watched (.cancel p now _)
    | supervises _ _ handled =>
      have watch := (Works.of_handled handled).watch
      rw [watch.supervised, watch.closed]
      exact h.supervised
    | installs _ opens _ installation concludes _ =>
      rw [concludes.watch.supervised, concludes.watch.closed, installation.rest]
      dsimp only
      rw [opens.watch.supervised, opens.watch.closed]
      exact h.supervised
  seated := by
    intro s g held
    rcases slot_of_move move held with older | ⟨_, new⟩
    · obtain ⟨c, found, notice⟩ := h.seated s g older
      obtain ⟨c', found', same⟩ := follows.placed found
      exact ⟨c', found', same.trans notice⟩
    · exact new

/-- In every run the slots hold connections of their own, and the supervisor is as it should be. -/
theorem of_run {options : Options} {start : Pool} {began : Nat} {moments : List Moment}
    (made : Pool.new options = .ok start) (run : Run start began moments now p) : Seated p := by
  induction run with
  | start =>
    have fresh := Fresh.of_new made
    refine ⟨by rw [fresh.supervised, fresh.closed]; rfl, ?_⟩
    intro s g held
    rw [fresh.slots, List.getElem?_replicate] at held
    split at held
    · cases held
    · cases held
  | act past taken ih => exact ih.of_move (.of_step (.of_run made past) taken) (.of_step taken)
  | rest _ _ _ ih => exact ih

end Seated

end CallPool.Pool
