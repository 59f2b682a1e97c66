import CallPool.Proofs.Pool.Bookkeeping

/-!
# Installing a connection

A connection that was opened meets one of three fates: it is refused, its slot is served by another
one already, or it is placed into its slot. In the latter two cases the slot is released from the
reconnector whose token was presented. `Installation` lists them, and `Installation.of_install`
says that there is no other.
-/

set_option autoImplicit false

namespace CallPool.Pool

/-- What becomes of a connection that was opened for a slot. -/
inductive Installation (p : Pool) (slot g : Nat) (token : Option Token) :
    Pool → Except Error Unit → List Event → Prop
  | refused {error : Error}
      (why : p.closed = true ∨ (p.connections[g]?.any fun c => c.connected) = false ∨
        p.slots.length ≤ slot) :
      Installation p slot g token (p.modifyConnection g Connection.discard) (.error error)
        [.discarded slot g]
  /-- The slot holds a live connection already. -/
  | served (isOpen : p.closed = false) (sound : (p.connections[g]?.any fun c => c.connected) = true)
      (live : p.isLive slot = true) :
      Installation p slot g token ((p.modifyConnection g Connection.discard).release slot token) (.ok ())
        [.discarded slot g]
  /-- The connection that the slot held, if any, is closed. -/
  | placed {u : Pool} (isOpen : p.closed = false)
      (sound : (p.connections[g]?.any fun c => c.connected) = true) (inside : slot < p.slots.length)
      (vacant : p.isLive slot = false)
      (vacates : u = p ∨ ∃ old, p.slots[slot]? = some (some old) ∧
        u = p.modifyConnection old Connection.sever) :
      Installation p slot g token { p with
        connections := u.connections
        slots := p.slots.set slot (some g)
        reconnecting := (p.release slot token).reconnecting } (.ok ()) [.installed slot g]

/-- Releasing a slot takes away the entry with the token, and no other. -/
theorem mem_reconnecting_release {p : Pool} {slot : Nat} {token : Option Token} {e : Nat × Token} :
    e ∈ (p.release slot token).reconnecting ↔
      e ∈ p.reconnecting ∧ ∀ t, token = some t → e ≠ (slot, t) := by
  cases token with
  | none => simp [release]
  | some t => simp [release]

/-- Releasing a slot changes nothing but the entries. -/
theorem release_rest (p : Pool) (slot : Nat) (token : Option Token) : p.release slot token =
    { p with reconnecting := (p.release slot token).reconnecting } := by
  cases token <;> rfl

/-- A slot gets its connection, and the one that it held is closed. -/
theorem Installation.of_place {p : Pool} {slot g : Nat} {token : Option Token}
    (isOpen : p.closed = false) (sound : (p.connections[g]?.any fun c => c.connected) = true)
    (inside : slot < p.slots.length) (vacant : p.isLive slot = false) :
    Installation p slot g token
      (match (p.slots[slot]?).join with
        | some old => ({ p with slots := p.slots.set slot (some g) }.release slot token).modifyConnection old
          Connection.sever
        | none => { p with slots := p.slots.set slot (some g) }.release slot token)
      (.ok ()) [.installed slot g] := by
  have released : (Pool.release { p with slots := p.slots.set slot (some g) } slot token).reconnecting =
      (p.release slot token).reconnecting := by
    cases token <;> rfl
  cases held : (p.slots[slot]?).join with
  | none =>
    dsimp only
    rw [release_rest, released]
    exact .placed (u := p) isOpen sound inside vacant (.inl rfl)
  | some old =>
    dsimp only
    have severed : (Pool.release { p with slots := p.slots.set slot (some g) } slot
        token).modifyConnection old Connection.sever = { p with
          connections := (p.modifyConnection old Connection.sever).connections
          slots := p.slots.set slot (some g)
          reconnecting := (p.release slot token).reconnecting } := by
      rw [release_rest, released]
      unfold modifyConnection
      dsimp only
      split <;> rfl
    rw [severed]
    exact .placed isOpen sound inside vacant (.inr ⟨old, Option.join_eq_some_iff.1 held, rfl⟩)

/-- A connection that is opened is refused, or finds its slot served, or is placed. -/
theorem Installation.of_install (p : Pool) (slot g : Nat) (token : Option Token) :
    Installation p slot g token (p.install slot g token).1 (p.install slot g token).2.1
      (p.install slot g token).2.2 := by
  unfold Pool.install
  dsimp only
  split
  · rename_i shut
    exact .refused (.inl shut)
  · rename_i isOpen
    have isOpen : p.closed = false := by simpa using isOpen
    split
    · rename_i unsound
      exact .refused (.inr (.inl (by simpa using unsound)))
    · rename_i sound
      have sound : (p.connections[g]?.any fun c => c.connected) = true := by simpa using sound
      split
      · rename_i outside
        exact .refused (.inr (.inr outside))
      · rename_i inside
        split
        · rename_i live
          exact .served isOpen sound live
        · rename_i vacant
          exact .of_place isOpen sound (Nat.lt_of_not_le inside) (by simpa using vacant)

namespace Installation

variable {p q : Pool} {slot g : Nat} {token : Option Token} {result : Except Error Unit}
  {es : List Event}

/-- An installation changes connections, slots and entries only. -/
theorem rest (h : Installation p slot g token q result es) : q = { p with
    connections := q.connections
    slots := q.slots
    reconnecting := q.reconnecting } := by
  cases h with
  | refused => rw [modifyConnection_rest]
  | served _ _ _ => rw [release_rest, modifyConnection_rest]
  | placed => rfl

/-- All that is told of a connection that was opened is whether it is installed or discarded. -/
theorem told (h : Installation p slot g token q result es) {e : Event} (member : e ∈ es) :
    e = .installed slot g ∨ e = .discarded slot g := by
  cases h with
  | refused => exact .inr (List.mem_singleton.1 member)
  | served _ _ _ => exact .inr (List.mem_singleton.1 member)
  | placed => exact .inl (List.mem_singleton.1 member)

/-- An installation adds no entry. -/
theorem mem_reconnecting (h : Installation p slot g token q result es) {e : Nat × Token}
    (member : e ∈ q.reconnecting) : e ∈ p.reconnecting := by
  cases h with
  | refused =>
    rw [modifyConnection_rest] at member
    exact member
  | served _ _ _ =>
    have there := (mem_reconnecting_release.1 member).1
    rw [modifyConnection_rest] at there
    exact there
  | placed => exact (mem_reconnecting_release.1 member).1

/-- A token that nobody holds the slot under releases nothing. -/
theorem reconnecting_of_unlisted (h : Installation p slot g token q result es)
    (unlisted : ∀ t, token = some t → (slot, t) ∉ p.reconnecting) :
    q.reconnecting = p.reconnecting := by
  have harmless : ∀ x : Pool, x.reconnecting = p.reconnecting →
      (x.release slot token).reconnecting = p.reconnecting := by
    intro x same
    cases token with
    | none => exact same
    | some t =>
      change x.reconnecting.filter _ = _
      rw [same]
      refine List.filter_eq_self.2 fun e member => decide_eq_true fun equal => ?_
      rw [equal] at member
      exact unlisted t rfl member
  have without : (p.modifyConnection g Connection.discard).reconnecting = p.reconnecting := by
    rw [modifyConnection_rest]
  cases h with
  | refused => exact without
  | served _ _ _ => exact harmless _ without
  | placed => exact harmless p rfl

/-- A dial that succeeds releases what its token holds. -/
theorem reconnecting_of_ok {t : Token} (h : Installation p slot g (some t) q (.ok ()) es) :
    q.reconnecting = p.reconnecting.filter fun e => e ≠ (slot, t) := by
  cases h with
  | served _ _ _ =>
    change (p.modifyConnection g Connection.discard).reconnecting.filter _ = _
    rw [modifyConnection_rest]
  | placed => rfl

/-- A dial that succeeds has released its slot from its reconnector. -/
theorem released {t : Token} (h : Installation p slot g (some t) q (.ok ()) es) :
    (slot, t) ∉ q.reconnecting := by
  rw [h.reconnecting_of_ok]
  simp

/-- A slot that loses its reconnector is live, or gets the connection. -/
theorem kept (h : Installation p slot g token q result es) {e : Nat × Token}
    (member : e ∈ p.reconnecting) :
    e ∈ q.reconnecting ∨ e.1 = slot ∧ (p.isLive slot = true ∨ q.slots = p.slots.set slot (some g)) := by
  have still : ∀ x : Pool, e ∈ x.reconnecting → e ∈ (x.release slot token).reconnecting ∨ e.1 = slot := by
    intro x there
    by_cases same : e.1 = slot
    · exact .inr same
    · refine .inl (mem_reconnecting_release.2 ⟨there, ?_⟩)
      intro t _ equal
      exact same (congrArg Prod.fst equal)
  cases h with
  | refused =>
    rw [modifyConnection_rest]
    exact .inl member
  | served _ _ live =>
    have there : e ∈ (p.modifyConnection g Connection.discard).reconnecting := by
      rw [modifyConnection_rest]
      exact member
    rcases still _ there with kept | same
    · exact .inl kept
    · exact .inr ⟨same, .inl live⟩
  | placed =>
    rcases still p member with kept | same
    · exact .inl kept
    · exact .inr ⟨same, .inr rfl⟩

/-- An installation changes no slot but its own. -/
theorem slots (h : Installation p slot g token q result es) :
    q.slots = p.slots ∨ q.slots = p.slots.set slot (some g) := by
  cases h with
  | refused =>
    rw [modifyConnection_rest]
    exact .inl rfl
  | served _ _ _ =>
    left
    rw [release_rest, modifyConnection_rest]
  | placed => exact .inr rfl

end Installation

/-- A connection that is installed, or discarded, changes the connections, the slots, and which
slots have a reconnector. -/
theorem install_rest (p : Pool) (slot generation : Nat) (token : Option Token) :
    (p.install slot generation token).1 = { p with
      connections := (p.install slot generation token).1.connections
      slots := (p.install slot generation token).1.slots
      reconnecting := (p.install slot generation token).1.reconnecting } :=
  (Installation.of_install p slot generation token).rest

/-- A connection that is opened is told to be installed or discarded. -/
theorem mem_install {p : Pool} {slot generation : Nat} {token : Option Token} {e : Event}
    (h : e ∈ (p.install slot generation token).2.2) :
    e = .installed slot generation ∨ e = .discarded slot generation :=
  (Installation.of_install p slot generation token).told h

end CallPool.Pool
