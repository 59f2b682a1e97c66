import CallPool.Proofs.Pool.Ledger

/-!
# The moves of a pool

An action of a pool is one of five moves: it works on dials and reconnectors, closes the pool, drops
a caller, lets the supervisor take a notice, or installs a connection that a dial has opened. Each
of them is made of parts that are known already. `Move.of_step` says that there is no other move, so
that what is true of every action has to be shown of these five.
-/

set_option autoImplicit false

namespace CallPool.Pool

/-- What an action does to a pool, and what is told of it. -/
inductive Move (now : Nat) (p : Pool) : List Event → Pool → Prop
  | works {es : List Event} {p' : Pool} (h : Works now p es p') : Move now p es p'
  | closes : Move now p (p.close now).2 (p.close now).1
  | drops {t : Ticket} (unowned : p.owns t = false) : Move now p (p.cancel now t).2 (p.cancel now t).1
  /-- The supervisor takes the oldest notice. -/
  | supervises {n : Notice} {rest : List Notice} {es : List Event} {p' : Pool}
      (supervised : p.supervised = true) (notices : p.notices = n :: rest)
      (handled : { p with notices := rest }.handleLoss now n = (p', es)) : Move now p es p'
  /-- A connection is opened and installed, and the owner of the dial is told. -/
  | installs {d : Dial} {noticed placed told : List Event} {q r p' : Pool} {token : Option Token}
      {result : Except Error Unit}
      (born : ∃ c, q.connections[p.connections.length]? = some c ∧
        c.notice = ⟨d.slot, p.connections.length⟩)
      (opens : Aside p noticed q) (before : Follows (fun _ _ => True) p now noticed now q)
      (installation : Installation q d.slot p.connections.length token r result placed)
      (concludes : Works now r told p')
      (after : Follows (fun _ _ => True) q now (placed ++ told) now p') :
      Move now p (noticed ++ placed ++ told) p'

namespace Move

variable {p p' : Pool} {now : Nat} {past es : List Event}

/-- A connection that is opened would notify of its slot and its number. -/
theorem notice_born (p : Pool) (now : Nat) (d : Dial) (lost : Bool) :
    (p.born now d lost).1.notice = ⟨d.slot, p.connections.length⟩ := by
  cases lost with
  | false => rfl
  | true =>
    have taken : (Connection.opened d.slot p.connections.length p.options now).step now .abortReader =
        some (p.born now d true) := rfl
    exact Connection.place_of_effect (.of_step taken)

/-- A dial that succeeds is a move: it presents the token of its reconnector, so that the slot is
released when the reconnector ends. -/
theorem of_opening {d : Dial} {lost : Bool} {q : Pool} (h : Ledger past p) (d_member : d ∈ p.dials)
    (opening : Opening p now d lost q es p') : Move now p es p' := by
  have concludes := Bookkeeping.of_deeds (opening.concludes d_member)
  obtain ⟨⟨noticed, absorbs, rfl⟩, rfl⟩ := opening
  have opens := Aside.opens absorbs
  have born : ∃ c, q.connections[p.connections.length]? = some c ∧
      c.notice = ⟨d.slot, p.connections.length⟩ := by
    refine ⟨(p.born now d lost).1, ?_, notice_born p now d lost⟩
    rw [absorbs.connections]
    simp
  have announced : Follows (fun _ _ => True) p now [.opened d.slot p.connections.length] now p :=
    .of_same rfl rfl (by simp)
  have before := announced.trans (.opens (fun _ _ _ => trivial) absorbs)
  have installation := Installation.of_install q d.slot p.connections.length (q.tokenOfDial? d)
  have installs : Follows (fun _ _ => True) q now
      (q.install d.slot p.connections.length (q.tokenOfDial? d)).2.2 now
      (q.install d.slot p.connections.length (q.tokenOfDial? d)).1 :=
    .install (fun _ _ _ => trivial) q _ _ _
  generalize q.install d.slot p.connections.length (q.tokenOfDial? d) = x at installation installs concludes ⊢
  obtain ⟨r, result, placed⟩ := x
  dsimp only at installation installs concludes ⊢
  have rest := installation.rest
  have same_dials : r.dials = p.dials := by
    rw [rest]
    exact opens.dials
  have same_reconnectors : r.reconnectors = p.reconnectors := by
    rw [rest]
    exact opens.reconnectors
  -- The token that is presented is that of the reconnector that dialed, and it dialed for its own slot.
  have released : result = .ok () → ∀ x ∈ r.reconnectors, d.owner = .reconnector x.ticket →
      x.owned = true → (x.slot, x.token) ∉ r.reconnecting := by
    rintro rfl x member owner _
    rw [same_reconnectors] at member
    have token : q.tokenOfDial? d = some x.token := by
      unfold tokenOfDial?
      rw [owner, opens.reconnectors]
      dsimp only
      rw [h.find?_ticket member]
      rfl
    rw [token] at installation
    rw [← h.slot_of_dial d_member member owner]
    exact installation.released
  have told : Works now r (r.conclude now d result).2 (r.conclude now d result).1 :=
    .conclude (by rw [same_dials]; exact d_member) result released
  exact .installs born opens before installation told (installs.trans (.of_books concludes))

/-- An action that a pool takes is a move, if the accounts are right. -/
theorem of_step {a : Action} (h : Ledger past p) (taken : p.step now a = some (p', es)) :
    Move now p es p' := by
  cases Change.of_step taken with
  | works works => exact .works works
  | closes => exact .closes
  | drops unowned => exact .drops unowned
  | hears supervised notices => exact .supervises supervised notices rfl
  | opens member opening => exact of_opening h member opening

end Move

end CallPool.Pool
