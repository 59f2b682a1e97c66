import CallPool.Proofs.Pool.DialsLeftAlone

/-!
# The work of dials and reconnectors

For the dials and the reconnectors of a pool the deeds come down to a few changes: a dial begins or
ends, and a reconnector starts, dials, sleeps again, has filled its slot, gives up, or stops because the
pool is closed. `Work` lists them, with one case for all that is something else, and `Works` is a chain of
them. Most actions are such chains, and `Change.of_step` says which others there are, so that a theorem
about dials and reconnectors has to look at each change once.
-/

set_option autoImplicit false

namespace CallPool.Pool

/-- A change of the dials and reconnectors of a pool, with what is told of it. -/
inductive Work (now : Nat) (p : Pool) : List Event → Pool → Prop
  /-- Something else changes. -/
  | aside {es : List Event} {p' : Pool} (h : Aside p es p') : Work now p es p'
  /-- A round or a caller dials. -/
  | dials {slot : Nat} {owner : Owner} (other : ∀ t, owner ≠ .reconnector t) :
      Work now p (p.dial now slot owner).2 (p.dial now slot owner).1
  /-- A dial ends for which no reconnector waits. -/
  | ends {d : Dial} {result : Except Error Unit} (member : d ∈ p.dials)
      (other : ∀ r ∈ p.reconnectors, d.owner ≠ .reconnector r.ticket) :
      Work now p [.dialEnded d result] (p.dropDial d.ticket)
  /-- The pool starts a reconnector for a slot that has none. -/
  | starts {slot : Nat} (isOpen : p.closed = false) (free : p.tokenOf? slot = none) :
      Work now p (p.recover now slot).2 (p.recover now slot).1
  /-- A caller starts a reconnector of its own. -/
  | joins {slot : Nat} {token : Token} {schedule : Backoff} {orphaned : Bool} :
      Work now p (p.addReconnector now slot token schedule false orphaned).2
        (p.addReconnector now slot token schedule false orphaned).1
  /-- A reconnector has slept enough and dials. -/
  | redials {r : Reconnector} {due : Nat} (member : r ∈ p.reconnectors) (asleep : r.phase = .sleeping due)
      (ready : due ≤ now) (isOpen : p.closed = false) :
      Work now p ((p.setReconnector r.ticket r.dialing).dial now r.slot (.reconnector r.ticket)).2
        ((p.setReconnector r.ticket r.dialing).dial now r.slot (.reconnector r.ticket)).1
  /-- The dial of a reconnector fails, and the reconnector sleeps again or is spent. -/
  | fails {d : Dial} {r : Reconnector} {error : Error} (d_member : d ∈ p.dials) (r_member : r ∈ p.reconnectors)
      (owner : d.owner = .reconnector r.ticket) :
      Work now p [.dialEnded d (.error error)]
        ((p.dropDial d.ticket).setReconnector r.ticket (r.failed now))
  /-- The dial of a reconnector succeeds, when its slot is free for another one already. -/
  | fills {d : Dial} {r : Reconnector} (d_member : d ∈ p.dials) (r_member : r ∈ p.reconnectors)
      (owner : d.owner = .reconnector r.ticket)
      (released : r.owned = true → (r.slot, r.token) ∉ p.reconnecting) :
      Work now p (.dialEnded d (.ok ()) :: ((p.dropDial d.ticket).endReconnector r true).2)
        ((p.dropDial d.ticket).endReconnector r true).1
  /-- A reconnector without an attempt left gives up. -/
  | givesUp {r : Reconnector} (member : r ∈ p.reconnectors) (spent : r.phase = .spent) :
      Work now p (p.giveUp r).2 (p.giveUp r).1
  /-- A reconnector stops because its pool is gone, or closed. -/
  | stops {r : Reconnector} {due : Nat} (member : r ∈ p.reconnectors) (asleep : r.phase = .sleeping due)
      (why : r.orphaned = true ∨ p.closed = true) :
      Work now p (p.endReconnector r false).2 (p.endReconnector r false).1

/-- A change of dials and reconnectors that is nothing else changes the books only. -/
theorem Work.aside_or_books {now : Nat} {p p' : Pool} {es : List Event} (work : Work now p es p') :
    Aside p es p' ∨ Bookkeeping p es p' := by
  cases work with
  | aside other => exact .inl other
  | dials _ => exact .inr (.dial ..)
  | ends _ _ => exact .inr ((Bookkeeping.books p _ _ _ _ _).cons rfl)
  | starts isOpen free => exact .inr (.of_deeds (.single (.starts isOpen free)))
  | joins => exact .inr (.addReconnector ..)
  | redials _ _ _ _ => exact .inr ((Bookkeeping.books p _ _ _ _ _).trans (.dial ..))
  | fails _ _ _ => exact .inr ((Bookkeeping.books p _ _ _ _ _).cons rfl)
  | @fills d r _ _ _ _ =>
    have dropped : Bookkeeping p [] (p.dropDial d.ticket) := .books p _ _ _ _ _
    exact .inr ((dropped.trans (.endReconnector _ r true)).cons rfl)
  | givesUp _ _ => exact .inr ((Bookkeeping.endReconnector ..).cons rfl)
  | stops _ _ _ => exact .inr (.endReconnector ..)

/-- Deeds in which a reconnector that has filled its slot has released it before, if it is one of the
pool. -/
def Scope.released : Scope :=
  ⟨fun _ => True, fun _ _ => True, fun p r => r.owned = true → (r.slot, r.token) ∉ p.reconnecting⟩

/-- A chain of changes of the dials and reconnectors of a pool. -/
inductive Works (now : Nat) : Pool → List Event → Pool → Prop
  | nil (p : Pool) : Works now p [] p
  | cons {p p' p'' : Pool} {es es' : List Event} (first : Work now p es p') (rest : Works now p' es' p'') :
      Works now p (es ++ es') p''

namespace Works

variable {now : Nat} {p p' p'' : Pool} {es es' : List Event}

/-- A change is a chain of one. -/
theorem single (work : Work now p es p') : Works now p es p' := by
  have chain := Works.cons work (.nil p')
  rw [List.append_nil] at chain
  exact chain

/-- A chain that is followed by another one is a chain. -/
theorem trans (first : Works now p es p') (second : Works now p' es' p'') :
    Works now p (es ++ es') p'' := by
  induction first with
  | nil => exact second
  | cons work _ ih =>
    rw [List.append_assoc]
    exact .cons work (ih second)

/-- Something else changes. -/
theorem aside (h : Aside p es p') : Works now p es p' := single (.aside h)

/-- What a deed does to dials and reconnectors. -/
theorem of_deed (deed : Deed .released now p es p') : Works now p es p' := by
  cases deed with
  | refuses _ => exact aside (.refuses p _)
  | joins _ _ => exact aside (.of_rest rfl (Nat.le_succ _) (by simp) (by simp))
  | dials _ _ => exact single (.dials (by simp))
  | settles _ _ => exact aside (.of_rest rfl (Nat.le_refl _) (by simp [Event.isAside]) (by simp))
  | skips => exact aside (.takeToken p)
  | starts isOpen free => exact single (.starts isOpen free)
  | answers ends owner => exact (single (.ends ends.member (by simp [owner]))).trans (aside (.finished _ _ _))
  | @enters d result t ends owner =>
    have entered : Works now (p.dropDial d.ticket) [] (p.enter t d result) := aside (.of_silent rfl)
    exact (single (.ends ends.member (by simp [owner]))).trans entered
  | abandons ends owner gone =>
    refine single (.ends ends.member fun r member mine => ?_)
    rw [owner] at mine
    exact gone r member (Owner.reconnector.inj mine).symm
  | fails ends member owner => exact single (.fails ends.member member owner)
  | fills ends member owner filled => exact single (.fills ends.member member owner filled)
  | givesUp member spent => exact single (.givesUp member spent)
  | stops member asleep why => exact single (.stops member asleep why)
  | redials member asleep ready isOpen => exact single (.redials member asleep ready isOpen)

/-- What a chain of deeds does to dials and reconnectors. -/
theorem of_deeds (deeds : Deeds .released now p es p') : Works now p es p' := by
  induction deeds with
  | nil p => exact .nil p
  | cons deed _ ih => exact (of_deed deed).trans ih

/-- The supervisor has heard of a loss. -/
theorem of_handled {n : Notice} (handled : p.handleLoss now n = (p', es)) : Works now p es p' := by
  have works : Works now p (p.handleLoss now n).2 (p.handleLoss now n).1 := of_deeds (.handleLoss p n)
  rw [handled] at works
  exact works

/-- The owner of a dial is told how it ended. -/
theorem conclude {d : Dial} (member : d ∈ p.dials) (result : Except Error Unit)
    (filled : result = .ok () → ∀ r ∈ p.reconnectors, d.owner = .reconnector r.ticket →
      r.owned = true → (r.slot, r.token) ∉ p.reconnecting) :
    Works now p (p.conclude now d result).2 (p.conclude now d result).1 :=
  of_deeds (.conclude ⟨member, trivial, fun _ _ _ _ _ => trivial⟩
    fun r r_member owner ok => filled ok r r_member owner)

end Works

/-- What an action does to the dials and reconnectors of a pool: it works on them, or it takes them or a
notice from their owner, or opens a connection. -/
inductive Change (now : Nat) (p : Pool) : Action → List Event → Pool → Prop
  | works {a : Action} {es : List Event} {p' : Pool} (works : Works now p es p') : Change now p a es p'
  | closes : Change now p .close (p.close now).2 (p.close now).1
  | drops {t : Ticket} (unowned : p.owns t = false) :
      Change now p (.cancel t) (p.cancel now t).2 (p.cancel now t).1
  /-- The supervisor takes the oldest notice. -/
  | hears {n : Notice} {rest : List Notice} (supervised : p.supervised = true)
      (notices : p.notices = n :: rest) :
      Change now p .supervise ({ p with notices := rest }.handleLoss now n).2
        ({ p with notices := rest }.handleLoss now n).1
  | opens {d : Dial} {lost : Bool} {q : Pool} {es : List Event} {p' : Pool} (member : d ∈ p.dials)
      (opening : Opening p now d lost q es p') : Change now p (.dialSucceeds d.ticket lost) es p'

/-- Every action is one of these changes. -/
theorem Change.of_step {now : Nat} {p p' : Pool} {a : Action} {es : List Event}
    (taken : p.step now a = some (p', es)) : Change now p a es p' := by
  cases Takes.of_step taken with
  | connects => exact .works (.of_deeds (.connect trivial))
  | dials => exact .works ((Works.aside (.takeTicket p)).trans (.single (.dials (by simp))))
  | joins => exact .works (.single .joins)
  | chooses => exact .works (.aside (.of_silent rfl))
  | refuses _ _ => exact .works (.aside (.refuses p _))
  | passes _ _ _ absorbs => exact .works (.aside (.passes absorbs))
  | closes => exact .closes
  | drops unowned => exact .drops unowned
  | acts _ went => exact .works (.aside (.stepConnection went))
  | hears supervised notices => exact .hears supervised notices
  | wakes member waking => exact .works (.of_deed (waking.deed member))
  | opens member _ opening => exact .opens member opening
  | fails member _ _ => exact .works (.conclude member _ nofun)
  | finishes _ stopped => exact .works (.aside (.finishes stopped))

end CallPool.Pool
