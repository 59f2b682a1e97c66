import CallPool.Proofs.Pool.Enrolling
import CallPool.Proofs.Pool.UntouchedSlots

/-!
# What an action takes away, and what it works on

An action of a pool has two parts. First it may take reconnectors and dials away, or change something
else (`Sheds`); then it works on dials and reconnectors (`Works`). So what is to be shown of the
reconnectors after every action has to be shown of the first part and of each single change of the
second one (`carry_of_step`). A dial that is told to have ended was under way, and the action ended it
(`Ending.of_told`).
-/

set_option autoImplicit false

namespace CallPool.Pool

variable {p p' q r : Pool} {now : Nat} {past es : List Event} {a : Action}

/-! ## The two parts -/

/-- The first part of an action: no reconnector and no dial is new, and none is told of. -/
structure Sheds (a : Action) (p : Pool) (es : List Event) (q : Pool) : Prop where
  options : q.options = p.options
  nextTicket_le : p.nextTicket ≤ q.nextTicket
  closed : p.closed = true → q.closed = true
  reconnectors : ∀ r ∈ q.reconnectors, r ∈ p.reconnectors
  dials : ∀ d ∈ q.dials, d ∈ p.dials
  /-- A reconnector stays unless the pool is closed, or its caller is dropped. -/
  kept : ∀ r ∈ p.reconnectors, r ∈ q.reconnectors ∨ q.closed = true ∨ a = .cancel r.ticket
  quiet : ∀ e ∈ es, e.isAside = true

namespace Sheds

/-- What changes neither reconnectors nor dials may be a first part. -/
theorem of_same (options : q.options = p.options) (nextTicket_le : p.nextTicket ≤ q.nextTicket)
    (closed : q.closed = p.closed) (reconnectors : q.reconnectors = p.reconnectors)
    (dials : q.dials = p.dials) (quiet : ∀ e ∈ es, e.isAside = true) : Sheds a p es q where
  options := options
  nextTicket_le := nextTicket_le
  closed := by rw [closed]; exact id
  reconnectors := by rw [reconnectors]; exact fun _ member => member
  dials := by rw [dials]; exact fun _ member => member
  kept := by rw [reconnectors]; exact fun _ member => .inl member
  quiet := quiet

/-- Where nothing happens nothing is shed. -/
theorem refl (a : Action) (p : Pool) : Sheds a p [] p :=
  of_same rfl (Nat.le_refl _) rfl rfl rfl (List.forall_mem_nil _)

/-- Closing a pool sheds reconnectors and dials, and begins none. -/
theorem close (p : Pool) (now : Nat) : Sheds .close p (p.close now).2 (p.close now).1 := by
  have quiet : ∀ e ∈ (p.close now).2, e.isAside = true := by
    intro e member
    rw [mem_close member]
    rfl
  rw [close_rest] at *
  exact ⟨rfl, Nat.le_succ _, fun _ => rfl, fun _ => List.mem_of_mem_filter,
    fun _ => List.mem_of_mem_filter, fun _ _ => .inr (.inl rfl), quiet⟩

/-- A caller that is dropped sheds what was done for it. -/
theorem cancel (p : Pool) (now : Nat) (t : Ticket) :
    Sheds (.cancel t) p (p.cancel now t).2 (p.cancel now t).1 := by
  have aside := Aside.cancel p now t
  refine ⟨aside.options, aside.nextTicket_le, ?_, ?_, ?_, ?_, aside.quiet⟩
  · rw [aside.watch.closed]
    exact id
  · rw [aside.reconnectors]
    exact fun _ => List.mem_of_mem_filter
  · rw [aside.dials]
    exact fun _ => List.mem_of_mem_filter
  · intro r member
    by_cases mine : r.ticket = t
    · exact .inr (.inr (by rw [mine]))
    · left
      rw [aside.reconnectors]
      exact List.mem_filter.2 ⟨member, decide_eq_true mine⟩

end Sheds

namespace Ending

variable {d : Dial} {front : List Event} {result : Except Error Unit}

/-- The first part of an ending tells nothing of dials and reconnectors. -/
theorem aside (ending : Ending p d a r front result) : ∀ e ∈ front, e.isAside = true := by
  intro e member
  have kind := ending.quiet e member
  cases e <;> first | rfl | cases kind

/-- The first part of an ending sheds nothing. -/
theorem sheds (ending : Ending p d a r front result) : Sheds a p front r := by
  have rest := ending.rest
  refine .of_same ?_ (Nat.le_of_eq ?_) ?_ ?_ ?_ ending.aside <;> rw [rest]

/-- The first part of an ending releases the slot of a reconnector whose dial succeeds. -/
theorem reconnecting (ending : Ending p d a r front result) : r.reconnecting =
    if result.isOk then (p.release d.slot (p.tokenOfDial? d)).reconnecting else p.reconnecting := by
  cases ending with
  | lands landing => exact landing.released
  | fails _ _ => rfl

/-- The accounts are right when the owner of a dial is about to be told. -/
theorem ledger (ending : Ending p d a r front result) (ledger : Ledger past p) :
    Ledger (past ++ front) r := by
  have sheds := ending.sheds
  refine ledger.keep sheds.options sheds.nextTicket_le ?_ ?_ ?_ ending.aside
  · rw [ending.rest]
  · rw [ending.rest]
  · intro e member
    rw [ending.reconnecting] at member
    split at member
    · cases token : p.tokenOfDial? d with
      | none =>
        rw [token] at member
        exact member
      | some t =>
        rw [token] at member
        exact List.mem_of_mem_filter member
    · exact member

/-- Telling the owner of a dial how it ended is work. -/
theorem works (ending : Ending p d a r front result) (ledger : Ledger past p) (member : d ∈ p.dials) :
    Works now r (r.conclude now d result).2 (r.conclude now d result).1 := by
  have dials : r.dials = p.dials := by rw [ending.rest]
  have reconnectors : r.reconnectors = p.reconnectors := by rw [ending.rest]
  refine .conclude (by rw [dials]; exact member) result ?_
  -- A dial that succeeds has presented the token of its reconnector, and so has released its slot.
  rintro rfl x x_member owner _
  rw [reconnectors] at x_member
  have token : p.tokenOfDial? d = some x.token := by
    unfold tokenOfDial?
    rw [owner]
    dsimp only
    rw [ledger.find?_ticket x_member]
    rfl
  rw [ending.reconnecting, token, ← ledger.slot_of_dial member x_member owner]
  simp [release, Except.isOk, Except.toBool]

end Ending

/-- Every action has its two parts, and the accounts are right between them. -/
theorem parts_of_step (ledger : Ledger past p) (seated : Seated p)
    (taken : p.step now a = some (p', es)) : ∃ q front back, Sheds a p front q ∧
      Ledger (past ++ front) q ∧ Works now q back p' ∧ es = front ++ back := by
  cases Change.of_step taken with
  | works works =>
    refine ⟨p, [], es, .refl a p, ?_, works, rfl⟩
    rw [List.append_nil]
    exact ledger
  | closes => exact ⟨_, _, [], .close p now, ledger.close, .nil _, (List.append_nil _).symm⟩
  | @drops t unowned =>
    exact ⟨_, _, [], .cancel p now t, ledger.cancel unowned, .nil _, (List.append_nil _).symm⟩
  | @hears n rest _ _ =>
    refine ⟨{ p with notices := rest }, [], _, ?_, ?_, .of_handled rfl, rfl⟩
    · exact .of_same rfl (Nat.le_refl _) rfl rfl rfl (List.forall_mem_nil _)
    · rw [List.append_nil]
      exact ledger.hear rest
  | @opens d lost _ _ _ member opening =>
    obtain ⟨r, front, result, landing, rfl, rfl⟩ := Landing.of_opening seated opening
    have ending : Ending p d (.dialSucceeds d.ticket lost) r front result := .lands landing
    exact ⟨r, front, _, ending.sheds, ending.ledger ledger, ending.works ledger member, rfl⟩

/-- What each single change of dials and reconnectors keeps, a chain of them keeps. -/
theorem carry_of_works {P : List Event → Pool → Prop}
    (work : ∀ told q es q', Ledger (past ++ told) q → P told q → Work now q es q' →
      P (told ++ es) q')
    {told : List Event} (works : Works now q es p') (ledger : Ledger (past ++ told) q)
    (so_far : P told q) : P (told ++ es) p' := by
  induction works generalizing told with
  | nil q =>
    rw [List.append_nil]
    exact so_far
  | cons change _ ih =>
    have entered := ledger.of_work change
    rw [List.append_assoc] at entered
    rw [← List.append_assoc]
    exact ih entered (work _ _ _ _ ledger so_far change)

/-- What the first part of an action brings about, and each change of its second part keeps, holds
after the action. -/
theorem carry_of_step {P : List Event → Pool → Prop} (ledger : Ledger past p) (seated : Seated p)
    (sheds : ∀ es q, Sheds a p es q → P es q)
    (work : ∀ told q es q', Ledger (past ++ told) q → P told q → Work now q es q' →
      P (told ++ es) q')
    (taken : p.step now a = some (p', es)) : P es p' := by
  obtain ⟨q, front, back, first, accounts, works, rfl⟩ := parts_of_step ledger seated taken
  exact carry_of_works work works accounts (sheds front q first)

/-! ## What is told of the end of a dial -/

/-- Deeds in which no dial ends. -/
def Scope.endless : Scope := ⟨fun _ => True, fun _ _ => False, fun _ _ => True⟩

/-- Deeds in which only a certain dial ends, with a certain result. -/
def Scope.only (d : Dial) (result : Except Error Unit) : Scope :=
  ⟨fun _ => True, fun d' result' => d' = d ∧ result' = result, fun _ _ => True⟩

/-- Only an action that ends a dial tells that one has ended. -/
theorem dialEnded_not_mem_of_step {d : Dial} {result : Except Error Unit} (other : a.ends? = none)
    (taken : p.step now a = some (p', es)) : Event.dialEnded d result ∉ es := by
  intro told
  have endless : ∀ q, ¬ Deeds .endless now q es p' := fun _ deeds => deeds.ended told
  have busy : ¬ ∀ e ∈ es, e.isAside = true := fun quiet => by cases quiet _ told
  cases Takes.of_step taken with
  | connects => exact endless p (.connect trivial)
  | dials => cases List.mem_singleton.1 told
  | joins => cases List.mem_singleton.1 told
  | chooses => cases told
  | refuses _ _ => cases List.mem_singleton.1 told
  | passes _ _ _ absorbs => exact busy (Aside.passes absorbs).quiet
  | closes => exact busy (Sheds.close p now).quiet
  | @drops t _ => exact busy (Sheds.cancel p now t).quiet
  | acts _ went => exact busy (Aside.stepConnection went).quiet
  | @hears n rest _ _ => exact endless { p with notices := rest } (.handleLoss _ n)
  | wakes member waking => exact endless p (.single (waking.deed member))
  | opens _ _ _ => cases other
  | fails _ ends _ => cases other.symm.trans ends
  | finishes _ _ => cases List.mem_singleton.1 told

/-- What the owner of a dial is told of the end of a dial is about that dial. -/
theorem eq_of_mem_conclude {d d' : Dial} {result result' : Except Error Unit} (member : d ∈ p.dials)
    (told : Event.dialEnded d' result' ∈ (p.conclude now d result).2) : d' = d ∧ result' = result := by
  have deeds : Deeds (.only d result) now p (p.conclude now d result).2 (p.conclude now d result).1 :=
    .conclude ⟨member, ⟨rfl, rfl⟩, fun _ _ _ _ _ => trivial⟩ fun _ _ _ _ => trivial
  exact deeds.ended told

/-- A dial that is told to have ended was under way, and that is what the action did. -/
theorem Ending.of_told {d : Dial} {result : Except Error Unit} (seated : Seated p)
    (taken : p.step now a = some (p', es)) (told : Event.dialEnded d result ∈ es) :
    d ∈ p.dials ∧ ∃ r front, Ending p d a r front result ∧ p' = (r.conclude now d result).1 ∧
      es = front ++ (r.conclude now d result).2 := by
  cases ends : a.ends? with
  | none => exact absurd told (dialEnded_not_mem_of_step ends taken)
  | some t =>
    obtain ⟨d', r, front, result', member, _, ending, rfl, rfl⟩ := Ending.of_step seated ends taken
    rcases List.mem_append.1 told with early | late
    · cases ending.quiet _ early
    · have there : d' ∈ r.dials := by
        rw [ending.rest]
        exact member
      obtain ⟨rfl, rfl⟩ := eq_of_mem_conclude there late
      exact ⟨member, r, front, ending, rfl, rfl⟩

end CallPool.Pool
