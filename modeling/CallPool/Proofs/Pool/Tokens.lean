import CallPool.Proofs.Pool.DialsLeftAlone

/-!
# The tokens that callers present

A caller may dial a slot, or run a reconnector of its own, and present a token with it. No other dial
and no other reconnector carries a token that the pool has not given out itself: whatever a pool does,
the tokens that it tells of as brought by a caller are those of the action that it takes
(`presented_of_step`). The pool gives out tokens from 1 on, so that a caller who presents 0 presents
that of no reconnector of the pool.
-/

set_option autoImplicit false

namespace CallPool.Pool

/-- The token that a caller presents with an action. -/
def Action.presented? : Action → Option Token
  | .fill _ token => token
  | .reconnect _ token _ _ => some token
  | _ => none

/-- The token that a caller has presented, if an event tells of its dial or its reconnector. -/
def Event.presented? : Event → Option Token
  | .dialed d =>
    match d.owner with
    | .caller _ token => token
    | _ => none
  | .recovering r => if r.owned then none else some r.token
  | _ => none

/-- Nothing that is told is a dial or a reconnector for which a caller has presented a token. -/
def Unpresented (es : List Event) : Prop := ∀ e ∈ es, e.presented? = none

namespace Unpresented

variable {p p' : Pool} {now : Nat} {es es' : List Event}

/-- Where nothing is told, no token is. -/
theorem nil : Unpresented [] := by simp [Unpresented]

/-- Two parts without tokens have none together. -/
theorem append (first : Unpresented es) (second : Unpresented es') : Unpresented (es ++ es') := by
  intro e member
  rcases List.mem_append.1 member with early | late
  · exact first e early
  · exact second e late

/-- One more event without a token adds none. -/
theorem cons {e : Event} (first : e.presented? = none) (rest : Unpresented es) :
    Unpresented (e :: es) := by
  intro e' member
  rcases List.mem_cons.1 member with rfl | later
  · exact first
  · exact rest e' later

/-- A single event without a token. -/
theorem singleton {e : Event} (only : e.presented? = none) : Unpresented [e] := cons only nil

/-- What tells nothing of dials and reconnectors tells of no token. -/
theorem of_aside (quiet : ∀ e ∈ es, e.isAside = true) : Unpresented es := by
  intro e member
  have kind := quiet e member
  cases e with
  | dialed _ => cases kind
  | recovering _ => cases kind
  | _ => rfl

/-- No caller has a hand in a reconnector that ends. -/
theorem endReconnector (p : Pool) (r : Reconnector) (filled : Bool) :
    Unpresented (p.endReconnector r filled).2 := by
  intro e member
  rcases mem_endReconnector member with rfl | rfl <;> rfl

/-- No caller presents a token with a deed. -/
theorem of_deed (deed : Deed .any now p es p') : Unpresented es := by
  cases deed with
  | refuses _ => exact singleton rfl
  | joins _ _ => exact nil
  | dials _ _ => exact singleton rfl
  | settles _ _ => exact singleton rfl
  | skips => exact nil
  | starts isOpen free =>
    rw [recover_of_free isOpen free]
    exact singleton rfl
  | answers _ _ => exact cons rfl (singleton rfl)
  | enters _ _ => exact singleton rfl
  | abandons _ _ _ => exact singleton rfl
  | fails _ _ _ => exact singleton rfl
  | fills _ _ _ _ => exact cons rfl (endReconnector _ _ true)
  | givesUp _ _ => exact cons rfl (endReconnector _ _ false)
  | stops _ _ _ => exact endReconnector _ _ false
  | redials _ _ _ _ => exact singleton rfl

/-- No caller presents a token with deeds. -/
theorem of_deeds (deeds : Deeds .any now p es p') : Unpresented es := by
  induction deeds with
  | nil => exact nil
  | cons deed _ ih => exact (of_deed deed).append ih

/-- No caller presents a token when a connection is opened. -/
theorem of_opening {q : Pool} {d : Dial} {lost : Bool} (member : d ∈ p.dials)
    (opening : Opening p now d lost q es p') : Unpresented es := by
  have concludes := opening.concludes member
  obtain ⟨⟨noticed, absorbs, rfl⟩, -⟩ := opening
  refine append (append (of_aside (Aside.opens absorbs).quiet) ?_) (of_deeds concludes)
  intro e placed
  rcases mem_install placed with rfl | rfl
  · rfl
  · rfl

end Unpresented

/-- The tokens that callers have presented come from their actions. -/
theorem presented_of_step {p p' : Pool} {now : Nat} {a : Action} {es : List Event}
    (taken : p.step now a = some (p', es)) {e : Event} (member : e ∈ es) {t : Token}
    (presented : e.presented? = some t) : a.presented? = some t := by
  have plain : Unpresented es → a.presented? = some t := by
    intro plain
    rw [plain e member] at presented
    cases presented
  have aside : Aside p es p' → a.presented? = some t := fun aside => plain (.of_aside aside.quiet)
  cases Takes.of_step taken with
  | connects => exact plain (.of_deeds (.connect trivial))
  | dials =>
    rw [List.mem_singleton.1 member] at presented
    exact presented
  | joins =>
    rw [List.mem_singleton.1 member] at presented
    exact presented
  | chooses => cases member
  | refuses _ _ => exact aside (.refuses p _)
  | passes _ _ _ absorbs => exact aside (.passes absorbs)
  | closes =>
    rw [mem_close member] at presented
    cases presented
  | drops _ => exact plain (.of_aside (Aside.cancel p now _).quiet)
  | acts _ went => exact aside (.stepConnection went)
  | hears _ _ => exact plain (.of_deeds (.handleLoss _ _))
  | wakes there waking => exact plain (.of_deed (waking.deed there))
  | opens under_way _ opening => exact plain (.of_opening under_way opening)
  | fails under_way _ _ => exact plain (.of_deeds (.conclude (.any under_way _) fun _ _ _ _ => trivial))
  | finishes _ stopped => exact aside (.finishes stopped)

end CallPool.Pool
