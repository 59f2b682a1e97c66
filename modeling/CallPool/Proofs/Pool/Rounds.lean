import CallPool.Proofs.Pool.Arrival

/-!
# What concerns a connection round

A connection round is known by its ticket. It has its place among the rounds and its dials, and it is
told of when one of its dials begins or ends and when it is over. Most actions let it be (`Bystands`).
The others are the one that starts it, the end of one of its dials, and the drop of its caller
(`RoundMove.of_step`).
-/

set_option autoImplicit false

namespace CallPool.Pool

/-- Whether a dial is made for the round with a ticket. -/
def Dial.isIn (t : Ticket) (d : Dial) : Bool := d.owner = .round t

/-- A dial is in the round that owns it. -/
theorem Dial.isIn_iff {t : Ticket} {d : Dial} : d.isIn t = true ↔ d.owner = .round t :=
  decide_eq_true_iff

/-- Whether an event tells that a dial of the round with a ticket begins or ends, or that the round is
over. -/
def Event.isRound (t : Ticket) : Event → Bool
  | .dialed d => d.isIn t
  | .dialEnded d _ => d.isIn t
  | .finished u (.ok (.live _)) => u = t
  | _ => false

/-- What becomes of a connection is told of no round. -/
theorem Event.isRound_of_arrival {e : Event} (kind : e.isArrival = true) (t : Ticket) :
    e.isRound t = false := by
  cases e <;> first | rfl | cases kind

/-- The end of a dial of a round is entered, and the round settles if it was the last one. -/
theorem conclude_of_round {t : Ticket} {d : Dial} (owner : d.owner = .round t) (p : Pool) (now : Nat)
    (result : Except Error Unit) : p.conclude now d result =
      (((p.enter t d result).settleRound now t).1,
        .dialEnded d result :: ((p.enter t d result).settleRound now t).2) := by
  unfold conclude
  rw [owner]
  rfl

/-- Deeds that are not about the round with a ticket. -/
def Scope.apart (t : Ticket) : Scope := ⟨fun u => u ≠ t, fun _ _ => True, fun _ _ => True⟩

/-- A change that does not concern the round with a ticket. -/
structure Bystands (t : Ticket) (p : Pool) (es : List Event) (p' : Pool) : Prop where
  round : p'.rounds.find? (fun r => r.ticket = t) = p.rounds.find? fun r => r.ticket = t
  dials : p'.dials.filter (Dial.isIn t) = p.dials.filter (Dial.isIn t)
  quiet : ∀ e ∈ es, e.isRound t = false

namespace Bystands

variable {t : Ticket} {p p' p'' : Pool} {es es' : List Event} {now : Nat}

/-- A change that leaves rounds and dials, and tells nothing of the round, does not concern it. -/
theorem of_same (rounds : p'.rounds = p.rounds) (dials : p'.dials = p.dials)
    (quiet : ∀ e ∈ es, e.isRound t = false) : Bystands t p es p' :=
  ⟨by rw [rounds], by rw [dials], quiet⟩

/-- A change of something else that nobody is told of. -/
theorem of_silent (rounds : p'.rounds = p.rounds) (dials : p'.dials = p.dials) :
    Bystands t p [] p' := of_same rounds dials (List.forall_mem_nil _)

/-- Where nothing happens the round is not concerned. -/
theorem refl (p : Pool) : Bystands t p [] p := of_silent rfl rfl

/-- What does not concern a round twice does not concern it. -/
theorem trans (first : Bystands t p es p') (second : Bystands t p' es' p'') :
    Bystands t p (es ++ es') p'' where
  round := second.round.trans first.round
  dials := second.dials.trans first.dials
  quiet := by
    intro e member
    rcases List.mem_append.1 member with early | late
    · exact first.quiet e early
    · exact second.quiet e late

/-- An event in front that is told of something else does not concern the round. -/
theorem cons {e : Event} (h : Bystands t p es p') (kind : e.isRound t = false) :
    Bystands t p (e :: es) p' :=
  { h with
    quiet := by
      intro e' member
      rcases List.mem_cons.1 member with rfl | member
      · exact kind
      · exact h.quiet e' member }

/-! ## Dials, rounds and reconnectors -/

/-- A dial for somebody else does not concern the round. -/
theorem dial {owner : Owner} (other : owner ≠ .round t) (p : Pool) (now slot : Nat) :
    Bystands t p (p.dial now slot owner).2 (p.dial now slot owner).1 := by
  have unlisted : ∀ d : Dial, d.owner = owner → d.isIn t = false := by
    intro d same
    rw [Dial.isIn, same]
    exact decide_eq_false other
  refine ⟨rfl, ?_, ?_⟩
  · change (p.dials ++ [_]).filter _ = _
    rw [List.filter_append, List.filter_singleton, unlisted _ rfl]
    exact List.append_nil _
  · intro e member
    rw [List.mem_singleton.1 member]
    exact unlisted _ rfl

/-- The end of a reconnector does not concern the round. -/
theorem endReconnector (p : Pool) (r : Reconnector) (filled : Bool) :
    Bystands t p (p.endReconnector r filled).2 (p.endReconnector r filled).1 := by
  have quiet : ∀ e ∈ (p.endReconnector r filled).2, e.isRound t = false := by
    intro e member
    rcases mem_endReconnector member with rfl | rfl <;> rfl
  rw [endReconnector_rest] at *
  exact of_same rfl rfl quiet

/-- A round that begins under another ticket. -/
theorem joinRound (other : p.nextTicket ≠ t) : Bystands t p [] p.joinRound := by
  refine ⟨?_, rfl, List.forall_mem_nil _⟩
  unfold Pool.joinRound
  rw [List.find?_append]
  cases p.rounds.find? fun r => r.ticket = t with
  | some r => rfl
  | none => simp [other]

/-- A round that is over is forgotten, and no other. -/
theorem dropRound {u : Ticket} (other : u ≠ t) (p : Pool) : Bystands t p [] (p.dropRound u) := by
  refine ⟨?_, rfl, List.forall_mem_nil _⟩
  unfold Pool.dropRound
  rw [List.find?_filter]
  congr 1
  funext r
  by_cases mine : r.ticket = t
  · simp [mine, Ne.symm other]
  · simp [mine]

/-- The end of a dial is entered for its own round only. -/
theorem enter {u : Ticket} (other : u ≠ t) (p : Pool) (d : Dial) (result : Except Error Unit) :
    Bystands t (p.dropDial d.ticket) [] (p.enter u d result) := by
  refine ⟨?_, rfl, List.forall_mem_nil _⟩
  unfold Pool.enter dropDial
  dsimp only
  induction p.rounds with
  | nil => rfl
  | cons r rest ih =>
    by_cases mine : r.ticket = u
    · simp [mine, other, ih]
    · simp [mine, List.find?_cons, ih]

/-- A dial of another round ends, or one of no round. -/
theorem ends {d : Dial} {result : Except Error Unit} (ends : (Scope.apart t).Ends p d result) :
    Bystands t p [.dialEnded d result] (p.dropDial d.ticket) := by
  have outside : ∀ e ∈ p.dials, e.ticket = d.ticket → e.isIn t = false := by
    intro e member same
    rw [Bool.eq_false_iff]
    exact fun mine => ends.round e member same t (Dial.isIn_iff.1 mine) rfl
  refine ⟨rfl, ?_, ?_⟩
  · unfold dropDial
    rw [List.filter_filter]
    refine List.filter_congr fun e member => ?_
    by_cases same : e.ticket = d.ticket
    · simp [same, outside e member same]
    · simp [same]
  · intro e told
    rw [List.mem_singleton.1 told]
    exact outside d ends.member rfl

/-- A deed that is not about a round lets it be. -/
theorem of_deed (deed : Deed (.apart t) now p es p') : Bystands t p es p' := by
  cases deed with
  | refuses _ => exact of_same rfl rfl (by simp [Event.isRound])
  | joins _ own => exact joinRound own
  | @dials slot u _ own =>
    have other : Owner.round u ≠ .round t := fun same => own (Owner.round.inj same)
    exact dial other p now slot
  | settles _ own => exact (dropRound own p).cons (decide_eq_false own)
  | skips => exact of_silent rfl rfl
  | starts isOpen free =>
    rw [recover_of_free isOpen free]
    exact of_same rfl rfl (by simp [addReconnector, Event.isRound])
  | @answers d result u _ ended _ =>
    have told : Bystands t (p.dropDial d.ticket) [.finished u (result.map fun _ => .done)]
        (p.dropDial d.ticket) := of_same rfl rfl (by cases result <;> simp [Event.isRound, Except.map])
    exact (ends ended).trans told
  | @enters d result u ended owner =>
    exact (ends ended).trans (enter (ended.round d ended.member rfl u owner) p d result)
  | abandons ended _ _ => exact ends ended
  | fails ended _ _ => exact (ends ended).trans (of_silent rfl rfl)
  | fills ended _ _ _ => exact (ends ended).trans (endReconnector _ _ true)
  | givesUp _ _ => exact (endReconnector p _ false).cons rfl
  | stops _ _ _ => exact endReconnector p _ false
  | @redials r _ _ _ _ _ =>
    have woken : Bystands t p [] (p.setReconnector r.ticket r.dialing) := of_silent rfl rfl
    have other : Owner.reconnector r.ticket ≠ .round t := by simp
    exact woken.trans (dial other _ now r.slot)

/-- Deeds that are not about a round let it be. -/
theorem of_deeds (deeds : Deeds (.apart t) now p es p') : Bystands t p es p' := by
  induction deeds with
  | nil p => exact refl p
  | cons deed _ ih => exact (of_deed deed).trans ih

/-- The pool starts reconnectors for some slots. -/
theorem recoverAll (p : Pool) (now : Nat) (slots : List Nat) :
    Bystands t p (p.recoverAll now slots).2 (p.recoverAll now slots).1 :=
  of_deeds (.recoverAll p slots)

/-- The end of a dial concerns no round but its own. -/
theorem conclude {d : Dial} (member : d ∈ p.dials)
    (apart : ∀ e ∈ p.dials, e.ticket = d.ticket → e.isIn t = false) (now : Nat)
    (result : Except Error Unit) :
    Bystands t p (p.conclude now d result).2 (p.conclude now d result).1 := by
  refine of_deeds (.conclude ⟨member, trivial, ?_⟩ fun _ _ _ _ => trivial)
  rintro e e_member same _ owner rfl
  have outside := apart e e_member same
  rw [Dial.isIn_iff.2 owner] at outside
  cases outside

/-! ## Calls and connections -/

/-- What a connection tells does not concern the round. -/
theorem of_absorbs {g : Nat} {events : List Connection.Event} (h : Absorbs p g events es p') :
    Bystands t p es p' := by
  refine of_same (by rw [h.rest]) (by rw [h.rest]) ?_
  intro e member
  rcases h.only e member with ⟨_, rfl⟩ | ⟨r, _, _, outcome, _, rfl⟩
  · rfl
  · cases outcome with
    | error _ => rfl
    | ok value =>
      cases value with
      | written => rfl
      | reply response =>
        cases accepted : response.accepted <;> simp [outcomeOf, accepted, Except.map, Event.isRound]

/-- What a connection does does not concern the round. -/
theorem stepConnection {g : Nat} {a : Connection.Action}
    (taken : p.stepConnection now g a = some (p', es)) : Bystands t p es p' := by
  obtain ⟨_, c', _, _, _, absorbs⟩ := exists_of_stepConnection taken
  have set : Bystands t p [] (p.setConnection g c') := of_silent rfl rfl
  exact set.trans (of_absorbs absorbs)

/-- A command is passed on to a connection. -/
theorem passes {g : Nat} {c c' : Connection} {events : List Connection.Event}
    (absorbs : Absorbs ((p.passing g c).setConnection g c') g events es p') :
    Bystands t p (.relayed p.nextTicket g c.nextTicket :: es) p' := by
  have noted : Bystands t p [.relayed p.nextTicket g c.nextTicket] ((p.passing g c).setConnection g c') :=
    of_same rfl rfl (by simp [Event.isRound])
  exact noted.trans (of_absorbs absorbs)

/-- The connections that a caller waits for have ended, or are stopped by force. -/
theorem finishes {g : Closing} {q : Pool} (stopped : q = p ∨ q = p.force g.generations) :
    Bystands t p [.finished g.ticket (.ok .done)]
      { q with closings := q.closings.filter fun q => q.ticket ≠ g.ticket } := by
  rcases stopped with rfl | rfl
  · exact of_same rfl rfl (by simp [Event.isRound])
  · rw [force_rest]
    exact of_same rfl rfl (by simp [Event.isRound])

/-- A pool that is closed lets its rounds go on. -/
theorem close (p : Pool) (now : Nat) : Bystands t p (p.close now).2 (p.close now).1 := by
  have kept : ∀ stopped : List Ticket,
      (p.dials.filter fun d => !stopped.any fun s => d.owner = .reconnector s).filter (Dial.isIn t) =
        p.dials.filter (Dial.isIn t) := by
    intro stopped
    rw [List.filter_filter]
    refine List.filter_congr fun d _ => ?_
    cases mine : d.isIn t with
    | false => rfl
    | true =>
      rw [Dial.isIn_iff.1 mine]
      simp
  refine ⟨?_, ?_, fun e member => ?_⟩
  · rw [close_rest]
  · rw [close_rest]
    exact kept _
  · rw [mem_close member]
    rfl

/-- The call of a caller is dropped. -/
theorem of_callDropped {u : Ticket} (dropped : CallDropped now p u es p') : Bystands t p es p' := by
  have forgot : Bystands t p [] (p.forgetCall u) := of_silent rfl rfl
  cases dropped with
  | absent _ => exact refl p
  | ended _ _ _ => exact forgot
  | cancelled _ _ went => exact forgot.trans (stepConnection went)

/-- What a caller has besides its work may be dropped without a round. -/
theorem cancel (p : Pool) (now : Nat) (u : Ticket) :
    Bystands t (p.dropWork u) (p.cancel now u).2 (p.cancel now u).1 := by
  have closing : Bystands t (p.dropWork u) [] ((p.dropWork u).dropClosing u) := by
    rw [dropClosing_rest]
    exact of_silent rfl rfl
  exact closing.trans (of_callDropped (.of_cancel p now u))

/-- The work of another caller is dropped. -/
theorem dropWork {u : Ticket} (other : u ≠ t) (p : Pool) : Bystands t p [] (p.dropWork u) := by
  refine ⟨(dropRound other p).round, ?_, List.forall_mem_nil _⟩
  unfold Pool.dropWork
  rw [List.filter_filter]
  refine List.filter_congr fun d _ => ?_
  cases owner : d.isIn t with
  | false => rfl
  | true => simp [Dial.isFor, Dial.isIn_iff.1 owner, Ne.symm other]

end Bystands

/-- The round with a ticket is over, or has not begun. -/
structure Over (t : Ticket) (p : Pool) : Prop where
  round : p.rounds.find? (fun r => r.ticket = t) = none
  dials : p.dials.filter (Dial.isIn t) = []

/-- A round that is over stays so. -/
theorem Over.of_bystands {t : Ticket} {p p' : Pool} {es : List Event} (h : Over t p)
    (bystands : Bystands t p es p') : Over t p' :=
  ⟨bystands.round.trans h.round, bystands.dials.trans h.dials⟩

/-- With the work of its caller a round is dropped. -/
theorem Over.of_dropWork (p : Pool) (t : Ticket) : Over t (p.dropWork t) := by
  refine ⟨List.find?_eq_none.2 fun r member => ?_, List.filter_eq_nil_iff.2 fun d member owner => ?_⟩
  · simpa using (List.mem_filter.1 member).2
  · have unfor := (List.mem_filter.1 member).2
    simp [Dial.isFor, Dial.isIn_iff.1 owner] at unfor

/-- What an action means for the round with a ticket, which it does not start. -/
inductive RoundMove (t : Ticket) (now : Nat) (p : Pool) : Action → List Event → Pool → Prop
  | bystands {a : Action} {es : List Event} {p' : Pool} (h : Bystands t p es p') : RoundMove t now p a es p'
  /-- Its caller is dropped. -/
  | drops {es : List Event} {p' : Pool} (absent : Over t p') (quiet : ∀ e ∈ es, e.isRound t = false) :
      RoundMove t now p (.cancel t) es p'
  /-- One of its dials ends. -/
  | concludes {a : Action} {d : Dial} {r : Pool} {front : List Event} {result : Except Error Unit}
      (member : d ∈ p.dials) (owner : d.owner = .round t) (ending : Ending p d a r front result) :
      RoundMove t now p a (front ++ (r.conclude now d result).2) (r.conclude now d result).1

/-- Every action but the start of a round leaves it alone, drops it, or ends one of its dials. -/
theorem RoundMove.of_step {t : Ticket} {p p' : Pool} {now : Nat} {a : Action} {es : List Event}
    (seated : Seated p) (tickets : (p.dials.map Dial.ticket).Nodup)
    (other : a = .connect → p.nextTicket ≠ t) (taken : p.step now a = some (p', es)) :
    RoundMove t now p a es p' := by
  have ended : ∀ {u : Ticket}, a.ends? = some u → RoundMove t now p a es p' := by
    intro u ends
    obtain ⟨d, r, front, result, member, _, ending, rfl, rfl⟩ := Ending.of_step seated ends taken
    cases mine : d.isIn t with
    | true => exact .concludes member (Dial.isIn_iff.1 mine) ending
    | false =>
      have apart : ∀ e ∈ r.dials, e.ticket = d.ticket → e.isIn t = false := by
        intro e e_member same
        rw [ending.rest] at e_member
        rw [List.inj_on_of_nodup_map tickets e_member member same]
        exact mine
      have early : Bystands t p front r := by
        refine .of_same ?_ ?_ fun e seen => Event.isRound_of_arrival (ending.quiet e seen) t
        · rw [ending.rest]
        · rw [ending.rest]
      have there : d ∈ r.dials := by
        rw [ending.rest]
        exact member
      exact .bystands (early.trans (.conclude there apart now result))
  cases Takes.of_step taken with
  | connects => exact .bystands (.of_deeds (.connect (other rfl)))
  | @dials slot token =>
    have ticket : Bystands t p [] p.takeTicket.2 := .of_silent rfl rfl
    have own : Owner.caller p.nextTicket token ≠ .round t := by simp
    exact .bystands (ticket.trans (.dial own _ now slot))
  | joins => exact .bystands (.of_same rfl rfl (by simp [addReconnector, Event.isRound]))
  | chooses => exact .bystands (.of_silent rfl rfl)
  | refuses _ _ => exact .bystands (.of_same rfl rfl (by simp [Event.isRound]))
  | passes _ _ _ absorbs => exact .bystands (.passes absorbs)
  | closes => exact .bystands (.close p now)
  | @drops u _ =>
    have rest : Bystands t (p.dropWork u) (p.cancel now u).2 (p.cancel now u).1 := .cancel p now u
    by_cases mine : u = t
    · subst mine
      exact .drops ((Over.of_dropWork p u).of_bystands rest) rest.quiet
    · exact .bystands ((Bystands.dropWork mine p).trans rest)
  | acts _ went => exact .bystands (.stepConnection went)
  | @hears n rest _ _ =>
    have heard : Bystands t p [] { p with notices := rest } := .of_silent rfl rfl
    exact .bystands (heard.trans (.of_deeds (.handleLoss _ n)))
  | wakes member waking => exact .bystands (.of_deed (waking.deed member))
  | opens _ _ _ => exact ended rfl
  | fails _ ends _ => exact ended ends
  | finishes _ stopped => exact .bystands (.finishes stopped)

end CallPool.Pool
