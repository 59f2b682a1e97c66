import CallPool.Proofs.Pool.Shedding

/-!
# What reconnectors report

A reconnector reports once, when it ends, whether it has filled its slot; and it has filled its slot
exactly if one of its dials has ended well (`Reports`). Then it is gone, and nothing is told of it any
more (`Departed.of_run`), whether of a dial or of a second report. `Work.reported` and `Work.filled` say this
of a single change.
-/

set_option autoImplicit false

namespace CallPool.Pool

variable {p p' q : Pool} {now : Nat} {past es : List Event} {a : Action} {t : Ticket}

/-! ## Reconnectors that are gone -/

/-- Whether an event tells of the reconnector with a ticket, or of one of its dials. -/
def Event.isBy (t : Ticket) : Event → Bool
  | .dialed d => d.isOf t
  | .dialEnded d _ => d.isOf t
  | .recovering r => r.ticket = t
  | .gaveUp r => r.ticket = t
  | .recovered r _ => r.ticket = t
  | _ => false

/-- What tells nothing of dials and reconnectors tells nothing of a certain one. -/
theorem isBy_of_aside {e : Event} (kind : e.isAside = true) (t : Ticket) : e.isBy t = false := by
  cases e <;> first | rfl | cases kind

/-- The end of a reconnector tells nothing of another one. -/
theorem isBy_endReconnector {r : Reconnector} {filled : Bool} (other : r.ticket ≠ t) :
    ∀ e ∈ (p.endReconnector r filled).2, e.isBy t = false := by
  intro e member
  rcases mem_endReconnector member with rfl | rfl
  · exact decide_eq_false other
  · rfl

/-- Where nothing is told of a reconnector, none of its dials begins. -/
theorem dialsBy_eq_nil_of_quiet (quiet : ∀ e ∈ es, e.isBy t = false) : dialsBy t es = [] := by
  unfold dialsBy
  rw [List.filterMap_eq_nil_iff]
  intro e member
  have unconcerned := quiet e member
  cases e with
  | dialed d => exact if_neg (Bool.eq_false_iff.1 unconcerned)
  | _ => rfl

/-- There is no reconnector with a ticket, and there will be none. -/
structure Departed (t : Ticket) (p : Pool) : Prop where
  absent : ∀ r ∈ p.reconnectors, r.ticket ≠ t
  given : t < p.nextTicket

namespace Departed

/-- Who is gone stays so, as long as nobody comes. -/
theorem of_subset (h : Departed t p) (kept : ∀ r ∈ p'.reconnectors, r ∈ p.reconnectors)
    (nextTicket_le : p.nextTicket ≤ p'.nextTicket) : Departed t p' :=
  ⟨fun r member => h.absent r (kept r member), Nat.lt_of_lt_of_le h.given nextTicket_le⟩

/-- A reconnector that ends is gone. -/
theorem of_endReconnector {r : Reconnector} {filled : Bool} (given : r.ticket < p.nextTicket) :
    Departed r.ticket (p.endReconnector r filled).1 := by
  rw [endReconnector_rest]
  exact ⟨fun x member => of_decide_eq_true (List.mem_filter.1 member).2, given⟩

/-- Who is gone stays so when another one ends. -/
theorem endReconnector (h : Departed t p) (r : Reconnector) (filled : Bool) :
    Departed t (p.endReconnector r filled).1 := by
  rw [endReconnector_rest]
  exact ⟨fun x member => h.absent x (List.mem_of_mem_filter member), h.given⟩

/-- Who is gone stays so when another one goes on. -/
theorem setReconnector (h : Departed t p) {r next : Reconnector} (member : r ∈ p.reconnectors)
    (same : next.ticket = r.ticket) : Departed t (p.setReconnector r.ticket next) := by
  refine ⟨fun x x_member => ?_, h.given⟩
  rcases of_mem_setReconnector x_member with rfl | ⟨older, _⟩
  · rw [same]
    exact h.absent r member
  · exact h.absent x older

/-- Who is gone stays so when another one is started, which has a ticket of its own. -/
theorem addReconnector (h : Departed t p) {entries : List (Nat × Token)} {nextToken : Token}
    {slot : Nat} {token : Token} {schedule : Backoff} {owned orphaned : Bool} :
    Departed t ({ p with reconnecting := entries, nextToken := nextToken }.addReconnector now slot token
        schedule owned orphaned).1 ∧
      ∀ e ∈ ({ p with reconnecting := entries, nextToken := nextToken }.addReconnector now slot token
        schedule owned orphaned).2, e.isBy t = false := by
  have other : p.nextTicket ≠ t := Nat.ne_of_gt h.given
  refine ⟨⟨fun r member => ?_, Nat.lt_succ_of_lt h.given⟩, ?_⟩
  · rcases List.mem_append.1 member with older | newest
    · exact h.absent r older
    · rw [List.mem_singleton.1 newest]
      exact other
  · intro e member
    rw [List.mem_singleton.1 member]
    exact decide_eq_false other

/-- A reconnector that is gone stays away, and nothing is told of it. -/
theorem of_work (h : Departed t p) (ledger : Ledger past p) (work : Work now p es p') :
    Departed t p' ∧ ∀ e ∈ es, e.isBy t = false := by
  have apart : ∀ {r : Reconnector} {d : Dial}, r ∈ p.reconnectors → d.owner = .reconnector r.ticket →
      d.isOf t = false := by
    intro r d member owner
    exact Dial.isOf_other owner (h.absent r member).symm
  cases work with
  | aside other =>
    refine ⟨h.of_subset ?_ other.nextTicket_le, fun e member => isBy_of_aside (other.quiet e member) t⟩
    rw [other.reconnectors]
    exact fun _ member => member
  | dials other =>
    refine ⟨h.of_subset (fun _ member => member) (Nat.le_succ _), fun e member => ?_⟩
    rw [List.mem_singleton.1 member]
    exact decide_eq_false (other t)
  | @ends d result member other =>
    refine ⟨h.of_subset (fun _ member => member) (Nat.le_refl _), fun e e_member => ?_⟩
    rw [List.mem_singleton.1 e_member]
    refine decide_eq_false fun owner => ?_
    obtain ⟨r, r_member, rfl⟩ := ledger.owner d member t owner
    exact other r r_member owner
  | starts isOpen free =>
    rw [recover_of_free isOpen free]
    exact h.addReconnector
  | joins => exact h.addReconnector
  | @redials r due member _ _ _ =>
    obtain ⟨absent, given⟩ : Departed t (p.setReconnector r.ticket r.dialing) := h.setReconnector member rfl
    refine ⟨⟨absent, Nat.lt_succ_of_lt given⟩, fun e e_member => ?_⟩
    rw [List.mem_singleton.1 e_member]
    exact apart member rfl
  | @fails d r error _ r_member owner =>
    have dropped : Departed t (p.dropDial d.ticket) := ⟨h.absent, h.given⟩
    refine ⟨dropped.setReconnector r_member rfl, fun e e_member => ?_⟩
    rw [List.mem_singleton.1 e_member]
    exact apart r_member owner
  | @fills d r _ r_member owner _ =>
    have dropped : Departed t (p.dropDial d.ticket) := ⟨h.absent, h.given⟩
    exact ⟨dropped.endReconnector r true,
      List.forall_mem_cons.2 ⟨apart r_member owner, isBy_endReconnector (h.absent r r_member)⟩⟩
  | @givesUp r member _ =>
    exact ⟨h.endReconnector r false,
      List.forall_mem_cons.2 ⟨decide_eq_false (h.absent r member), isBy_endReconnector (h.absent r member)⟩⟩
  | @stops r _ member _ _ =>
    exact ⟨h.endReconnector r false, isBy_endReconnector (h.absent r member)⟩

/-- Who is gone stays so in every action, and nothing is told of it. -/
theorem of_step (h : Departed t p) (ledger : Ledger past p) (seated : Seated p)
    (taken : p.step now a = some (p', es)) : Departed t p' ∧ ∀ e ∈ es, e.isBy t = false := by
  refine carry_of_step (P := fun es q => Departed t q ∧ ∀ e ∈ es, e.isBy t = false) ledger seated ?_ ?_
    taken
  · intro es q sheds
    exact ⟨h.of_subset sheds.reconnectors sheds.nextTicket_le,
      fun e member => isBy_of_aside (sheds.quiet e member) t⟩
  · intro told q es q' ledger so_far work
    obtain ⟨gone, quiet⟩ := so_far.1.of_work ledger work
    exact ⟨gone, List.forall_mem_append.2 ⟨so_far.2, quiet⟩⟩

/-- Behind a point of a run at which a reconnector is gone, nothing is told of it. -/
theorem of_run {options : Options} {start middle : Pool} {began since : Nat} {older newer : List Moment}
    (made : Pool.new options = .ok start) (past : Run start began older since middle)
    (run : Run middle since newer now p) (h : Departed t middle) :
    Departed t p ∧ ∀ e ∈ eventsOf newer, e.isBy t = false := by
  induction run with
  | start => exact ⟨h, List.forall_mem_nil _⟩
  | act upto taken ih =>
    obtain ⟨gone, quiet⟩ := ih
    have before := past.append upto
    obtain ⟨gone, later⟩ := gone.of_step (.of_run made before) (.of_run made before) taken
    rw [eventsOf_append, eventsOf_cons, eventsOf_nil, List.append_nil]
    exact ⟨gone, List.forall_mem_append.2 ⟨quiet, later⟩⟩
  | rest _ _ _ ih => exact ih

end Departed

/-! ## Reports -/

/-- A dial of the reconnector with a ticket has ended well: its connection was put into the slot, or
closed because the slot was live. -/
def Filled (t : Ticket) (es : List Event) : Prop :=
  ∃ d : Dial, d.isOf t = true ∧ Event.dialEnded d (.ok ()) ∈ es

/-- A slot is filled in one list behind another if it is in either. -/
theorem Filled.append_iff {es' : List Event} : Filled t (es ++ es') ↔ Filled t es ∨ Filled t es' := by
  unfold Filled
  simp only [List.mem_append]
  constructor
  · rintro ⟨d, mine, early | late⟩
    · exact .inl ⟨d, mine, early⟩
    · exact .inr ⟨d, mine, late⟩
  · rintro (⟨d, mine, early⟩ | ⟨d, mine, late⟩)
    · exact ⟨d, mine, .inl early⟩
    · exact ⟨d, mine, .inr late⟩

/-- Where nothing is told of a reconnector it fills no slot. -/
theorem not_filled_of_quiet (quiet : ∀ e ∈ es, e.isBy t = false) : ¬ Filled t es := by
  rintro ⟨d, mine, told⟩
  have unconcerned : d.isOf t = false := quiet _ told
  cases mine.symm.trans unconcerned

/-- A reconnector that ends with a change was there, is gone, and reports whether its dial has ended
well. -/
theorem Work.reported (ledger : Ledger past p) (work : Work now p es p') {r : Reconnector} {filled : Bool}
    (told : Event.recovered r filled ∈ es) :
    (∃ x ∈ p.reconnectors, x.ticket = r.ticket) ∧ Departed r.ticket p' ∧
      (filled = true ↔ Filled r.ticket es) := by
  have unfilled : ∀ {q : Pool} {x : Reconnector} {b : Bool} {u : Ticket},
      ¬ Filled u (q.endReconnector x b).2 := by
    rintro q x b u ⟨d, _, ended⟩
    exact dialEnded_not_mem_endReconnector ended
  have ended : ∀ {q : Pool} {x : Reconnector} {b : Bool},
      Event.recovered r filled ∈ (q.endReconnector x b).2 → r = x ∧ filled = b := by
    intro q x b member
    rcases mem_endReconnector member with same | same
    · exact Event.recovered.inj same
    · cases same
  cases work with
  | aside other => cases other.quiet _ told
  | starts isOpen free =>
    rw [recover_of_free isOpen free] at told
    simp [addReconnector] at told
  | @fills d x _ member owner _ =>
    rcases List.mem_cons.1 told with same | told
    · cases same
    · obtain ⟨rfl, rfl⟩ := ended told
      refine ⟨⟨r, member, rfl⟩, .of_endReconnector (ledger.ticket_lt r member), fun _ => ?_, fun _ => rfl⟩
      exact ⟨d, Dial.isOf_owner owner, List.mem_cons_self⟩
  | @givesUp x member _ =>
    rcases List.mem_cons.1 told with same | told
    · cases same
    · obtain ⟨rfl, rfl⟩ := ended told
      refine ⟨⟨r, member, rfl⟩, .of_endReconnector (ledger.ticket_lt r member), ?_, ?_⟩
      · exact fun same => absurd same Bool.false_ne_true
      · rintro ⟨d, mine, seen⟩
        rcases List.mem_cons.1 seen with same | seen
        · cases same
        · exact absurd ⟨d, mine, seen⟩ unfilled
  | @stops x _ member _ _ =>
    obtain ⟨rfl, rfl⟩ := ended told
    exact ⟨⟨r, member, rfl⟩, .of_endReconnector (ledger.ticket_lt r member),
      fun same => absurd same Bool.false_ne_true, fun filled => absurd filled unfilled⟩
  | dials _ => simp [dial] at told
  | ends _ _ => simp at told
  | joins => simp [addReconnector] at told
  | redials _ _ _ _ => simp [dial] at told
  | fails _ _ _ => simp at told

/-- A reconnector whose dial ends well was there, and reports it. -/
theorem Work.filled (ledger : Ledger past p) (work : Work now p es p') (filled : Filled t es) :
    (∃ x ∈ p.reconnectors, x.ticket = t) ∧ ∃ r, r.ticket = t ∧ Event.recovered r true ∈ es := by
  obtain ⟨d, mine, told⟩ := filled
  cases work with
  | aside other => cases other.quiet _ told
  | starts isOpen free =>
    rw [recover_of_free isOpen free] at told
    simp [addReconnector] at told
  | ends member other =>
    obtain ⟨rfl, _⟩ := Event.dialEnded.inj (List.mem_singleton.1 told)
    obtain ⟨r, r_member, rfl⟩ := ledger.owner _ member t (of_decide_eq_true mine)
    exact absurd (of_decide_eq_true mine) (other r r_member)
  | @fills x r _ member owner _ =>
    have reports : Event.recovered r true ∈ ((p.dropDial x.ticket).endReconnector r true).2 := by
      unfold endReconnector
      split <;> exact List.mem_cons_self
    rcases List.mem_cons.1 told with same | told
    · obtain ⟨rfl, _⟩ := Event.dialEnded.inj same
      obtain rfl := Owner.reconnector.inj ((of_decide_eq_true mine).symm.trans owner)
      exact ⟨⟨r, member, rfl⟩, r, rfl, List.mem_cons_of_mem _ reports⟩
    · exact absurd told dialEnded_not_mem_endReconnector
  | givesUp _ _ =>
    rcases List.mem_cons.1 told with same | told
    · cases same
    · exact absurd told dialEnded_not_mem_endReconnector
  | stops _ _ _ => exact absurd told dialEnded_not_mem_endReconnector
  | dials _ => simp [dial] at told
  | joins => simp [addReconnector] at told
  | redials _ _ _ _ => simp [dial] at told
  | fails _ _ _ => simp at told

/-- What the reconnectors have reported is right: whoever has reported is gone, and has reported that it
has filled its slot exactly if it has. -/
structure Reports (past : List Event) (p : Pool) : Prop where
  gone : ∀ r filled, Event.recovered r filled ∈ past → Departed r.ticket p
  honest : ∀ r filled, Event.recovered r filled ∈ past → (filled = true ↔ Filled r.ticket past)
  told : ∀ t, Filled t past → ∃ r, r.ticket = t ∧ Event.recovered r true ∈ past

namespace Reports

/-- What is reported stays right where reconnectors are only dropped, and nothing is told of them. -/
theorem keep (h : Reports past p) (kept : ∀ r ∈ p'.reconnectors, r ∈ p.reconnectors)
    (nextTicket_le : p.nextTicket ≤ p'.nextTicket) (quiet : ∀ e ∈ es, e.isAside = true) :
    Reports (past ++ es) p' := by
  have older : ∀ {r filled}, Event.recovered r filled ∈ past ++ es → Event.recovered r filled ∈ past := by
    intro r filled member
    rcases List.mem_append.1 member with early | late
    · exact early
    · cases quiet _ late
  have unfilled : ∀ t, ¬ Filled t es := fun t =>
    not_filled_of_quiet fun e member => isBy_of_aside (quiet e member) t
  refine ⟨fun r filled told => (h.gone r filled (older told)).of_subset kept nextTicket_le, ?_, ?_⟩
  · intro r filled told
    rw [Filled.append_iff, or_iff_left (unfilled _)]
    exact h.honest r filled (older told)
  · intro t filled
    rw [Filled.append_iff, or_iff_left (unfilled _)] at filled
    obtain ⟨r, mine, told⟩ := h.told t filled
    exact ⟨r, mine, List.mem_append_left _ told⟩

/-- Every change keeps what is reported right. -/
theorem of_work (h : Reports past p) (ledger : Ledger past p) (work : Work now p es p') :
    Reports (past ++ es) p' := by
  -- A reconnector that is there has not reported, and so has not filled its slot yet.
  have unfilled : ∀ {t}, (∃ x ∈ p.reconnectors, x.ticket = t) → ¬ Filled t past := by
    rintro t ⟨x, member, mine⟩ filled
    obtain ⟨r, rfl, told⟩ := h.told t filled
    exact (h.gone r true told).absent x member mine
  refine ⟨?_, ?_, ?_⟩
  · intro r filled told
    rcases List.mem_append.1 told with early | late
    · exact ((h.gone r filled early).of_work ledger work).1
    · exact (work.reported ledger late).2.1
  · intro r filled told
    rw [Filled.append_iff]
    rcases List.mem_append.1 told with early | late
    · rw [or_iff_left (not_filled_of_quiet ((h.gone r filled early).of_work ledger work).2)]
      exact h.honest r filled early
    · obtain ⟨there, _, honest⟩ := work.reported ledger late
      rw [or_iff_right (unfilled there)]
      exact honest
  · intro t filled
    rcases Filled.append_iff.1 filled with early | late
    · obtain ⟨r, mine, told⟩ := h.told t early
      exact ⟨r, mine, List.mem_append_left _ told⟩
    · obtain ⟨_, r, mine, told⟩ := work.filled ledger late
      exact ⟨r, mine, List.mem_append_right _ told⟩

/-- Every action keeps what is reported right. -/
theorem of_step (h : Reports past p) (ledger : Ledger past p) (seated : Seated p)
    (taken : p.step now a = some (p', es)) : Reports (past ++ es) p' := by
  refine carry_of_step (P := fun es q => Reports (past ++ es) q) ledger seated ?_ ?_ taken
  · intro es q sheds
    exact h.keep sheds.reconnectors sheds.nextTicket_le sheds.quiet
  · intro told q es q' ledger so_far work
    rw [← List.append_assoc]
    exact so_far.of_work ledger work

/-- In every run the reports of the reconnectors are right. -/
theorem of_run {options : Options} {start : Pool} {began : Nat} {moments : List Moment}
    (made : Pool.new options = .ok start) (run : Run start began moments now p) :
    Reports (eventsOf moments) p := by
  induction run with
  | start => exact ⟨nofun, nofun, fun t filled => absurd filled (not_filled_of_quiet (List.forall_mem_nil _))⟩
  | act past taken ih =>
    rw [eventsOf_append, eventsOf_cons, eventsOf_nil, List.append_nil]
    exact ih.of_step (.of_run made past) (.of_run made past) taken
  | rest _ _ _ ih => exact ih

end Reports

end CallPool.Pool
