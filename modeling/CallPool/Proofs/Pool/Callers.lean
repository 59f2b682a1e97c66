import CallPool.Proofs.Pool.Relays
import CallPool.Proofs.Pool.Work

/-!
# Who is told what

A pool tells a caller what it ends with in one of two ways. A caller that asked for connections, for a
dial, for a reconnector or for the end of the pool is told by the pool itself; these are the askers. A
caller whose command was passed on is told what its party on a connection ended with. `Serves` says so
of any change of a pool and is kept along a chain of them, so that it holds of every action
(`Serves.of_step`), and a call is told by its party alone (`Unasked.of_finished`).
-/

set_option autoImplicit false

namespace CallPool.Pool

/-- The caller that made a dial of its own. -/
def Owner.caller? : Owner → Option Ticket
  | .caller t _ => some t
  | _ => none

/-- Who waits for something else than a reply: for a round, a reconnector, a dial or a closing. -/
def askers (p : Pool) : List Ticket :=
  p.rounds.map Round.ticket ++ p.reconnectors.map Reconnector.ticket ++
    p.dials.filterMap (fun d => d.owner.caller?) ++ p.closings.map Closing.ticket

/-- Who asks for something waits for a round, a reconnector, a dial or the close. -/
theorem mem_askers {p : Pool} {t : Ticket} : t ∈ p.askers ↔
    (∃ r ∈ p.rounds, r.ticket = t) ∨ (∃ r ∈ p.reconnectors, r.ticket = t) ∨
      (∃ d ∈ p.dials, d.owner.caller? = some t) ∨ ∃ g ∈ p.closings, g.ticket = t := by
  simp only [askers, List.mem_append, List.mem_map, List.mem_filterMap, or_assoc]

/-- Who waits behind a change waited before, or is new to one of the four lists. -/
theorem askers_subset_append {p p' : Pool} {new : List Ticket}
    (rounds : p'.rounds.map Round.ticket ⊆ p.rounds.map Round.ticket ++ new)
    (reconnectors : p'.reconnectors.map Reconnector.ticket ⊆ p.reconnectors.map Reconnector.ticket ++ new)
    (dials : p'.dials.filterMap (fun d => d.owner.caller?) ⊆
      p.dials.filterMap (fun d => d.owner.caller?) ++ new)
    (closings : p'.closings.map Closing.ticket ⊆ p.closings.map Closing.ticket ++ new) :
    ∀ t ∈ p'.askers, t ∈ p.askers ∨ t ∈ new := by
  intro t member
  simp only [askers, List.mem_append] at member ⊢
  rcases member with ((round | reconnector) | dialer) | closer
  · exact (List.mem_append.1 (rounds round)).imp_left fun there => .inl (.inl (.inl there))
  · exact (List.mem_append.1 (reconnectors reconnector)).imp_left fun there => .inl (.inl (.inr there))
  · exact (List.mem_append.1 (dials dialer)).imp_left fun there => .inl (.inr there)
  · exact (List.mem_append.1 (closings closer)).imp_left .inr

/-- Nobody waits behind a change that adds to none of the four lists but who waited before. -/
theorem askers_subset {p p' : Pool} (rounds : p'.rounds.map Round.ticket ⊆ p.rounds.map Round.ticket)
    (reconnectors : p'.reconnectors.map Reconnector.ticket ⊆ p.reconnectors.map Reconnector.ticket)
    (dials : p'.dials.filterMap (fun d => d.owner.caller?) ⊆ p.dials.filterMap (fun d => d.owner.caller?))
    (closings : p'.closings.map Closing.ticket ⊆ p.closings.map Closing.ticket) :
    ∀ t ∈ p'.askers, t ∈ p.askers := by
  intro t member
  have either : t ∈ p.askers ∨ t ∈ ([] : List Ticket) := askers_subset_append (by simpa using rounds)
    (by simpa using reconnectors) (by simpa using dials) (by simpa using closings) t member
  exact either.resolve_right List.not_mem_nil

/-- Whether a caller is told what one of some calls ended with, as its party is in the same events. -/
def FromParty (relays : List Relay) (es : List Event) (t : Ticket) (outcome : Outcome) : Prop :=
  ∃ r ∈ relays, r.ticket = t ∧ ∃ ended,
    Event.connection r.generation (.finished r.party ended) ∈ es ∧ outcome = outcomeOf ended

/-- A change of a pool in which new askers and new calls have new tickets, and nobody is told what it
ends with but askers, callers whose party ends, and who is new. -/
structure Serves (p : Pool) (es : List Event) (p' : Pool) : Prop where
  nextTicket_le : p.nextTicket ≤ p'.nextTicket
  askers : ∀ t ∈ p'.askers, t ∈ p.askers ∨ p.nextTicket ≤ t ∧ t < p'.nextTicket
  relays : ∀ r ∈ p'.relays, r ∈ p.relays ∨ p.nextTicket ≤ r.ticket
  told : ∀ t outcome, Event.finished t outcome ∈ es →
    t ∈ p.askers ∨ p.nextTicket ≤ t ∨ FromParty p.relays es t outcome

namespace Serves

variable {p p' p'' : Pool} {es es' : List Event} {now : Nat}

/-- Callers who are served in two steps are served. -/
theorem trans (first : Serves p es p') (second : Serves p' es' p'') : Serves p (es ++ es') p'' where
  nextTicket_le := Nat.le_trans first.nextTicket_le second.nextTicket_le
  askers := by
    intro t member
    rcases second.askers t member with earlier | ⟨new, below⟩
    · refine (first.askers t earlier).imp_right fun ⟨new, below⟩ => ⟨new, ?_⟩
      exact Nat.lt_of_lt_of_le below second.nextTicket_le
    · exact .inr ⟨Nat.le_trans first.nextTicket_le new, below⟩
  relays := by
    intro r member
    rcases second.relays r member with earlier | new
    · exact first.relays r earlier
    · exact .inr (Nat.le_trans first.nextTicket_le new)
  told := by
    intro t outcome member
    rcases List.mem_append.1 member with early | late
    · refine (first.told t outcome early).imp_right (Or.imp_right ?_)
      rintro ⟨r, r_member, mine, ended, seen, same⟩
      exact ⟨r, r_member, mine, ended, List.mem_append_left _ seen, same⟩
    · rcases second.told t outcome late with asker | new | ⟨r, r_member, mine, ended, seen, same⟩
      · exact (first.askers t asker).imp_right fun fresh => .inl fresh.1
      · exact .inr (.inl (Nat.le_trans first.nextTicket_le new))
      · rcases first.relays r r_member with earlier | new
        · exact .inr (.inr ⟨r, earlier, mine, ended, List.mem_append_right _ seen, same⟩)
        · exact .inr (.inl (mine ▸ new))

/-- A change after which there are no other askers and calls, and of which nobody is told. -/
theorem of_quiet (nextTicket_le : p.nextTicket ≤ p'.nextTicket)
    (askers : ∀ t ∈ p'.askers, t ∈ p.askers) (relays : ∀ r ∈ p'.relays, r ∈ p.relays)
    (quiet : ∀ t outcome, Event.finished t outcome ∉ es) :
    Serves p es p' :=
  ⟨nextTicket_le, fun t member => .inl (askers t member), fun r member => .inl (relays r member),
    fun t outcome told => absurd told (quiet t outcome)⟩

/-- A change of which nothing is told. -/
theorem of_silent (nextTicket_le : p.nextTicket ≤ p'.nextTicket)
    (askers : ∀ t ∈ p'.askers, t ∈ p.askers) (relays : ∀ r ∈ p'.relays, r ∈ p.relays) :
    Serves p [] p' :=
  of_quiet nextTicket_le askers relays fun _ _ => List.not_mem_nil

/-- A change in which the next ticket is given, maybe to somebody who then waits or is told. -/
theorem of_ticket (given : p.nextTicket < p'.nextTicket)
    (askers : ∀ t ∈ p'.askers, t ∈ p.askers ∨ t ∈ [p.nextTicket])
    (relays : ∀ r ∈ p'.relays, r ∈ p.relays)
    (told : ∀ t outcome, Event.finished t outcome ∈ es → t = p.nextTicket) : Serves p es p' := by
  refine ⟨Nat.le_of_lt given, ?_, fun r member => .inl (relays r member), ?_⟩
  · intro t member
    refine (askers t member).imp_right fun new => ?_
    rw [List.mem_singleton.1 new]
    exact ⟨Nat.le_refl _, given⟩
  · intro t outcome seen
    exact .inr (.inl (Nat.le_of_eq (told t outcome seen).symm))

/-- Besides, askers may be told, and other things that concern no caller. -/
theorem tell (h : Serves p es p')
    (more : ∀ e ∈ es', e ∈ es ∨ (∀ t outcome, e ≠ .finished t outcome) ∨
      ∃ t outcome, e = .finished t outcome ∧ (t ∈ p.askers ∨ p.nextTicket ≤ t))
    (kept : ∀ e ∈ es, e ∈ es') : Serves p es' p' := by
  refine ⟨h.nextTicket_le, h.askers, h.relays, ?_⟩
  intro t outcome told
  rcases more _ told with earlier | other | ⟨t', outcome', same, asker⟩
  · refine (h.told t outcome earlier).imp_right (Or.imp_right ?_)
    rintro ⟨r, r_member, mine, ended, seen, same⟩
    exact ⟨r, r_member, mine, ended, kept _ seen, same⟩
  · exact absurd rfl (other t outcome)
  · obtain ⟨rfl, rfl⟩ := Event.finished.inj same
    exact asker.imp_right .inl

/-- An event in front that ends nobody does not matter to the callers. -/
theorem cons {e : Event} (h : Serves p es p') (other : ∀ t outcome, e ≠ .finished t outcome) :
    Serves p (e :: es) p' := by
  refine h.tell ?_ fun _ member => List.mem_cons_of_mem _ member
  intro e' member
  rcases List.mem_cons.1 member with rfl | later
  · exact .inr (.inl other)
  · exact .inl later

/-- An event behind may end one who asks, or who has just come. -/
theorem snoc {t : Ticket} {outcome : Outcome} (h : Serves p es p')
    (asker : t ∈ p.askers ∨ p.nextTicket ≤ t) : Serves p (es ++ [.finished t outcome]) p' := by
  refine h.tell ?_ fun _ member => List.mem_append_left _ member
  intro e member
  rcases List.mem_append.1 member with earlier | last
  · exact .inl earlier
  · exact .inr (.inr ⟨t, outcome, List.mem_singleton.1 last, asker⟩)

/-! ## Deeds -/

/-- Somebody dials who does not wait for the dial alone. -/
theorem dial (p : Pool) (now slot : Nat) {owner : Owner} (other : owner.caller? = none) :
    Serves p (p.dial now slot owner).2 (p.dial now slot owner).1 := by
  refine of_quiet (Nat.le_succ _) ?_ (fun _ member => member) (by simp [Pool.dial])
  intro t member
  simpa [Pool.askers, Pool.dial, other] using member

/-- A reconnector starts. -/
theorem addReconnector (p : Pool) (now slot : Nat) (token : Token) (schedule : Backoff)
    (owned orphaned : Bool) :
    Serves p (p.addReconnector now slot token schedule owned orphaned).2
      (p.addReconnector now slot token schedule owned orphaned).1 := by
  refine of_ticket (Nat.lt_succ_self _) ?_ (fun _ member => member) (by simp [Pool.addReconnector])
  refine askers_subset_append (List.subset_append_left _ _) ?_ (List.subset_append_left _ _)
    (List.subset_append_left _ _)
  simp [Pool.addReconnector]

/-- Any change that leaves askers, calls and tickets alone. -/
theorem same (nextTicket : p'.nextTicket = p.nextTicket) (askers : p'.askers = p.askers)
    (relays : p'.relays = p.relays) : Serves p [] p' :=
  of_silent (Nat.le_of_eq nextTicket.symm) (fun _ member => askers ▸ member)
    (fun _ member => relays ▸ member)

/-- Nothing changes. -/
theorem refl (p : Pool) : Serves p [] p := same rfl rfl rfl

/-- Whoever runs a reconnector waits for it. -/
theorem asker_of_reconnector {r : Reconnector} (member : r ∈ p.reconnectors) : r.ticket ∈ p.askers :=
  mem_askers.2 (.inr (.inl ⟨r, member, rfl⟩))

/-- A reconnector ends. -/
theorem endReconnector {r : Reconnector} (asker : r.ticket ∈ p.askers) (filled : Bool) :
    Serves p (p.endReconnector r filled).2 (p.endReconnector r filled).1 := by
  have left : ∀ t ∈ (p.endReconnector r filled).1.askers, t ∈ p.askers := by
    rw [endReconnector_rest]
    exact askers_subset (List.Subset.refl _) (List.filter_sublist.map _).subset (List.Subset.refl _)
      (List.Subset.refl _)
  have still : Serves p [] (p.endReconnector r filled).1 := by
    refine of_silent (Nat.le_of_eq ?_) left ?_
    · rw [endReconnector_rest]
    · intro q member
      rw [endReconnector_rest] at member
      exact member
  refine still.tell ?_ fun _ member => absurd member List.not_mem_nil
  intro e member
  rcases mem_endReconnector member with rfl | rfl
  · exact .inr (.inl (by simp))
  · exact .inr (.inr ⟨_, _, rfl, .inl asker⟩)

/-- A reconnector that is replaced asks under the same ticket. -/
theorem setReconnector {t : Ticket} {r : Reconnector} (mine : r.ticket = t) :
    Serves p [] (p.setReconnector t r) := by
  refine of_silent (Nat.le_refl _) ?_ (fun _ member => member)
  refine askers_subset (List.Subset.refl _) ?_ (List.Subset.refl _) (List.Subset.refl _)
  rw [tickets_setReconnector mine]
  exact List.Subset.refl _

/-- A dial is forgotten. -/
theorem dropDial (p : Pool) (t : Ticket) : Serves p [] (p.dropDial t) := by
  refine of_silent (Nat.le_refl _) ?_ (fun _ member => member)
  exact askers_subset (List.Subset.refl _) (List.Subset.refl _) (List.filter_sublist.filterMap _).subset
    (List.Subset.refl _)

/-- Who asks for something is told at once that it cannot have it. -/
theorem refuses (p : Pool) (outcome : Outcome) :
    Serves p [.finished p.nextTicket outcome] p.takeTicket.2 := by
  have ticket : Serves p [] p.takeTicket.2 :=
    of_silent (Nat.le_succ _) (fun _ member => member) (fun _ member => member)
  exact ticket.snoc (.inr (Nat.le_refl _))

/-- Who asks for a round is told that it is over, and the owner of a dial how that ended. -/
theorem of_deed (deed : Deed .any now p es p') : Serves p es p' := by
  cases deed with
  | refuses _ => exact refuses p _
  | joins _ _ =>
    refine of_ticket (Nat.lt_succ_self _) ?_ (fun _ member => member) (by simp)
    refine askers_subset_append ?_ (List.subset_append_left _ _) (List.subset_append_left _ _)
      (List.subset_append_left _ _)
    simp [joinRound]
  | dials _ _ => exact dial p now _ rfl
  | @settles r member _ =>
    have left : Serves p [] (p.dropRound r.ticket) := by
      refine of_silent (Nat.le_refl _) ?_ (fun _ member => member)
      exact askers_subset (List.filter_sublist.map _).subset (List.Subset.refl _) (List.Subset.refl _)
        (List.Subset.refl _)
    exact left.snoc (.inl (mem_askers.2 (.inl ⟨r, member, rfl⟩)))
  | skips => exact same rfl rfl rfl
  | @starts slot isOpen free =>
    have listed : Serves p [] { p with
        reconnecting := p.reconnecting ++ [(slot, p.nextToken)]
        nextToken := p.nextToken + 1 } := same rfl rfl rfl
    rw [recover_of_free isOpen free]
    exact listed.trans (addReconnector _ now slot p.nextToken p.options.backoff true false)
  | @answers d _ t _ ends owner =>
    have asker : t ∈ p.askers := mem_askers.2 (.inr (.inr (.inl ⟨d, ends.member, by rw [owner]; rfl⟩)))
    exact ((dropDial p d.ticket).snoc (.inl asker)).cons (by simp)
  | @enters d result t _ _ =>
    have noted : Serves (p.dropDial d.ticket) [] (p.enter t d result) := by
      refine of_silent (Nat.le_refl _) ?_ (fun _ member => member)
      refine askers_subset ?_ (List.Subset.refl _) (List.Subset.refl _) (List.Subset.refl _)
      intro t' t'_member
      obtain ⟨q, q_member, rfl⟩ := List.mem_map.1 t'_member
      obtain ⟨r, r_member, rfl⟩ := List.mem_map.1 q_member
      refine List.mem_map.2 ⟨r, r_member, ?_⟩
      split
      · rfl
      · rfl
    exact ((dropDial p d.ticket).trans noted).cons (by simp)
  | @abandons d _ _ _ _ _ => exact (dropDial p d.ticket).cons (by simp)
  | @fails d r _ _ _ _ =>
    exact ((dropDial p d.ticket).trans (setReconnector (r := r.failed now) rfl)).cons (by simp)
  | @fills d r _ member _ _ =>
    have asker : r.ticket ∈ (p.dropDial d.ticket).askers :=
      asker_of_reconnector (p := p.dropDial d.ticket) member
    exact ((dropDial p d.ticket).trans (endReconnector asker true)).cons (by simp)
  | givesUp member _ => exact (endReconnector (asker_of_reconnector member) false).cons (by simp)
  | stops member _ _ => exact endReconnector (asker_of_reconnector member) false
  | @redials r _ _ _ _ _ =>
    exact (setReconnector (r := r.dialing) rfl).trans (dial _ now r.slot rfl)

/-- Deeds tell those who asked, and nobody else. -/
theorem of_deeds (deeds : Deeds .any now p es p') : Serves p es p' := by
  induction deeds with
  | nil p => exact refl p
  | cons deed _ ih => exact (of_deed deed).trans ih

/-! ## Closing -/

/-- Who closes a pool may wait for its connections to end. -/
theorem close (p : Pool) (now : Nat) : Serves p (p.close now).2 (p.close now).1 := by
  have rest := close_rest p now
  refine of_ticket ?_ ?_ ?_ ?_
  · rw [rest]
    exact Nat.lt_succ_self _
  · refine askers_subset_append ?_ ?_ ?_ ?_
    · rw [rest]
      exact List.subset_append_left _ _
    · rw [rest]
      exact List.subset_append_of_subset_left _ (List.filter_sublist.map _).subset
    · rw [rest]
      exact List.subset_append_of_subset_left _ (List.filter_sublist.filterMap _).subset
    · intro t member
      obtain ⟨g, g_member, rfl⟩ := List.mem_map.1 member
      rcases mem_closings_close g_member with older | new
      · exact List.mem_append_left _ (List.mem_map_of_mem older)
      · exact List.mem_append_right _ (List.mem_singleton.2 new)
  · intro r member
    rw [rest] at member
    exact member
  · intro t outcome told
    exact (Event.finished.inj (mem_close told)).1

/-- Some who wait for connections to end wait no more. -/
theorem forget {closings : List Closing} (kept : closings ⊆ p.closings) :
    Serves p [] { p with closings := closings } := by
  refine of_silent (Nat.le_refl _) ?_ (fun _ member => member)
  exact askers_subset (List.Subset.refl _) (List.Subset.refl _) (List.Subset.refl _) (List.map_subset _ kept)

/-- Connections are stopped by force. -/
theorem force (p : Pool) (generations : List Nat) : Serves p [] (p.force generations) := by
  rw [force_rest]
  exact same rfl rfl rfl

/-- Who waits for connections to end is told that they have. -/
theorem finishes {g : Closing} {q : Pool} (member : g ∈ p.closings)
    (stopped : q = p ∨ q = p.force g.generations) : Serves p [.finished g.ticket (.ok .done)]
      { q with closings := q.closings.filter fun q => q.ticket ≠ g.ticket } := by
  have asker : g.ticket ∈ p.askers := mem_askers.2 (.inr (.inr (.inr ⟨g, member, rfl⟩)))
  have forgot : Serves q [] { q with closings := q.closings.filter fun q => q.ticket ≠ g.ticket } :=
    forget List.filter_sublist.subset
  rcases stopped with rfl | rfl
  · exact forgot.snoc (.inl asker)
  · exact ((force p g.generations).trans forgot).snoc (.inl asker)

/-! ## Connections and calls -/

/-- Who is told what its party ended with has made a call. -/
theorem of_absorbs {g : Nat} {events : List Connection.Event} (h : Absorbs p g events es p') :
    Serves p es p' := by
  refine ⟨Nat.le_of_eq h.nextTicket.symm, ?_, fun r member => .inl (h.relays r member), ?_⟩
  · rw [h.rest]
    exact fun _ member => .inl member
  · intro t outcome told
    rcases h.only _ told with ⟨_, same⟩ | ⟨r, member, mine, ended, finished, same⟩
    · cases same
    · obtain ⟨rfl, rfl⟩ := Event.finished.inj same
      refine .inr (.inr ⟨r, member, rfl, ended, ?_, rfl⟩)
      rw [mine, ← mem_toldOf, h.told]
      exact finished

/-- A connection takes an action. -/
theorem stepConnection {g : Nat} {x : Connection.Action}
    (taken : p.stepConnection now g x = some (p', es)) : Serves p es p' := by
  obtain ⟨_, c', _, _, _, absorbs⟩ := exists_of_stepConnection taken
  have acted : Serves p [] (p.setConnection g c') := same rfl rfl rfl
  exact acted.trans (of_absorbs absorbs)

/-- A command is passed on. -/
theorem passes {g : Nat} {c c' : Connection} {events : List Connection.Event}
    (absorbs : Absorbs ((p.passing g c).setConnection g c') g events es p') :
    Serves p (.relayed p.nextTicket g c.nextTicket :: es) p' := by
  have passing : Serves p [.relayed p.nextTicket g c.nextTicket] ((p.passing g c).setConnection g c') := by
    refine ⟨Nat.le_succ _, fun _ member => .inl member, ?_, by simp⟩
    intro r member
    rcases List.mem_append.1 member with older | last
    · exact .inl older
    · rw [List.mem_singleton.1 last]
      exact .inr (Nat.le_refl _)
  exact passing.trans (of_absorbs absorbs)

/-- A connection that was opened is installed or discarded. -/
theorem install (p : Pool) (slot generation : Nat) (token : Option Token) :
    Serves p (p.install slot generation token).2.2 (p.install slot generation token).1 := by
  have rest := install_rest p slot generation token
  refine of_quiet ?_ ?_ ?_ ?_
  · exact Nat.le_of_eq (congrArg Pool.nextTicket rest).symm
  · intro t member
    rw [rest] at member
    exact member
  · intro r member
    rw [rest] at member
    exact member
  · intro t outcome told
    rcases mem_install told with same | same
    · cases same
    · cases same

/-- A dial opens a connection. -/
theorem of_opening {q : Pool} {d : Dial} {lost : Bool} (member : d ∈ p.dials)
    (opening : Opening p now d lost q es p') : Serves p es p' := by
  have concludes := opening.concludes member
  obtain ⟨⟨noticed, absorbs, rfl⟩, -⟩ := opening
  have opened : Serves p [.opened d.slot p.connections.length]
      { p with connections := p.connections ++ [(p.born now d lost).1] } :=
    of_quiet (Nat.le_refl _) (fun _ member => member) (fun _ member => member) (by simp)
  exact ((opened.trans (of_absorbs absorbs)).trans (install q _ _ _)).trans (of_deeds concludes)

/-- The call of a caller is dropped. -/
theorem of_callDropped {t : Ticket} (dropped : CallDropped now p t es p') : Serves p es p' := by
  have forgot : Serves p [] (p.forgetCall t) :=
    of_silent (Nat.le_refl _) (fun _ member => member) (fun _ member => (List.mem_filter.1 member).1)
  cases dropped with
  | absent _ => exact refl p
  | ended _ _ _ => exact forgot
  | cancelled _ _ went => exact forgot.trans (stepConnection went)

/-- A caller that is dropped asks no more. -/
theorem cancel (p : Pool) (now : Nat) (t : Ticket) : Serves p (p.cancel now t).2 (p.cancel now t).1 := by
  have work : Serves p [] (p.dropWork t) := by
    refine of_silent (Nat.le_refl _) ?_ (fun _ member => member)
    exact askers_subset (List.filter_sublist.map _).subset (List.filter_sublist.map _).subset
      (List.filter_sublist.filterMap _).subset (List.Subset.refl _)
  have closing : Serves (p.dropWork t) [] ((p.dropWork t).dropClosing t) := by
    unfold Pool.dropClosing
    split
    · rename_i g _
      refine (force _ g.generations).trans (forget fun g' member => ?_)
      rw [force_rest]
      exact (List.mem_filter.1 member).1
    · exact refl _
  exact (work.trans closing).trans (of_callDropped (.of_cancel p now t))

/-- Whatever a pool does, whom it tells what is an asker, new, or told what its party ended with. -/
theorem of_step {a : Action} (taken : p.step now a = some (p', es)) : Serves p es p' := by
  cases Takes.of_step taken with
  | connects => exact of_deeds (.connect trivial)
  | dials =>
    -- A caller that dials has the ticket before that of its dial.
    refine of_ticket (Nat.lt_add_of_pos_right (Nat.succ_pos 1)) ?_ (fun _ member => member)
      (by simp [Pool.dial])
    refine askers_subset_append (List.subset_append_left _ _) (List.subset_append_left _ _) ?_
      (List.subset_append_left _ _)
    simp [Pool.dial, takeTicket, Owner.caller?]
  | joins => exact addReconnector p now _ _ _ false _
  | chooses => exact same rfl rfl rfl
  | refuses _ _ => exact refuses p _
  | passes _ _ _ absorbs => exact passes absorbs
  | closes => exact close p now
  | drops _ => exact cancel p now _
  | acts _ went => exact stepConnection went
  | @hears n rest _ _ =>
    have heard : Serves p [] { p with notices := rest } := same rfl rfl rfl
    exact heard.trans (of_deeds (.handleLoss _ n))
  | wakes member waking => exact of_deed (waking.deed member)
  | opens member _ opening => exact of_opening member opening
  | fails member _ _ => exact of_deeds (.conclude (.any member _) fun _ _ _ _ => trivial)
  | finishes member stopped => exact finishes member stopped

/-- Who sends a command takes a ticket, and is no asker. -/
theorem of_passed {a : Action} {x : Connection.Action} (asks : a.passed? = some x)
    (taken : p.step now a = some (p', es)) : p.nextTicket < p'.nextTicket ∧ ∀ t ∈ p'.askers, t ∈ p.askers := by
  rcases passed_cases asks taken with ⟨_, _, rfl, _⟩ | ⟨_, _, _, _, _, _, _, absorbs, _⟩
  · exact ⟨Nat.lt_succ_self _, fun _ member => member⟩
  · rw [absorbs.rest]
    exact ⟨Nat.lt_succ_self _, fun _ member => member⟩

end Serves

/-! ## In a run -/

section Run

variable {options : Options} {start p : Pool} {began now : Nat} {moments older newer : List Moment}
  {m : Moment}

/-- In every run only those end who ask, or come later. -/
theorem Serves.of_run {p' : Pool} (run : Run p began moments now p') : Serves p (eventsOf moments) p' := by
  induction run with
  | start => exact refl p
  | rest _ _ _ ih => exact ih
  | act _ taken ih =>
    rw [eventsOf_append, eventsOf_cons, eventsOf_nil, List.append_nil]
    exact ih.trans (of_step taken)

/-- The tickets of askers have been given. -/
theorem askers_lt_of_run (made : Pool.new options = .ok start) (run : Run start began moments now p) :
    ∀ t ∈ p.askers, t < p.nextTicket := by
  have fresh := Fresh.of_new made
  intro t member
  rcases (Serves.of_run run).askers t member with asked | ⟨_, below⟩
  · simp [askers, fresh.rounds, fresh.reconnectors, fresh.dials, fresh.closings] at asked
  · exact below

/-- Whether a ticket has been given to somebody who is no asker. -/
def Unasked (p : Pool) (t : Ticket) : Prop := t < p.nextTicket ∧ t ∉ p.askers

/-- Who is no asker does not become one later. -/
theorem Unasked.of_serves {p' : Pool} {es : List Event} {t : Ticket} (h : Unasked p t)
    (serves : Serves p es p') : Unasked p' t := by
  refine ⟨Nat.lt_of_lt_of_le h.1 serves.nextTicket_le, fun member => ?_⟩
  rcases serves.askers t member with earlier | ⟨new, _⟩
  · exact h.2 earlier
  · exact Nat.not_le_of_lt h.1 new

/-- Who is no asker is told only what its party ended with. -/
theorem Unasked.of_finished {p' : Pool} {a : Action} {es : List Event} {t : Ticket} {outcome : Outcome}
    (h : Unasked p t) (taken : p.step now a = some (p', es)) (told : Event.finished t outcome ∈ es) :
    FromParty p.relays es t outcome := by
  rcases (Serves.of_step taken).told t outcome told with asker | new | party
  · exact absurd asker h.2
  · exact absurd new (Nat.not_le_of_lt h.1)
  · exact party

/-- Who sends a command is no asker from then on. -/
theorem unasked_of_passed {x : Connection.Action} (made : Pool.new options = .ok start)
    (run : Run start began (older ++ m :: newer) now p) (asks : m.action.passed? = some x) :
    Unasked m.after m.before.nextTicket := by
  obtain ⟨past, taken, _⟩ := run.at_moment
  obtain ⟨given, askers⟩ := Serves.of_passed asks taken
  refine ⟨given, fun member => ?_⟩
  exact Nat.lt_irrefl _ (askers_lt_of_run made past _ (askers _ member))

end Run

end CallPool.Pool
