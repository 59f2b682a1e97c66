import CallPool.Proofs.Connection.Notices
import CallPool.Proofs.Pool.Causes

/-!
# Slots that nobody fills again

A slot is abandoned when it is not live, the supervisor will hear of no loss in it, no connection round
has dialed it, and no reconnector of it will dial. It stays abandoned, and is not dialed, until a caller
asks for it (`Abandoned.of_run`). In a prompt run a slot that is not live and gets no connection waits
for no notice once time has passed (`unheard_of_run`), since the supervisor takes the notices at once.
-/

set_option autoImplicit false

namespace CallPool.Pool

variable {unfit? : Options → Option DialFault} {p p' : Pool} {now : Nat} {past es : List Event}
  {a : Action} {s g : Nat} {t : Ticket}

/-! ## Slots that get no connection -/

/-- A slot that gets no connection holds what it held, if anything. -/
theorem held_of_step (taken : p.step now a = some (p', es)) (unfilled : ∀ g, Event.installed s g ∉ es)
    (held : p'.slots[s]? = some (some g)) : p.slots[s]? = some (some g) := by
  cases Turnover.of_step taken with
  | rests slots _ =>
    rw [slots] at held
    exact held
  | clears _ slots _ _ =>
    rw [slots, List.getElem?_map] at held
    obtain ⟨_, _, same⟩ := Option.map_eq_some_iff.1 held
    cases same
  | discards slots _ _ _ _ _ =>
    rw [slots] at held
    exact held
  | @fills c _ _ slots _ _ _ _ installed =>
    have other : s ≠ c.slot := by
      rintro rfl
      exact unfilled _ installed
    rw [slots, List.getElem?_set_ne other.symm] at held
    exact held

/-- What is in a slot that is not live is dead. -/
theorem dead_of_vacant (vacant : p.isLive s = false) (held : p.slots[s]? = some (some g))
    {c : Connection} (found : p.connections[g]? = some c) : c.connected = false := by
  rw [Bool.eq_false_iff] at vacant ⊢
  exact fun live => vacant (isLive_iff.2 ⟨g, c, held, found, live⟩)

/-- A slot that is not live becomes live only when a connection is installed in it. -/
theorem vacant_of_step (seated : Seated p) (vacant : p.isLive s = false)
    (taken : p.step now a = some (p', es)) (unfilled : ∀ g, Event.installed s g ∉ es) :
    p'.isLive s = false := by
  rw [Bool.eq_false_iff]
  intro live
  obtain ⟨g, c', held', found', connected⟩ := isLive_iff.1 live
  have held := held_of_step taken unfilled held'
  obtain ⟨c, found, _⟩ := seated.seated s g held
  obtain ⟨d, there, dead⟩ := (Follows.of_step taken).dead found (dead_of_vacant vacant held found)
  obtain rfl := Option.some.inj (found'.symm.trans there)
  rw [connected] at dead
  cases dead

/-- Of a connection that is dead no loss is told. -/
theorem Follows.lost_not_mem {may : Nat → Connection.Action → Prop} {began : Nat} {c : Connection}
    {n : Notice} (follows : Follows may p began es now p') (found : p.connections[g]? = some c)
    (dead : c.connected = false) : Event.connection g (.lost n) ∉ es := by
  intro told
  have course := follows.course g
  have seen := mem_toldOf.2 told
  rw [found] at course
  generalize p'.connections[g]? = x at course
  generalize toldOf g es = events at course seen
  cases course with
  | goesOn run _ => exact Connection.lost_not_mem_of_dead run dead seen

/-- No notice of the connection in a slot is queued. -/
def Unheard (p : Pool) (s : Nat) : Prop :=
  ∀ n ∈ p.notices, n.slot = s → p.slots[s]? ≠ some (some n.generation)

/-- Of a slot that stays vacant no further loss is heard. -/
theorem unheard_of_step (ledger : Ledger past p) (seated : Seated p) {past' : List Event}
    (housed' : Housed past' p') (vacant : p.isLive s = false) (unheard : p.Unheard s)
    (taken : p.step now a = some (p', es)) (unfilled : ∀ g, Event.installed s g ∉ es) : p'.Unheard s := by
  intro n member slot held'
  have held := held_of_step taken unfilled held'
  rcases queued_of_move (.of_step ledger taken) member with older | ⟨g, told⟩
  · exact unheard n older slot held
  · have follows := Follows.of_step taken
    obtain ⟨c', found', _, notice⟩ := follows.lost told
    have number : n.generation = g := by
      rw [← notice]
      exact (housed'.resident g c' found').number
    rw [number] at held
    obtain ⟨c, found, _⟩ := seated.seated s g held
    exact follows.lost_not_mem found (dead_of_vacant vacant held found) told

/-- The supervisor takes notices at once, and a slot that is not live and gets no connection brings no
new ones. -/
theorem unheard_of_run {options : Options} {start middle : Pool} {began since : Nat}
    {older newer : List Moment} (made : Pool.new options = .ok start)
    (past : Run start began older since middle) (run : PromptRun unfit? middle since newer now p)
    (isOpen : p.closed = false) (vacant : middle.isLive s = false)
    (unfilled : ∀ g, Event.installed s g ∉ eventsOf newer) :
    p.isLive s = false ∧ (now = since ∨ p.Unheard s) := by
  induction run with
  | start => exact ⟨vacant, .inl rfl⟩
  | @act newer now p p' a es upto taken ih =>
    have free : Run middle since newer now p := upto.loosen fun _ _ _ _ => trivial
    have before := past.append free
    have ledger := Ledger.of_run made before
    have seated := Seated.of_run made before
    have was_open : p.closed = false := by
      rw [Bool.eq_false_iff]
      intro closed
      rw [closed_of_move (.of_step ledger taken) closed] at isOpen
      cases isOpen
    rw [eventsOf_append, eventsOf_cons, eventsOf_nil, List.append_nil] at unfilled
    obtain ⟨still_vacant, quiet⟩ := ih was_open fun g told => unfilled g (List.mem_append_left _ told)
    have unfilled' : ∀ g, Event.installed s g ∉ es := fun g told => unfilled g (List.mem_append_right _ told)
    refine ⟨vacant_of_step seated still_vacant taken unfilled', quiet.imp_right fun unheard => ?_⟩
    exact unheard_of_step ledger seated (.of_run made (before.act taken)) still_vacant unheard taken
      unfilled'
  | rest upto _ allowed ih =>
    have before := past.append (upto.loosen fun _ _ _ _ => trivial)
    have supervised := (Seated.of_run made before).supervised
    rw [isOpen] at supervised
    refine ⟨(ih isOpen unfilled).1, .inr fun n member => ?_⟩
    rw [(idle_of_mayRest allowed).1 supervised] at member
    cases member

/-! ## Slots that are abandoned -/

/-- A round that settles goes away. -/
theorem find?_settleRound {R : Round} (found : (p.settleRound now t).1.rounds.find? (fun R => R.ticket = t) =
    some R) : p.rounds.find? (fun R => R.ticket = t) = some R := by
  cases settled : p.settleRound now t with
  | mk q es =>
    rw [settled] at found
    cases Settles.of_settleRound settled with
    | waits => exact found
    | settles _ =>
      rw [recoverAll_rest] at found
      have mine : R.ticket = t := by simpa using List.find?_some found
      have other := (List.mem_filter.1 (List.mem_of_find?_eq_some found)).2
      exact absurd mine (of_decide_eq_true other)

/-- A round that has dialed a slot has done so before, unless a caller has just started it. -/
theorem covers_of_step (seated : Seated p) (tickets : (p.dials.map Dial.ticket).Nodup)
    (other : a ≠ .connect) (taken : p.step now a = some (p', es)) (covers : p'.Covers t s) :
    p.Covers t s := by
  obtain ⟨R, found, member⟩ := covers
  cases RoundMove.of_step seated tickets (fun same => absurd same other) taken with
  | bystands h =>
    rw [h.round] at found
    exact ⟨R, found, member⟩
  | drops absent _ =>
    rw [absent.round] at found
    cases found
  | @concludes _ d r _ result _ owner ending =>
    rw [conclude_of_round owner] at found
    obtain ⟨R, found, member⟩ := Covers.of_enter ⟨R, find?_settleRound found, member⟩
    have rounds : r.rounds = p.rounds := by rw [ending.rest]
    rw [rounds] at found
    exact ⟨R, found, member⟩

/-- Nobody will fill a slot unless a caller asks for it. -/
structure Abandoned (s : Nat) (p : Pool) : Prop where
  vacant : p.isLive s = false
  unheard : p.options.maxReconnectAttempts = 0 ∨ p.Unheard s
  uncovered : ∀ t, ¬ p.Covers t s
  spent : ∀ r ∈ p.reconnectors, r.slot = s → r.phase = .spent

namespace Abandoned

/-- An abandoned slot stays abandoned, and is not dialed, as long as nobody asks for it and nothing is
installed in it. -/
theorem of_step (h : Abandoned s p) (ledger : Ledger past p) (seated : Seated p)
    (ledger' : Ledger (past ++ es) p') (housed' : Housed (past ++ es) p') (unasked : a.asksFor s = false)
    (taken : p.step now a = some (p', es)) (unfilled : ∀ g, Event.installed s g ∉ es) :
    Abandoned s p' ∧ ∀ d, Event.dialed d ∈ es → d.slot ≠ s := by
  have options := (Follows.of_step taken).options
  have other : a ≠ .connect := by
    rintro rfl
    cases unasked
  refine ⟨⟨vacant_of_step seated h.vacant taken unfilled, ?_, ?_, ?_⟩, ?_⟩
  · rw [options]
    exact h.unheard.imp_right fun unheard =>
      unheard_of_step ledger seated housed' h.vacant unheard taken unfilled
  · exact fun t covers => h.uncovered t (covers_of_step seated ledger.dials_nodup other taken covers)
  · intro x member mine
    rcases stems_of_step ledger seated taken x member with ⟨y, y_member, kin, rested⟩ | ⟨y, told, kin⟩
    · refine rested (h.spent y y_member ?_)
      rw [kin] at mine
      exact mine
    · have slot : y.slot = s := by
        rw [kin] at mine
        exact mine
      have cause : Cause p s a (.recovering y) := Cause.of_step seated taken told (congrArg some slot)
      cases cause with
      | asked asks =>
        rw [unasked] at asks
        cases asks
      | heard notices about held owned =>
        rcases h.unheard with none_left | unheard
        -- A reconnector that may not dial is spent from its start on.
        · have x_owned : x.owned = true := by
            rw [kin]
            exact owned
          have schedule := (ledger'.owned x member x_owned).2
          by_contra unspent
          have more := (ledger'.tally x member).more unspent
          rw [schedule, options] at more
          change x.attempt < p.options.maxReconnectAttempts at more
          omega
        · refine absurd held (unheard _ ?_ about)
          rw [notices]
          exact List.mem_cons_self
      | failed _ _ _ covers => exact absurd covers (h.uncovered _)
  · intro d told mine
    have cause : Cause p s a (.dialed d) := Cause.of_step seated taken told (congrArg some mine)
    cases cause with
    | asked asks =>
      rw [unasked] at asks
      cases asks
    | awake member slot asleep =>
      rw [h.spent _ member slot] at asleep
      cases asleep

/-- A slot stays abandoned until a caller asks for it, and is not dialed. -/
theorem of_run {options : Options} {start middle : Pool} {began since : Nat} {older newer : List Moment}
    (made : Pool.new options = .ok start) (past : Run start began older since middle)
    (run : Run middle since newer now p) (h : Abandoned s middle)
    (unasked : ∀ m ∈ newer, m.action.asksFor s = false)
    (unfilled : ∀ g, Event.installed s g ∉ eventsOf newer) :
    Abandoned s p ∧ ∀ d, Event.dialed d ∈ eventsOf newer → d.slot ≠ s := by
  induction run with
  | start => exact ⟨h, nofun⟩
  | @act newer now p p' a es upto taken ih =>
    rw [eventsOf_append, eventsOf_cons, eventsOf_nil, List.append_nil] at unfilled ⊢
    obtain ⟨so_far, undialed⟩ := ih (fun m member => unasked m (List.mem_append_left _ member))
      fun g told => unfilled g (List.mem_append_left _ told)
    have before := past.append upto
    have after := before.act taken
    have seen : eventsOf (older ++ newer) ++ es = eventsOf (older ++ newer ++ [⟨now, a, es, p, p'⟩]) := by
      rw [eventsOf_append (older ++ newer), eventsOf_cons, eventsOf_nil, List.append_nil]
    obtain ⟨still, undialed'⟩ := so_far.of_step (.of_run made before) (.of_run made before)
      (by rw [seen]; exact .of_run made after) (by rw [seen]; exact .of_run made after)
      (unasked _ (List.mem_append_right _ (List.mem_singleton_self _))) taken
      fun g told => unfilled g (List.mem_append_right _ told)
    refine ⟨still, fun d told => ?_⟩
    rcases List.mem_append.1 told with early | late
    · exact undialed d early
    · exact undialed' d late
  | rest _ _ _ ih => exact ih unasked unfilled

end Abandoned

end CallPool.Pool
