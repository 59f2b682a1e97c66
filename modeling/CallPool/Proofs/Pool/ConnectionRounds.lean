import CallPool.Proofs.Pool.Shedding
import Mathlib.Data.List.Induction

/-!
# Connection rounds

A connection round dials the slots that neither are live nor have a reconnector, once each. Each of
its dials ends for itself, by its own success or failure; the round returns when the last one has
ended. Then every slot that it has dialed has got its connection, or was found live, or has a
reconnector with a whole budget; and the round has touched no other slot
(`rounds_fill_or_staff_vacant_slots`). Nothing is asked of what else happens meanwhile: other rounds may
overlap.
-/

set_option autoImplicit false

namespace CallPool.Pool

variable {options : Options} {start p p' : Pool} {began now : Nat} {older newer : List Moment}
  {first : Moment}

/-! ## Before a round has begun -/

/-- A round takes a ticket. -/
theorem nextTicket_lt_connect (p : Pool) (now : Nat) : p.nextTicket < (p.connect now).1.nextTicket := by
  cases closed : p.closed with
  | true =>
    have shut : p.takeTicket.2.closed = true := closed
    unfold connect
    dsimp only
    rw [if_pos shut]
    exact Nat.lt_succ_self _
  | false =>
    rw [connect_eq closed]
    calc p.nextTicket
        < p.nextTicket + 1 + p.targets.length := Nat.lt_of_lt_of_le (Nat.lt_succ_self _) (Nat.le_add_right _ _)
      _ = (p.beginRound now).nextTicket := rfl
      _ ≤ ((p.beginRound now).settleRound now p.nextTicket).1.nextTicket :=
        (Bookkeeping.settleRound (p.beginRound now) now p.nextTicket).nextTicket_le

/-- Nothing is told of a round that has not begun. -/
theorem unbegun_of_run {moments : List Moment} (made : Pool.new options = .ok start)
    (run : Run start began moments now p) : ∀ t, p.nextTicket ≤ t →
      Over t p ∧ ∀ e ∈ eventsOf moments, e.isRound t = false := by
  induction run with
  | start =>
    intro t _
    have fresh := Fresh.of_new made
    refine ⟨⟨?_, ?_⟩, List.forall_mem_nil _⟩
    · rw [fresh.rounds]
      rfl
    · rw [fresh.dials]
      rfl
  | @act moments now p p' a es past taken ih =>
    intro t unborn
    have earlier : p.nextTicket ≤ t := Nat.le_trans (Serves.of_step taken).nextTicket_le unborn
    obtain ⟨absent, quiet⟩ := ih t earlier
    have other : a = .connect → p.nextTicket ≠ t := by
      rintro rfl same
      obtain ⟨rfl, _⟩ := eq_of_taken taken
      exact Nat.not_lt_of_le unborn (same ▸ nextTicket_lt_connect p now)
    have move := RoundMove.of_step (Seated.of_run made past) (Ledger.of_run made past).dials_nodup other taken
    have silent : Over t p' ∧ ∀ e ∈ es, e.isRound t = false := by
      cases move with
      | bystands h => exact ⟨absent.of_bystands h, h.quiet⟩
      | drops absent' quiet => exact ⟨absent', quiet⟩
      | @concludes _ d _ _ _ member owner _ =>
        have listed : d ∈ p.dials.filter (Dial.isIn t) := List.mem_filter.2 ⟨member, Dial.isIn_iff.2 owner⟩
        rw [absent.dials] at listed
        cases listed
    refine ⟨silent.1, fun e member => ?_⟩
    rw [eventsOf_append, eventsOf_cons, eventsOf_nil, List.append_nil] at member
    rcases List.mem_append.1 member with early | late
    · exact quiet e early
    · exact silent.2 e late
  | rest _ _ _ ih => exact ih

/-! ## Once a round has begun -/

/-- What is known of the pool at a moment behind the start of a round, and of its action. -/
theorem roundMove_of_run {front back : List Moment} {m : Moment} (made : Pool.new options = .ok start)
    (run : Run start began (older ++ first :: (front ++ m :: back)) now p)
    (connects : first.action = .connect) : Seated m.before ∧ (m.before.dials.map Dial.ticket).Nodup ∧
      RoundMove first.before.nextTicket m.instant m.before m.action m.events m.after := by
  obtain ⟨past, taken⟩ := run.at_later
  obtain ⟨_, begins, _⟩ := past.at_moment
  have seated := Seated.of_run made past
  have tickets := (Ledger.of_run made past).dials_nodup
  refine ⟨seated, tickets, .of_step seated tickets ?_ taken⟩
  rw [connects] at begins
  obtain ⟨after, _⟩ := eq_of_taken begins
  have given : first.before.nextTicket < first.after.nextTicket := by
    rw [← after]
    exact nextTicket_lt_connect _ _
  exact fun _ => Nat.ne_of_gt (Nat.lt_of_lt_of_le given (Serves.of_run past.behind).nextTicket_le)

/-- A pool that is open at the end of a run was open before and after each of its moments. -/
theorem open_of_run {moments : List Moment} {m : Moment} (made : Pool.new options = .ok start)
    (run : Run start began moments now p) (isOpen : p.closed = false) (member : m ∈ moments) :
    m.before.closed = false ∧ m.after.closed = false := by
  have after : m.after.closed = false := by
    rw [Bool.eq_false_iff]
    intro closed
    rw [closed_of_run made run m member closed] at isOpen
    cases isOpen
  obtain ⟨front, back, rfl⟩ := List.append_of_mem member
  obtain ⟨past, taken, _⟩ := run.at_moment
  refine ⟨?_, after⟩
  rw [Bool.eq_false_iff]
  intro closed
  rw [closed_of_move (.of_step (.of_run made past) taken) closed] at after
  cases after

/-- What the start of a round in an open pool is known to do. -/
theorem connected_of_run (made : Pool.new options = .ok start)
    (run : Run start began (older ++ first :: newer) now p) (connects : first.action = .connect) :
    Over first.before.nextTicket first.before ∧
      first.before.connect first.instant = (first.after, first.events) := by
  obtain ⟨past, taken, _⟩ := run.at_moment
  rw [connects] at taken
  exact ⟨(unbegun_of_run made past _ (Nat.le_refl _)).1, Option.some.inj taken⟩

/-- A round that is started in an open pool has a stage from then on, and begins no dial later. -/
theorem Stage.of_run (made : Pool.new options = .ok start)
    (run : Run start began (older ++ first :: newer) now p) (connects : first.action = .connect)
    (isOpen : first.before.closed = false) :
    Stage first.before.nextTicket (first.before.roundDials first.instant) (first :: newer) p ∧
      dialsIn first.before.nextTicket (eventsOf newer) = [] := by
  induction newer using List.reverseRecOn generalizing now p with
  | nil =>
    obtain ⟨absent, reached⟩ := connected_of_run made run connects
    obtain rfl := run.behind.eq_start
    have seen : eventsOf [first] = first.events := by rw [eventsOf_cons, eventsOf_nil, List.append_nil]
    exact ⟨(Stage.of_connect isOpen absent reached seen).1, rfl⟩
  | append_singleton front m ih =>
    obtain ⟨_, _, move⟩ := roundMove_of_run made run connects
    have whole : older ++ first :: (front ++ [m]) = (older ++ first :: front) ++ [m] := by simp
    rw [whole] at run
    obtain ⟨past, _, rfl⟩ := run.of_concat
    obtain ⟨stage, undialed⟩ := ih past
    obtain ⟨next, _, silent⟩ := stage.extend (.of_roundDials _ _) move
    refine ⟨next, ?_⟩
    rw [eventsOf_append, eventsOf_cons, eventsOf_nil, List.append_nil, dialsIn_append, undialed, silent]
    rfl

/-- When a round returns, all its dials have ended. -/
theorem Settled.of_run {front back : List Moment} {last : Moment} {count : Nat}
    (made : Pool.new options = .ok start)
    (run : Run start began (older ++ first :: newer) now p) (connects : first.action = .connect)
    (isOpen : first.before.closed = false) (cut : first :: newer = front ++ last :: back)
    (told : Event.finished first.before.nextTicket (.ok (.live count)) ∈ last.events) :
    Settled (first.before.roundDials first.instant) (eventsOf (front ++ [last])) last.after count := by
  cases front with
  | nil =>
    obtain ⟨rfl, rfl⟩ := List.cons.inj cut
    obtain ⟨absent, reached⟩ := connected_of_run made run connects
    have seen : eventsOf ([] ++ [first]) = first.events := by
      rw [List.nil_append, eventsOf_cons, eventsOf_nil, List.append_nil]
    exact (Stage.of_connect isOpen absent reached seen).2.1 count told
  | cons m front =>
    obtain ⟨rfl, rfl⟩ := List.cons.inj cut
    obtain ⟨_, _, move⟩ := roundMove_of_run made run connects
    obtain ⟨past, _⟩ := run.at_later
    obtain ⟨stage, _⟩ := Stage.of_run made past connects isOpen
    exact (stage.extend (.of_roundDials _ _) move).2.1 count told

/-! ## What becomes of the slots that are dialed -/

/-- The dial of a slot has succeeded: its connection is in the slot from then on, or it has been closed
because the slot was live already. -/
inductive Provides (p : Pool) (es : List Event) (p' : Pool) (slot : Nat) : Prop
  | installed (vacant : p.isLive slot = false) (told : Event.installed slot p.connections.length ∈ es)
      (held : p'.slots[slot]? = some (some p.connections.length)) (live : p'.isLive slot = true)
  | closed {c : Connection} (occupied : p.isLive slot = true)
      (told : Event.discarded slot p.connections.length ∈ es)
      (found : p'.connections[p.connections.length]? = some c) (dead : c.connected = false)
      (live : p'.isLive slot = true)

section

variable {t : Ticket} {a : Action} {d : Dial} {result : Except Error Unit} {es : List Event}

/-- A dial that ends well has provided for its slot. -/
theorem Provides.of_ending {r : Pool} {front : List Event} (member : d ∈ p.dials)
    (ending : Ending p d a r front (.ok ())) : Provides p (front ++ (r.conclude now d (.ok ())).2)
      (r.conclude now d (.ok ())).1 d.slot := by
  have there : d ∈ r.dials := by
    rw [ending.rest]
    exact member
  have books := Bookkeeping.conclude there now (.ok ())
  cases ending with
  | lands landing =>
    cases landing.arrival with
    | placed _ _ inside vacant installed slots found live _ =>
      have held : (r.conclude now d (.ok ())).1.slots[d.slot]? = some (some p.connections.length) := by
        rw [books.slots, slots, List.getElem?_set_self inside]
      refine .installed vacant (List.mem_append_left _ installed) held (isLive_iff.2 ⟨_, _, held, ?_, live⟩)
      rw [books.connections]
      exact found
    | spare _ _ occupied discarded slots found dead others =>
      obtain ⟨g, c, held, there, live⟩ := isLive_iff.1 occupied
      have below : g < p.connections.length := (List.getElem?_eq_some_iff.1 there).1
      refine .closed occupied (List.mem_append_left _ discarded) (by rw [books.connections]; exact found)
        dead (isLive_iff.2 ⟨g, c, ?_, ?_, live⟩)
      · rw [books.slots, slots]
        exact held
      · rw [books.connections, others g below]
        exact there

/-- A slot that is dialed is one of the pool's that neither is live nor has a reconnector. -/
theorem mem_targets {s : Nat} : s ∈ p.targets ↔
    s < p.slots.length ∧ p.isLive s = false ∧ p.tokenOf? s = none := by
  unfold targets
  rw [List.mem_filter, List.mem_range]
  simp [and_comm]

/-- The members of a list that satisfy something are counted by their places. -/
theorem countP_eq_range {α : Type} (f : α → Bool) (xs : List α) :
    xs.countP f = (List.range xs.length).countP fun i => xs[i]?.any f := by
  induction xs with
  | nil => rfl
  | cons x rest ih =>
    rw [List.length_cons, List.range_succ_eq_map, List.countP_cons, List.countP_cons, List.countP_map, ih]
    rfl

/-- The live slots are counted one by one. -/
theorem liveCount_eq (p : Pool) : p.liveCount = (List.range p.slots.length).countP p.isLive := by
  unfold liveCount held
  rw [List.countP_filterMap, countP_eq_range]
  refine List.countP_congr fun s _ => ?_
  unfold isLive slotConnection?
  cases p.slots[s]? with
  | none => rfl
  | some held =>
    cases held with
    | none => rfl
    | some g => cases found : p.connections[g]? <;> simp [found]

/-- A slot that has a reconnector is entered under a token. -/
theorem exists_tokenOf?_of_mem {s : Nat} {token : Token} (member : (s, token) ∈ p.reconnecting) :
    ∃ token', p.tokenOf? s = some token' ∧ (s, token') ∈ p.reconnecting := by
  unfold tokenOf?
  cases found : p.reconnecting.find? fun e => e.1 = s with
  | none =>
    have other := List.find?_eq_none.1 found _ member
    simp at other
  | some e =>
    have mine : e.1 = s := by simpa using List.find?_some found
    refine ⟨e.2, rfl, ?_⟩
    rw [← mine]
    exact List.mem_of_find?_eq_some found

end

/-! ## The course of a round -/

/-- The dials of a round are those that its start begins, and that begins no other. -/
theorem dialsIn_of_run (made : Pool.new options = .ok start)
    (run : Run start began (older ++ first :: newer) now p) (connects : first.action = .connect)
    (isOpen : first.before.closed = false) :
    dialsIn first.before.nextTicket (eventsOf (older ++ first :: newer)) =
        first.before.roundDials first.instant ∧
      ∀ d, Event.dialed d ∈ first.events ↔ d ∈ first.before.roundDials first.instant := by
  obtain ⟨past, _, _⟩ := run.at_moment
  obtain ⟨absent, reached⟩ := connected_of_run made run connects
  have seen : eventsOf [first] = first.events := by rw [eventsOf_cons, eventsOf_nil, List.append_nil]
  obtain ⟨_, _, begins, only⟩ := Stage.of_connect isOpen absent reached seen
  have before := dialsIn_of_quiet (unbegun_of_run made past _ (Nat.le_refl _)).2
  have behind := (Stage.of_run made run connects isOpen).2
  refine ⟨?_, fun d => ⟨only d, fun member => ?_⟩⟩
  · rw [eventsOf_append, eventsOf_cons, dialsIn_append, dialsIn_append, before, behind, begins]
    simp
  · rw [← begins] at member
    obtain ⟨e, told, same⟩ := List.mem_filterMap.1 member
    cases e with
    | dialed x =>
      simp only [Event.dialIn?, Option.ite_none_right_eq_some, Option.some.injEq] at same
      rw [← same.2]
      exact told
    | _ => cases same

/-- A dial of a round has ended at a moment: what is known of the pool before it, and what is done. -/
structure EndsAt (t : Ticket) (dials : List Dial) (d : Dial) (result : Except Error Unit) (m : Moment) :
    Prop where
  seated : Seated m.before
  tickets : (m.before.dials.map Dial.ticket).Nodup
  underway : ∃ past, Underway t dials past m.before
  member : d ∈ m.before.dials
  ending : ∃ r front, Ending m.before d m.action r front result ∧
    m.after = (r.conclude m.instant d result).1 ∧ m.events = front ++ (r.conclude m.instant d result).2

/-- A dial of a round that is told to have ended has ended at that moment. -/
theorem EndsAt.of_run {m : Moment} {d : Dial} {result : Except Error Unit}
    (made : Pool.new options = .ok start) (run : Run start began (older ++ first :: newer) now p)
    (connects : first.action = .connect) (isOpen : first.before.closed = false) (member : m ∈ newer)
    (mine : d ∈ first.before.roundDials first.instant) (told : Event.dialEnded d result ∈ m.events) :
    EndsAt first.before.nextTicket (first.before.roundDials first.instant) d result m := by
  obtain ⟨front, back, rfl⟩ := List.append_of_mem member
  obtain ⟨seated, tickets, _⟩ := roundMove_of_run made run connects
  obtain ⟨past, taken⟩ := run.at_later
  obtain ⟨stage, _⟩ := Stage.of_run made past connects isOpen
  have owner := (Lineup.of_roundDials first.before first.instant).owner d mine
  obtain ⟨there, ending⟩ := Ending.of_told seated taken told
  exact ⟨seated, tickets, ⟨_, stage.underway_of_dial there owner⟩, there, ending⟩

namespace EndsAt

variable {t : Ticket} {dials : List Dial} {d : Dial} {result : Except Error Unit} {m : Moment} {s : Nat}

/-- The end of a dial touches the slots that its round dials only. -/
theorem untouched (h : EndsAt t dials d result m) (lineup : Lineup t dials) (mine : d ∈ dials)
    (apart : s ∉ dials.map Dial.slot) : Untouched s m.before m.after := by
  obtain ⟨past, underway⟩ := h.underway
  obtain ⟨r, front, ending, after, _⟩ := h.ending
  rw [after]
  exact .of_ended underway lineup h.seated h.tickets h.member (lineup.owner d mine) ending apart

/-- The end of a dial ends no other dial. -/
theorem dials_eq (h : EndsAt t dials d result m) (owner : d.owner = .round t) :
    m.after.dials = m.before.dials.filter fun e => e.ticket ≠ d.ticket := by
  obtain ⟨r, front, ending, after, _⟩ := h.ending
  have same : r.dials = m.before.dials := by rw [ending.rest]
  rw [after, conclude_of_round owner, dials_settleRound, ← same]
  rfl

/-- The end of a dial leaves the other slots as they are, and its own if it fails. -/
theorem slot_eq (h : EndsAt t dials d result m) (apart : s ≠ d.slot ∨ result.isOk = false) :
    m.after.slots[s]? = m.before.slots[s]? ∧ m.after.slotConnection? s = m.before.slotConnection? s := by
  obtain ⟨r, front, ending, after, _⟩ := h.ending
  obtain ⟨slot, connection⟩ := ending.slot_eq h.seated apart
  have there : d ∈ r.dials := by
    rw [ending.rest]
    exact h.member
  have books := Bookkeeping.conclude there m.instant result
  have same : m.after.slotConnection? s = r.slotConnection? s := by
    unfold slotConnection?
    rw [after, books.slots, books.connections]
  refine ⟨?_, same.trans connection⟩
  rw [after, books.slots]
  exact slot

/-- A dial that succeeds has provided for its slot. -/
theorem provides (h : EndsAt t dials d (.ok ()) m) : Provides m.before m.events m.after d.slot := by
  obtain ⟨r, front, ending, after, events⟩ := h.ending
  rw [after, events]
  exact .of_ending h.member ending

end EndsAt

/-- The start of a round touches the slots that it dials only. -/
theorem untouched_of_start (made : Pool.new options = .ok start)
    (run : Run start began (older ++ first :: newer) now p) (connects : first.action = .connect)
    (isOpen : first.before.closed = false) {s : Nat}
    (apart : s ∉ (first.before.roundDials first.instant).map Dial.slot) :
    Untouched s first.before first.after := by
  obtain ⟨absent, reached⟩ := connected_of_run made run connects
  rw [connect_eq isOpen] at reached
  obtain ⟨after, _⟩ := Prod.mk.inj reached
  rw [← after]
  exact (Untouched.of_beginRound apart).trans (.of_settleRound (.of_beginRound _ absent) apart)

/-- The start of a round ends no dial. -/
theorem dialEnded_not_mem_start (run : Run start began (older ++ first :: newer) now p)
    (connects : first.action = .connect) (d : Dial) (result : Except Error Unit) :
    Event.dialEnded d result ∉ first.events := by
  obtain ⟨_, taken, _⟩ := run.at_moment
  have unended : first.action.ends? = none := by rw [connects]; rfl
  exact dialEnded_not_mem_of_step unended taken

/-- A pool keeps as many slots as its options ask for. -/
theorem slots_length_of_run {moments : List Moment} (made : Pool.new options = .ok start)
    (run : Run start began moments now p) : p.slots.length = options.poolSize := by
  rw [(Housed.of_run made run).size, options_of_run made run]

/-- A round dials the slots that at its start neither are live nor have a reconnector. -/
theorem mem_slots_roundDials_of_run {moments : List Moment} {instant s : Nat}
    (made : Pool.new options = .ok start) (run : Run start began moments now p) :
    s ∈ (p.roundDials instant).map Dial.slot ↔
      s < options.poolSize ∧ p.isLive s = false ∧ p.tokenOf? s = none := by
  rw [slots_roundDials, mem_targets, slots_length_of_run made run]

/-- A slot that a round has dialed and that has a reconnector has got it since the round began. -/
theorem recruited_of_run {front back : List Moment} {last : Moment} {s : Nat}
    (made : Pool.new options = .ok start) (run : Run start began (older ++ first :: newer) now p)
    (cut : first :: newer = front ++ last :: back) (vacant : first.before.tokenOf? s = none)
    (staffed : ∃ token, (s, token) ∈ last.after.reconnecting) :
    ∃ r, Event.recovering r ∈ eventsOf (front ++ [last]) ∧ r.slot = s ∧ r.Fresh options ∧
      last.after.tokenOf? s = some r.token := by
  obtain ⟨past, _, _⟩ := run.at_moment
  have since := run.onwards
  rw [cut] at since
  obtain ⟨_, _, _, upto, _⟩ := since.at_moment
  obtain ⟨token, there⟩ := staffed
  obtain ⟨token, found, there⟩ := exists_tokenOf?_of_mem there
  rcases enrolls_of_run made past upto _ there with older | ⟨r, told, mine, fresh⟩
  · obtain ⟨_, known, _⟩ := exists_tokenOf?_of_mem older
    rw [vacant] at known
    cases known
  · rw [options_of_run made past] at fresh
    obtain ⟨slot, held⟩ := Prod.mk.inj mine
    exact ⟨r, told, slot, fresh, by rw [found, held]⟩

/-- In an open pool a dial of a round succeeds exactly if it opens a connection that is not lost on the
way. -/
theorem isOk_iff_of_run {m : Moment} {d : Dial} {result : Except Error Unit}
    (made : Pool.new options = .ok start) (run : Run start began (older ++ first :: newer) now p)
    (connects : first.action = .connect) (isOpen : p.closed = false) (member : m ∈ newer)
    (mine : d ∈ first.before.roundDials first.instant) (told : Event.dialEnded d result ∈ m.events) :
    result.isOk = true ↔ m.action = .dialSucceeds d.ticket false := by
  have was_open := (open_of_run made run isOpen (List.mem_append_right _ List.mem_cons_self)).1
  have open_then :=
    (open_of_run made run isOpen (List.mem_append_right _ (List.mem_cons_of_mem _ member))).1
  obtain ⟨_, _, ending, _⟩ := (EndsAt.of_run made run connects was_open member mine told).ending
  obtain ⟨front, back, rfl⟩ := List.append_of_mem member
  obtain ⟨past, _, _⟩ := run.at_moment
  obtain ⟨upto, _⟩ := run.at_later
  have target := (mem_slots_roundDials_of_run made past).1 (List.mem_map_of_mem mine)
  have inside : d.slot < m.before.slots.length := by
    rw [slots_length_of_run made upto]
    exact target.1
  exact ending.isOk_iff open_then inside

/-- The moment of a round at which one of its dials ends lies behind its start. -/
theorem mem_newer_of_dialEnded {front back : List Moment} {m last : Moment} {d : Dial}
    {result : Except Error Unit} (run : Run start began (older ++ first :: newer) now p)
    (connects : first.action = .connect) (cut : first :: newer = front ++ last :: back)
    (member : m ∈ front ++ [last]) (told : Event.dialEnded d result ∈ m.events) : m ∈ newer := by
  have listed : m ∈ first :: newer := by
    rw [cut, List.append_cons]
    exact List.mem_append_left _ member
  rcases List.mem_cons.1 listed with rfl | later
  · exact absurd told (dialEnded_not_mem_start run connects d result)
  · exact later

/-- When a round of an open pool returns, each of its dials has ended: with its connection in the slot, or
with a reconnector for it that has been started since the round began. -/
theorem fate_of_run {front back : List Moment} {last : Moment} {count : Nat} {d : Dial}
    (made : Pool.new options = .ok start) (run : Run start began (older ++ first :: newer) now p)
    (connects : first.action = .connect) (isOpen : p.closed = false)
    (cut : first :: newer = front ++ last :: back)
    (told : Event.finished first.before.nextTicket (.ok (.live count)) ∈ last.events)
    (mine : d ∈ first.before.roundDials first.instant) :
    ∃ m ∈ front ++ [last], ∃ result, Event.dialEnded d result ∈ m.events ∧
      (m.action = .dialSucceeds d.ticket false → Provides m.before m.events m.after d.slot) ∧
      (m.action ≠ .dialSucceeds d.ticket false → ∃ r, Event.recovering r ∈ eventsOf (front ++ [last]) ∧
        r.slot = d.slot ∧ r.Fresh options ∧ last.after.tokenOf? d.slot = some r.token) := by
  have was_open := (open_of_run made run isOpen (List.mem_append_right _ List.mem_cons_self)).1
  have listed : last ∈ first :: newer := by
    rw [cut]
    exact List.mem_append_right _ List.mem_cons_self
  have still_open := (open_of_run made run isOpen (List.mem_append_right _ listed)).2
  have settled := Settled.of_run made run connects was_open cut told
  obtain ⟨result, ended⟩ := Option.isSome_iff_exists.1 (settled.ended d mine)
  obtain ⟨m, member, seen⟩ := mem_eventsOf.1 (mem_of_endOf? ended)
  have behind := mem_newer_of_dialEnded run connects cut member seen
  have succeeds := isOk_iff_of_run made run connects isOpen behind mine seen
  refine ⟨m, member, result, seen, fun succeeded => ?_, fun failed => ?_⟩
  · cases result with
    | error _ => cases succeeds.2 succeeded
    | ok _ => exact (EndsAt.of_run made run connects was_open behind mine seen).provides
  · have unfilled : d.slot ∈ failedSlots (first.before.roundDials first.instant)
        (eventsOf (front ++ [last])) := by
      refine List.mem_map.2 ⟨d, List.mem_filter.2 ⟨mine, ?_⟩, rfl⟩
      rw [ended]
      simpa using mt succeeds.1 failed
    obtain ⟨past, _, _⟩ := run.at_moment
    have vacant := ((mem_slots_roundDials_of_run made past).1 (List.mem_map_of_mem mine)).2.2
    exact recruited_of_run made run cut vacant (settled.recovering still_open _ unfilled)

/-- A round has returned, or its caller has been dropped, or one of its dials is under way. -/
theorem returned_or_dropped_or_dialing (made : Pool.new options = .ok start)
    (run : Run start began (older ++ first :: newer) now p) (connects : first.action = .connect)
    (isOpen : first.before.closed = false) :
    (∃ count, Event.finished first.before.nextTicket (.ok (.live count)) ∈ eventsOf (first :: newer)) ∨
      (∃ m ∈ newer, m.action = .cancel first.before.nextTicket) ∨
      ∃ d ∈ first.before.roundDials first.instant, d ∈ p.dials := by
  cases (Stage.of_run made run connects isOpen).1 with
  | waits underway waiting =>
    obtain ⟨d, mine, unended⟩ := waiting
    have there : d ∈ p.dials.filter (Dial.isIn first.before.nextTicket) := by
      rw [underway.dials]
      exact List.mem_filter.2 ⟨mine, Option.isNone_iff_eq_none.2 unended⟩
    exact .inr (.inr ⟨d, mine, List.mem_of_mem_filter there⟩)
  | returned _ told => exact .inl ⟨_, told⟩
  | @dropped m _ member cancels =>
    rcases List.mem_cons.1 member with rfl | later
    · rw [connects] at cancels
      cases cancels
    · exact .inr (.inl ⟨m, later, cancels⟩)

/-- In every run of a pool that stays open, a connection round with whatever else overlapping it: it starts
one dial for each slot that at its start neither is live nor has a reconnector, and no other dial. Its
start and the ends of its dials leave every other slot as it is. The end of a dial ends no other dial and
changes no other slot, nor its own if it fails; and it succeeds exactly if it opens a connection that is
not lost on the way. When the round returns each of its dials has ended: one that succeeded has its
connection in the slot, or found the slot live and closed its connection; a slot whose dial failed has
a reconnector, which has been started since the round began with its whole budget. The number that is
returned is that of the slots that are live then. Until a round returns, or its caller is dropped, one
of its dials is under way. -/
theorem rounds_fill_or_staff_vacant_slots (made : Pool.new options = .ok start)
    (run : Run start began (older ++ first :: newer) now p) (connects : first.action = .connect)
    (isOpen : p.closed = false) :
    let t := first.before.nextTicket
    let dials := dialsIn t (eventsOf (older ++ first :: newer))
    ((∀ d, Event.dialed d ∈ first.events ↔ d ∈ dials) ∧ (dials.map Dial.slot).Nodup ∧
      ∀ s, s ∈ dials.map Dial.slot ↔ s < options.poolSize ∧ first.before.isLive s = false ∧
        first.before.tokenOf? s = none) ∧
    (∀ m, m = first ∨ m ∈ newer ∧ (∃ d ∈ dials, ∃ result, Event.dialEnded d result ∈ m.events) →
      ∀ s, s ∉ dials.map Dial.slot → Untouched s m.before m.after) ∧
    (∀ m ∈ newer, ∀ d ∈ dials, ∀ result, Event.dialEnded d result ∈ m.events →
      (result.isOk = true ↔ m.action = .dialSucceeds d.ticket false) ∧
      m.after.dials = m.before.dials.filter (fun e => e.ticket ≠ d.ticket) ∧
      ∀ s, s ≠ d.slot ∨ result.isOk = false → m.after.slots[s]? = m.before.slots[s]? ∧
        m.after.slotConnection? s = m.before.slotConnection? s) ∧
    (∀ front last back count, first :: newer = front ++ last :: back →
      Event.finished t (.ok (.live count)) ∈ last.events →
      count = (List.range options.poolSize).countP last.after.isLive ∧
      ∀ d ∈ dials, ∃ m ∈ front ++ [last], ∃ result, Event.dialEnded d result ∈ m.events ∧
        (m.action = .dialSucceeds d.ticket false → Provides m.before m.events m.after d.slot) ∧
        (m.action ≠ .dialSucceeds d.ticket false → ∃ r, Event.recovering r ∈ eventsOf (front ++ [last]) ∧
          r.slot = d.slot ∧ r.Fresh options ∧ last.after.tokenOf? d.slot = some r.token)) ∧
    ((∃ count, Event.finished t (.ok (.live count)) ∈ eventsOf (first :: newer)) ∨
      (∃ m ∈ newer, m.action = .cancel t) ∨ ∃ d ∈ dials, d ∈ p.dials) := by
  have was_open := (open_of_run made run isOpen (List.mem_append_right _ List.mem_cons_self)).1
  have lineup := Lineup.of_roundDials first.before first.instant
  obtain ⟨past, _, _⟩ := run.at_moment
  obtain ⟨begun, only⟩ := dialsIn_of_run made run connects was_open
  intro t dials
  have dials_eq : dials = first.before.roundDials first.instant := begun
  clear_value dials
  subst dials_eq
  refine ⟨⟨only, lineup.slots, fun _ => mem_slots_roundDials_of_run made past⟩, ?_, ?_, ?_,
    returned_or_dropped_or_dialing made run connects was_open⟩
  · rintro m (rfl | ⟨member, d, mine, result, told⟩) s apart
    · exact untouched_of_start made run connects was_open apart
    · exact (EndsAt.of_run made run connects was_open member mine told).untouched lineup mine apart
  · intro m member d mine result told
    have ended := EndsAt.of_run made run connects was_open member mine told
    exact ⟨isOk_iff_of_run made run connects isOpen member mine told, ended.dials_eq (lineup.owner d mine),
      fun s apart => ended.slot_eq apart⟩
  · intro front last back count cut told
    have settled := Settled.of_run made run connects was_open cut told
    have since : older ++ first :: newer = (older ++ front) ++ last :: back := by
      rw [cut, List.append_assoc]
    have whole := run
    rw [since] at whole
    obtain ⟨_, _, _, upto, _⟩ := whole.at_moment
    refine ⟨?_, fun d mine => fate_of_run made run connects isOpen cut told mine⟩
    rw [settled.count, liveCount_eq, slots_length_of_run made upto]

/-- The number of live connections that a caller ends with, with the ticket of the caller. -/
def Event.returned? : Event → Option (Ticket × Nat)
  | .finished t (.ok (.live count)) => some (t, count)
  | _ => none

/-- A pool of four slots whose reconnectors have one attempt. -/
def fourSlots : Options := { Options.default with poolSize := 4, maxReconnectAttempts := 1 }

/-- A round begins when the first slot is live and the second one has a reconnector. Of its two dials one
succeeds and the other one fails. -/
def mixedRound : List (Nat × Action) := [
  (0, .fill 0 none), (0, .fill 1 none), (1, .dialSucceeds 1 false), (1, .dialSucceeds 3 false),
  (2, .connection 1 (.receive .close)), (2, .supervise), (3, .connect), (4, .dialSucceeds 7 false),
  (5, .dialFails 6 (.described "refused"))]

/-- A round that is listed as returned is told to have returned. -/
theorem mem_of_returned? {es : List Event} {t : Ticket} {count : Nat}
    (listed : (t, count) ∈ es.filterMap Event.returned?) :
    Event.finished t (.ok (.live count)) ∈ es := by
  obtain ⟨e, member, same⟩ := List.mem_filterMap.1 listed
  unfold Event.returned? at same
  split at same
  · obtain ⟨rfl, rfl⟩ := Prod.mk.inj (Option.some.inj same)
    exact member
  · cases same

/-- The run of the round, cut where it begins. It returns in the last moment, with the failure of its
second dial. -/
theorem exists_run_of_mixedRound : ∃ start older first middle last p, Pool.new fourSlots = .ok start ∧
    Run start 0 (older ++ first :: [middle, last]) 5 p ∧ p.closed = false ∧
      (first.action = .connect ∧ middle.action = .dialSucceeds 7 false ∧
        last.action = .dialFails 6 (.described "refused")) ∧
      (first.before.isLive 0 = true ∧ first.before.tokenOf? 1 = some 1 ∧ first.before.nextTicket = 5) ∧
      (dialsIn 5 (eventsOf (older ++ first :: [middle, last]))).map (fun d => (d.ticket, d.slot)) =
        [(6, 2), (7, 3)] ∧
      Event.finished 5 (.ok (.live 2)) ∈ last.events := by
  have played : (Pool.new fourSlots).toOption.bind (fun start =>
      (History.play step start mixedRound).map fun r => decide (
        (r.1[6]?.map fun m => (m.before.isLive 0, m.before.tokenOf? 1, m.before.nextTicket)) =
          some (true, some 1, 5) ∧
        (dialsIn 5 (eventsOf r.1)).map (fun d => (d.ticket, d.slot)) = [(6, 2), (7, 3)] ∧
        (r.1[8]?.map fun m => m.events.filterMap Event.returned?) = some [(5, 2)] ∧
        r.1.length = 9 ∧ r.2.closed = false)) = some true := by decide
  obtain ⟨start, moments, p, made, went, computed⟩ := exists_play_of_script played
  have ordered : History.inOrder 0 mixedRound = true := by decide
  have run : Run start 0 moments 5 p := History.of_play went ordered
  obtain ⟨before, dials, told, nine, isOpen⟩ := of_decide_eq_true computed
  obtain ⟨first, there, before⟩ := Option.map_eq_some_iff.1 before
  obtain ⟨last, last_there, told⟩ := Option.map_eq_some_iff.1 told
  have there : moments[6]? = some first := there
  have last_there : moments[8]? = some last := last_there
  obtain ⟨middle, middle_there⟩ : ∃ middle, moments[7]? = some middle :=
    ⟨_, List.getElem?_eq_getElem (show 7 < moments.length by rw [nine]; decide)⟩
  have behind : moments.drop 7 = [middle, last] := by
    rw [drop_at middle_there, drop_at last_there, List.drop_eq_nil_of_le (Nat.le_of_eq nine)]
  have cut : moments = moments.take 6 ++ first :: [middle, last] := by
    rw [← behind]
    exact cut_at there
  refine ⟨start, moments.take 6, first, middle, last, p, made, cut ▸ run, isOpen,
    ⟨(History.moment_of_play went there rfl).2, (History.moment_of_play went middle_there rfl).2,
      (History.moment_of_play went last_there rfl).2⟩, by simpa using before, cut ▸ dials,
    mem_of_returned? ?_⟩
  rw [told]
  exact List.mem_singleton_self _

/-- The round dials the two other slots. It returns that two slots are live, and has started a
reconnector for the slot whose dial failed. -/
theorem returned_of_mixedRound : ∃ start older first newer now p, Pool.new fourSlots = .ok start ∧
    Run start 0 (older ++ first :: newer) now p ∧ first.action = .connect ∧ p.closed = false ∧
      first.before.isLive 0 = true ∧ first.before.tokenOf? 1 = some 1 ∧
      (dialsIn first.before.nextTicket (eventsOf (older ++ first :: newer))).map Dial.slot = [2, 3] ∧
      Event.finished first.before.nextTicket (.ok (.live 2)) ∈ eventsOf newer ∧
      (List.range 4).countP p.isLive = 2 ∧
      ∃ r, Event.recovering r ∈ eventsOf (first :: newer) ∧ r.slot = 2 ∧ r.Fresh fourSlots ∧
        p.tokenOf? 2 = some r.token := by
  obtain ⟨start, older, first, middle, last, p, made, run, isOpen, ⟨connects, succeeds, fails⟩,
    ⟨live, token, ticket⟩, dials, returned⟩ := exists_run_of_mixedRound
  rw [← ticket] at dials returned
  have reached : p = last.after := by
    have cut : older ++ first :: [middle, last] = (older ++ [first, middle]) ++ [last] := by simp
    rw [cut] at run
    exact run.of_concat.2.2
  obtain ⟨_, _, _, returns, _⟩ := rounds_fill_or_staff_vacant_slots made run connects isOpen
  obtain ⟨count, fates⟩ := returns [first, middle] last [] 2 rfl returned
  obtain ⟨d, mine, known⟩ : ∃ d ∈ dialsIn first.before.nextTicket
      (eventsOf (older ++ first :: [middle, last])), (d.ticket, d.slot) = (6, 2) := by
    refine List.mem_map.1 ?_
    rw [dials]
    exact List.mem_cons_self
  obtain ⟨number, slot⟩ := Prod.mk.inj known
  obtain ⟨m, member, _, _, _, staffed⟩ := fates d mine
  have unsuccessful : m.action ≠ .dialSucceeds d.ticket false := by
    rw [number]
    simp only [List.cons_append, List.nil_append, List.mem_cons, List.not_mem_nil, or_false] at member
    rcases member with rfl | rfl | rfl
    · simp [connects]
    · simp [succeeds]
    · simp [fails]
  obtain ⟨r, recovering, r_slot, fresh, held⟩ := staffed unsuccessful
  rw [slot] at r_slot held
  have slots := congrArg (List.map Prod.snd) dials
  rw [List.map_map] at slots
  refine ⟨start, older, first, [middle, last], 5, p, made, run, connects, isOpen, live, token, slots, ?_,
    ?_, r, recovering, r_slot, fresh, ?_⟩
  · rw [eventsOf_cons, eventsOf_cons]
    exact List.mem_append_right _ (List.mem_append_left _ returned)
  · rw [reached, count]
    rfl
  · rw [reached]
    exact held

end CallPool.Pool
