import CallPool.Proofs.Pool.Closing
import CallPool.Proofs.Pool.Relaying
import Mathlib.Data.Int.CardIntervalMod
import Mathlib.Data.List.Rotate

/-!
# Connections that are equally busy take turns

As long as the loads of a pool stay as they are, so do the connections that are tied, and each
selection takes the one at the place that the cursor tells and moves the cursor on
(`selection_of_step`). So selections go round the tied connections in the order of their slots
(`GoesRound`), wherever the cursor stands and whatever slots lie between: of as many selections as
there are connections each gets one, and over any number of selections no connection gets two more
than another.

Main statement: `ties_take_turns`.
-/

set_option autoImplicit false

namespace CallPool.Pool

/-! ## Going round -/

/-- What is taken goes round a ring, from a place on. -/
def GoesRound (ring : List Nat) (place : Nat) (taken : List Nat) : Prop :=
  ∀ i < taken.length, taken[i]? = ring[(place + i) % ring.length]?

namespace GoesRound

variable {ring taken : List Nat} {place g g' : Nat}

/-- Nothing goes round. -/
theorem nil (ring : List Nat) (place : Nat) : GoesRound ring place [] := by simp [GoesRound]

/-- One more goes round if it stands at the next place. -/
theorem concat_iff : GoesRound ring place (taken ++ [g]) ↔
    GoesRound ring place taken ∧ ring[(place + taken.length) % ring.length]? = some g := by
  unfold GoesRound
  rw [List.length_append, List.length_singleton]
  constructor
  · intro round
    constructor
    · intro i inside
      rw [← round i (by omega), List.getElem?_append_left inside]
    · rw [← round taken.length (by omega)]
      simp
  · rintro ⟨round, next⟩ i inside
    rcases Nat.lt_succ_iff_lt_or_eq.1 inside with earlier | rfl
    · rw [List.getElem?_append_left earlier, round i earlier]
    · rw [next]
      simp

/-- As many as there are in the ring are all of it, from some place on. -/
theorem window (round : GoesRound ring place taken) {i : Nat} (enough : i + ring.length ≤ taken.length) :
    (taken.drop i).take ring.length = ring.rotate (place + i) := by
  refine List.ext_getElem? fun k => ?_
  by_cases inside : k < ring.length
  · rw [List.getElem?_take_of_lt inside, List.getElem?_drop, round (i + k) (by omega),
      List.getElem?_rotate inside]
    congr 2
    omega
  · rw [List.getElem?_eq_none (by rw [List.length_take]; omega),
      List.getElem?_eq_none (by rw [List.length_rotate]; omega)]

/-- Of a ring of more than one no two that follow each other are the same. -/
theorem ne_next (round : GoesRound ring place taken) (once : ring.Nodup) (several : 1 < ring.length)
    {i : Nat} (this : taken[i]? = some g) (next : taken[i + 1]? = some g') : g ≠ g' := by
  rintro rfl
  obtain ⟨inside, _⟩ := List.getElem?_eq_some_iff.1 next
  rw [round i (by omega)] at this
  rw [round (i + 1) inside] at next
  have same : (place + (i + 1)) ≡ place + i [MOD ring.length] :=
    (List.getElem?_inj (Nat.mod_lt _ (by omega)) once).1 (next.trans this.symm)
  rw [← Nat.add_assoc] at same
  have divides := (Nat.modEq_zero_iff_dvd).1 (Nat.ModEq.add_left_cancel' (place + i) (b := 0) same)
  exact Nat.not_dvd_of_pos_of_lt Nat.one_pos several divides

/-- One in a ring is taken when it is its turn. -/
theorem count_eq (round : GoesRound ring place taken) (once : ring.Nodup) {j : Nat}
    (there : ring[j]? = some g) :
    taken.count g = Nat.count (fun i => (place + i) ≡ j [MOD ring.length]) taken.length := by
  obtain ⟨inside, _⟩ := List.getElem?_eq_some_iff.1 there
  induction taken using List.reverseRecOn with
  | nil => rfl
  | append_singleton front last ih =>
    obtain ⟨earlier, turn⟩ := concat_iff.1 round
    rw [List.count_append, ih earlier, List.length_append, List.length_singleton, Nat.count_succ]
    have mine : last = g ↔ place + front.length ≡ j [MOD ring.length] := by
      have place_lt := Nat.mod_lt (place + front.length) (Nat.zero_lt_of_lt inside)
      unfold Nat.ModEq
      rw [Nat.mod_eq_of_lt inside]
      constructor
      · rintro rfl
        exact (List.getElem?_inj place_lt once).1 (turn.trans there.symm)
      · intro same
        rw [same, there] at turn
        exact (Option.some.inj turn).symm
    rw [List.count_singleton]
    simp only [beq_iff_eq, mine]

/-- None in a ring is taken two times more than another. -/
theorem count_le (round : GoesRound ring place taken) (once : ring.Nodup) (member : g ∈ ring)
    (member' : g' ∈ ring) : taken.count g ≤ taken.count g' + 1 := by
  obtain ⟨j, there⟩ := List.mem_iff_getElem?.1 member
  obtain ⟨j', there'⟩ := List.mem_iff_getElem?.1 member'
  obtain ⟨inside, _⟩ := List.getElem?_eq_some_iff.1 there
  obtain ⟨inside', _⟩ := List.getElem?_eq_some_iff.1 there'
  have some : 0 < ring.length := Nat.zero_lt_of_lt inside
  -- What is taken from a place on is what is taken from the beginning on, less what is taken before.
  have turns := fun v => Nat.count_add (· ≡ v [MOD ring.length]) place taken.length
  simp only [Nat.count_modEq_card _ some] at turns
  have mine := turns j
  have other := turns j'
  rw [Nat.mod_eq_of_lt inside] at mine
  rw [Nat.mod_eq_of_lt inside'] at other
  rw [round.count_eq once there, round.count_eq once there']
  split_ifs at mine other <;> omega

end GoesRound

/-! ## Selections -/

/-- Whether an action selects a connection, to use it or to hand it out. -/
def Action.selects : Action → Bool
  | .choose => true
  | .call _ _ _ => true
  | .send _ => true
  | _ => false

/-- The connection that is selected in a moment: the one that is handed out, or that a request is passed
on to. -/
def selected? (m : Moment) : Option Nat :=
  match m.action with
  | .choose => m.before.choose?.map Prod.fst
  | .call _ _ _ => (relayedIn m.events).head?.map Relay.generation
  | .send _ => (relayedIn m.events).head?.map Relay.generation
  | _ => none

/-- The connections that are selected in some moments, in order. -/
def selectionsIn (ms : List Moment) : List Nat := ms.filterMap selected?

/-- One more moment is one more selection, if it selects. -/
theorem selectionsIn_concat (ms : List Moment) (m : Moment) :
    selectionsIn (ms ++ [m]) = selectionsIn ms ++ (selected? m).toList := by
  unfold selectionsIn
  rw [List.filterMap_append]
  cases selected : selected? m <;> simp [selected]

section Step

variable {p p' : Pool} {now : Nat} {a : Action} {es : List Event}

/-- Who passes a command on selects a connection for it. -/
theorem selects_of_passed {x : Connection.Action} (asks : a.passed? = some x) : a.selects = true := by
  cases a <;> first | rfl | cases asks

/-- A connection that acts does not move the cursor. -/
theorem cursor_of_stepConnection {g : Nat} {x : Connection.Action}
    (went : p.stepConnection now g x = some (p', es)) : p'.cursor = p.cursor := by
  obtain ⟨_, _, _, _, _, absorbs⟩ := exists_of_stepConnection went
  rw [absorbs.rest]
  rfl

/-- A caller that is dropped does not move the cursor. -/
theorem cursor_cancel (p : Pool) (now : Nat) (t : Ticket) : (p.cancel now t).1.cursor = p.cursor := by
  have closing : ((p.dropWork t).dropClosing t).cursor = p.cursor := by
    rw [dropClosing_rest]
    rfl
  have dropped := CallDropped.of_cancel p now t
  generalize p.cancel now t = r at dropped ⊢
  obtain ⟨q, es⟩ := r
  cases dropped with
  | absent _ => exact closing
  | ended _ _ _ => exact closing
  | cancelled _ _ went => exact (cursor_of_stepConnection went).trans closing

/-- Only a selection moves the cursor. -/
theorem cursor_of_step (idle : a.selects = false) (taken : p.step now a = some (p', es)) :
    p'.cursor = p.cursor := by
  have unasked : ∀ x, a.passed? ≠ some x := fun x asks => by cases idle.symm.trans (selects_of_passed asks)
  cases Takes.of_step taken with
  | connects => exact (Bookkeeping.of_deeds (.connect trivial)).cursor
  | dials => rfl
  | joins => rfl
  | chooses => cases idle
  | refuses asks _ => exact absurd asks (unasked _)
  | passes asks _ _ _ => exact absurd asks (unasked _)
  | closes => rw [close_rest]
  | @drops t _ => exact cursor_cancel p now t
  | acts _ went => exact cursor_of_stepConnection went
  | @hears n rest _ _ => exact (Bookkeeping.handleLoss { p with notices := rest } now n).cursor
  | wakes member waking => exact (Bookkeeping.of_deeds (.single (waking.deed member))).cursor
  | opens member _ opening =>
    obtain ⟨⟨_, absorbs, _⟩, _⟩ := id opening
    rw [(Bookkeeping.of_deeds (opening.concludes member)).cursor, install_rest, absorbs.rest]
  | fails member _ _ => exact (Bookkeeping.conclude member now _).cursor
  | finishes _ stopped =>
    rcases stopped with rfl | rfl
    · rfl
    · rw [force_rest]

/-- What becomes of the turn in an action: a selection takes the connection whose turn it is, if any is
live and the pool is open, and moves the cursor on; nothing else does. -/
inductive Turn (p : Pool) (a : Action) (p' : Pool) (selection : Option Nat) : Prop
  | stays (nobody : selection = none) (cursor : p'.cursor = p.cursor)
      (why : a.selects = true → p.tied = [] ∨ p.closed = true)
  | passes {g : Nat} (taken : selection = some g)
      (turn : p.tied[p.cursor.toNat % p.tied.length]? = some g) (cursor : p'.cursor = p.cursor + 1)

/-- A request that is passed on takes the turn. -/
theorem Turn.of_relay {x : Connection.Action} (takes : ∀ c : Connection, ∃ r, c.step now x = some r)
    (taken : p.relay now x = (p', es)) :
    Turn p a p' ((relayedIn es).head?.map Relay.generation) := by
  cases Routing.of_relay takes taken with
  | shut closed reached told =>
    rw [told, reached]
    exact .stays rfl rfl fun _ => .inr closed
  | unserved _ dead reached told =>
    rw [told, reached]
    exact .stays rfl rfl fun _ => .inl (tied_eq_nil_iff.2 dead)
  | @served g c c' events rest _ _ turn _ _ absorbs told =>
    rw [Relaying.relayedIn_of_passes absorbs told, absorbs.rest]
    exact .passes rfl turn rfl

/-- Whatever an action means for the turn is listed. -/
theorem Turn.of_step (taken : p.step now a = some (p', es)) :
    Turn p a p' (selected? ⟨now, a, es, p, p'⟩) := by
  cases a with
  | choose =>
    obtain ⟨rfl, rfl⟩ := eq_of_taken taken
    cases chosen : p.choose? with
    | none =>
      have nobody := tied_eq_nil_iff.2 (choose?_eq_none_iff.1 chosen)
      exact .stays (congrArg (Option.map Prod.fst) chosen) rfl fun _ => .inl nobody
    | some r =>
      obtain ⟨g, q⟩ := r
      obtain ⟨_, turn, rfl⟩ := of_choose? chosen
      exact .passes (congrArg (Option.map Prod.fst) chosen) turn rfl
  | call id command limit => exact .of_relay (fun c => ⟨_, rfl⟩) (Option.some.inj taken)
  | send command => exact .of_relay (fun c => ⟨_, rfl⟩) (Option.some.inj taken)
  | _ => exact .stays rfl (cursor_of_step rfl taken) nofun

end Step

section Run

variable {options : Options} {start p p' : Pool} {began middle now : Nat} {older newer : List Moment}

/-- As long as the loads stay as they are, selections go round the connections that are tied. -/
theorem goesRound_of_run (run : Run p middle newer now p')
    (steady : ∀ m ∈ newer, m.before.loads = p.loads)
    (unwrapped : p.cursor.toNat + (selectionsIn newer).length ≤ 2 ^ 64) :
    GoesRound p.tied p.cursor.toNat (selectionsIn newer) ∧
      p'.cursor.toNat = (p.cursor.toNat + (selectionsIn newer).length) % 2 ^ 64 := by
  induction run with
  | start => exact ⟨.nil _ _, (Nat.mod_eq_of_lt p.cursor.toNat_lt).symm⟩
  | rest _ _ _ ih => exact ih steady unwrapped
  | @act moments instant q q' a es past taken ih =>
    rw [selectionsIn_concat, List.length_append] at unwrapped
    rw [selectionsIn_concat]
    obtain ⟨round, place⟩ := ih (fun m member => steady m (List.mem_append_left _ member)) (by omega)
    have tied : q.tied = p.tied := tied_congr (steady _ List.mem_concat_self)
    cases Turn.of_step taken with
    | stays nobody cursor _ =>
      rw [nobody, Option.toList_none, List.append_nil, cursor]
      exact ⟨round, place⟩
    | @passes g selection turn cursor =>
      rw [selection, Option.toList_some] at unwrapped ⊢
      have inside : p.cursor.toNat + (selectionsIn moments).length < 2 ^ 64 := by
        simp only [List.length_singleton] at unwrapped
        omega
      rw [Nat.mod_eq_of_lt inside] at place
      rw [tied, place] at turn
      refine ⟨GoesRound.concat_iff.2 ⟨round, turn⟩, ?_⟩
      rw [cursor, UInt64.toNat_add, place, List.length_append]
      rfl

/-- No connection stands in two slots. -/
theorem slots_nodup_of_run (made : Pool.new options = .ok start) (past : Run start began older middle p) :
    (p.slots.filterMap id).Nodup := by
  have seated := (Seated.of_run made past).seated
  rw [List.Nodup, List.pairwise_filterMap, List.pairwise_iff_getElem]
  rintro s s' inside inside' before g held g' held' rfl
  obtain ⟨c, found, notice⟩ := seated s g (List.getElem?_eq_some_iff.2 ⟨inside, held⟩)
  obtain ⟨c', found', notice'⟩ := seated s' g (List.getElem?_eq_some_iff.2 ⟨inside', held'⟩)
  obtain rfl : c = c' := Option.some.inj (found.symm.trans found')
  have same : s = s' := congrArg Notice.slot (notice.symm.trans notice')
  omega

/-- In whatever state of a run connections are tied, and wherever the cursor stands: as long as the loads
stay as they are and the cursor does not wrap, each selection takes one of the tied connections, going
round them in the order of their slots. So of any selections in a row that are as many as there are
connections each gets one, no two in a row are the same if there is more than one, and none is ever
selected two times more than another. -/
theorem ties_take_turns (made : Pool.new options = .ok start) (past : Run start began older middle p)
    (cursor : UInt64) (run : Run { p with cursor := cursor } middle newer now p')
    (steady : ∀ m ∈ newer, m.before.loads = p.loads) (tie : p.tied ≠ [])
    (unwrapped : cursor.toNat + (selectionsIn newer).length ≤ 2 ^ 64) :
    (∀ g, g ∈ p.tied ↔ p.LeastBusy g) ∧ p.tied.Nodup ∧ p.tied.Sublist (p.slots.filterMap id) ∧
    (∀ m ∈ newer, m.action.selects = true → selected? m ≠ none) ∧
    (∀ i < (selectionsIn newer).length,
      (selectionsIn newer)[i]? = p.tied[(cursor.toNat + i) % p.tied.length]?) ∧
    (∀ i, i + p.tied.length ≤ (selectionsIn newer).length →
      ((selectionsIn newer).drop i).take p.tied.length = p.tied.rotate (cursor.toNat + i)) ∧
    (1 < p.tied.length → ∀ (i g g' : Nat), (selectionsIn newer)[i]? = some g →
      (selectionsIn newer)[i + 1]? = some g' → g ≠ g') ∧
    ∀ g ∈ p.tied, ∀ g' ∈ p.tied, (selectionsIn newer).count g ≤ (selectionsIn newer).count g' + 1 := by
  have once : p.tied.Nodup := (slots_nodup_of_run made past).sublist p.tied_sublist
  have round : GoesRound p.tied cursor.toNat (selectionsIn newer) :=
    (goesRound_of_run run steady unwrapped).1
  refine ⟨fun g => mem_tied, once, p.tied_sublist, ?_, round, fun i => round.window,
    fun several i g g' => round.ne_next once several, fun g member g' => round.count_le once member⟩
  intro m member selects nobody
  obtain ⟨front, back, rfl⟩ := List.append_of_mem member
  obtain ⟨upto, taken, _⟩ := run.at_moment
  have tied : m.before.tied = p.tied := tied_congr (steady m member)
  cases Turn.of_step taken with
  | passes selection _ _ =>
    rw [show selected? m = some _ from selection] at nobody
    cases nobody
  | stays _ _ why =>
    rcases why selects with none_tied | closed
    · exact tie (tied.symm.trans none_tied)
    · -- A pool that is closed has no connection that could be tied.
      have cleared := Cleared.of_closed (fun closed => ?_) upto closed
      · obtain ⟨g, g_member⟩ := List.exists_mem_of_ne_nil _ (tied.symm ▸ tie)
        obtain ⟨_, ⟨⟨s, held⟩, _⟩, _⟩ := mem_tied.1 g_member
        cases cleared.slots _ (List.mem_of_getElem? held)
      · have shut := Cleared.of_run made past closed
        exact ⟨closed, shut.slots, shut.reconnecting⟩

/-- Connections are opened for four of ten slots. The second is lost and a call waits on the first, so that
the third and the fourth are tied; then a connection is chosen five times, once to send a command. -/
def fiveTurns : List (Nat × Action) := [
  (0, .fill 0 none), (0, .fill 3 none), (0, .fill 5 none), (0, .fill 7 none), (1, .dialSucceeds 1 false),
  (1, .dialSucceeds 3 false), (1, .dialSucceeds 5 false), (1, .dialSucceeds 7 false),
  (2, .connection 1 (.receive .failure)), (3, .call ⟨"a"⟩ .ping (Duration.ofSeconds 2)),
  (4, .choose), (4, .choose), (4, .send .ping), (4, .choose), (4, .choose)]

/-- They take turns. -/
theorem turns_of_fiveTurns : ∃ start older middle p newer now p', Pool.new .default = .ok start ∧
    Run start 0 older middle p ∧ p.tied = [2, 3] ∧ Run p middle newer now p' ∧
      (∀ m ∈ newer, m.before.loads = p.loads) ∧ (selectionsIn newer).length = 5 ∧
      (∀ i, i + 2 ≤ 5 → ((selectionsIn newer).drop i).take 2 = [2, 3].rotate (1 + i)) ∧
      (selectionsIn newer).count 2 ≤ (selectionsIn newer).count 3 + 1 := by
  have played : (Pool.new .default).toOption.bind (fun start =>
      (History.play step start fiveTurns).map fun r => decide (
        (r.1[10]?.map fun m => (m.before.tied, m.before.cursor)) = some ([2, 3], 1) ∧
        ((r.1.drop 10).all fun m => r.1[10]?.any fun first => m.before.loads = first.before.loads) = true ∧
        (selectionsIn (r.1.drop 10)).length = 5)) = some true := by decide
  have ordered : History.inOrder 0 fiveTurns = true := by decide
  obtain ⟨start, moments, p', made, run, computed⟩ := exists_run_of_script played ordered
  obtain ⟨before, steady, five⟩ := of_decide_eq_true computed
  obtain ⟨m, there, before⟩ := Option.map_eq_some_iff.1 before
  obtain ⟨tied, cursor⟩ := Prod.mk.inj before
  have there : moments[10]? = some m := there
  have steady : ∀ m' ∈ moments.drop 10, m'.before.loads = m.before.loads := by
    intro m' member
    have same := List.all_eq_true.1 steady m' member
    rw [show (moments, p').1[10]? = some m from there] at same
    simpa using same
  rw [drop_at there] at steady five
  rw [cut_at there] at run
  have past := run.at_moment.1
  have tie : m.before.tied ≠ [] := by
    rw [tied]
    simp
  have unwrapped : m.before.cursor.toNat + (selectionsIn (m :: moments.drop 11)).length ≤ 2 ^ 64 := by
    rw [cursor, five]
    decide
  obtain ⟨_, _, _, _, _, windows, _, counts⟩ :=
    ties_take_turns made past m.before.cursor run.onwards steady tie unwrapped
  rw [tied, cursor, five] at windows
  rw [tied] at counts
  exact ⟨start, _, _, m.before, _, _, p', made, past, tied, run.onwards, steady, five, windows,
    counts 2 (by simp) 3 (by simp)⟩

end Run

end CallPool.Pool
