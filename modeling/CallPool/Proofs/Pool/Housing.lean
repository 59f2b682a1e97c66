import CallPool.Proofs.Pool.RetryBudget
import CallPool.Proofs.Pool.Watching
import Mathlib.Data.List.Perm.Subperm

/-!
# Where the live connections are

A connection of a pool that is live is in the slot that it was opened for (`Housed`). For an action of
a pool either leaves the slots and the number of connections as they are, or clears all slots and
severs what was in them, or opens one connection, which is dead at the end of the action or put into a
slot that was not live (`Turnover.of_step`). So a live connection neither leaves its slot nor gets
lost beside the slots, however many dials of one slot succeed
(`live_connections_keep_their_slots`).
-/

set_option autoImplicit false

namespace CallPool.Pool

variable {p p' : Pool} {now : Nat} {past es : List Event}

/-! ## The number of connections -/

/-- Modifying a connection leaves their number. -/
theorem length_modifyConnection (p : Pool) (g : Nat) (f : Connection → Connection) :
    (p.modifyConnection g f).connections.length = p.connections.length := by
  unfold modifyConnection
  split
  · exact List.length_set
  · rfl

/-- Stopping connections by force leaves their number. -/
theorem length_force (p : Pool) (generations : List Nat) :
    (p.force generations).connections.length = p.connections.length := by
  unfold force
  induction generations generalizing p with
  | nil => rfl
  | cons g rest ih => exact (ih _).trans (length_modifyConnection p g _)

/-- What a connection does leaves their number. -/
theorem length_stepConnection {g : Nat} {a : Connection.Action}
    (taken : p.stepConnection now g a = some (p', es)) :
    p'.connections.length = p.connections.length := by
  obtain ⟨_, _, _, _, _, absorbs⟩ := exists_of_stepConnection taken
  rw [absorbs.connections]
  exact List.length_set

/-- A caller that is dropped takes no connection with it. -/
theorem length_cancel (p : Pool) (now : Nat) (t : Ticket) :
    (p.cancel now t).1.connections.length = p.connections.length := by
  have closing : ((p.dropWork t).dropClosing t).connections.length = p.connections.length := by
    unfold dropClosing
    split
    · exact length_force (p.dropWork t) _
    · rfl
  have dropped := CallDropped.of_cancel p now t
  generalize p.cancel now t = r at dropped ⊢
  obtain ⟨q, es⟩ := r
  cases dropped with
  | absent _ => exact closing
  | ended _ _ _ => exact closing
  | cancelled _ _ went => exact (length_stepConnection went).trans closing

/-! ## What an action does to the slots -/

/-- A connection that was opened is discarded, or put into its slot, which then was not live. -/
theorem cases_install (p : Pool) (s g : Nat) (token : Option Token) :
    (p.install s g token).1.slots = p.slots ∧ (p.install s g token).1.connections =
        (p.modifyConnection g Connection.discard).connections ∨
      s < p.slots.length ∧ p.isLive s = false ∧
        (p.install s g token).1.slots = p.slots.set s (some g) ∧
        (p.install s g token).1.connections.length = p.connections.length ∧
        Event.installed s g ∈ (p.install s g token).2.2 := by
  have installation := Installation.of_install p s g token
  generalize p.install s g token = x at installation ⊢
  obtain ⟨q, result, es⟩ := x
  dsimp only at installation ⊢
  cases installation with
  | refused _ => exact .inl ⟨by rw [modifyConnection_rest], rfl⟩
  | served _ _ _ => exact .inl ⟨by rw [release_rest, modifyConnection_rest], by rw [release_rest]⟩
  | placed _ _ inside vacant vacates =>
    refine .inr ⟨inside, vacant, rfl, ?_, List.mem_singleton_self _⟩
    rcases vacates with rfl | ⟨old, _, rfl⟩
    · rfl
    · exact length_modifyConnection p old _

/-- What an action does to the slots of a pool, and to the number of its connections. -/
inductive Turnover (p : Pool) (es : List Event) (p' : Pool) : Prop
  | rests (slots : p'.slots = p.slots) (count : p'.connections.length = p.connections.length)
  /-- The pool is closed. -/
  | clears (closed : p'.closed = true) (slots : p'.slots = p.slots.map fun _ => none)
      (count : p'.connections.length = p.connections.length)
      (severed : ∀ s g : Nat, p.slots[s]? = some (some g) → ∀ c, p'.connections[g]? = some c →
        c.connected = false)
  /-- A connection is opened and does not get a slot. -/
  | discards {c : Connection} (slots : p'.slots = p.slots)
      (count : p'.connections.length = p.connections.length + 1)
      (found : p'.connections[p.connections.length]? = some c)
      (number : c.generation = p.connections.length)
      (opened : Event.opened c.slot p.connections.length ∈ es) (dead : c.connected = false)
  /-- A connection is opened and put into its slot. -/
  | fills {c : Connection} (inside : c.slot < p.slots.length) (vacant : p.isLive c.slot = false)
      (slots : p'.slots = p.slots.set c.slot (some p.connections.length))
      (count : p'.connections.length = p.connections.length + 1)
      (found : p'.connections[p.connections.length]? = some c)
      (number : c.generation = p.connections.length)
      (opened : Event.opened c.slot p.connections.length ∈ es)
      (installed : Event.installed c.slot p.connections.length ∈ es)

namespace Turnover

/-- Closing a pool clears its slots. -/
theorem of_close (p : Pool) (now : Nat) : Turnover p (p.close now).2 (p.close now).1 := by
  obtain ⟨closed, _, slots⟩ := closed_close p now
  refine .clears closed slots ?_ ?_
  · rw [close_rest, List.length_mapIdx]
  · intro s g held c found
    have listed : g ∈ p.slots.filterMap id := List.mem_filterMap.2 ⟨_, List.mem_of_getElem? held, rfl⟩
    rw [close_rest, List.getElem?_mapIdx] at found
    obtain ⟨d, _, rfl⟩ := Option.map_eq_some_iff.1 found
    rw [if_pos listed]
    rfl

/-- A connection that is opened is discarded, or fills its slot. -/
theorem of_opening {d : Dial} {lost : Bool} {q : Pool} (member : d ∈ p.dials)
    (opening : Opening p now d lost q es p') : Turnover p es p' := by
  have books := Bookkeeping.of_deeds (opening.concludes member)
  obtain ⟨⟨noticed, absorbs, rfl⟩, rfl⟩ := opening
  have newcomer : q.connections[p.connections.length]? = some (p.born now d lost).1 := by
    rw [absorbs.connections]
    simp
  have added : q.connections.length = p.connections.length + 1 := by
    rw [absorbs.connections]
    simp
  -- The connection that is opened is told apart by its notice from now on.
  have installs : Follows (fun _ _ => True) q now
      (q.install d.slot p.connections.length (q.tokenOfDial? d)).2.2 now
      (q.install d.slot p.connections.length (q.tokenOfDial? d)).1 :=
    .install (fun _ _ _ => trivial) q _ _ _
  obtain ⟨c, found, same⟩ := installs.placed newcomer
  have notice := same.trans (Move.notice_born p now d lost)
  have slot : c.slot = d.slot := congrArg Notice.slot notice
  have number : c.generation = p.connections.length := congrArg Notice.generation notice
  have opened : Event.opened c.slot p.connections.length ∈
      [.opened d.slot p.connections.length] ++ noticed ++
        (q.install d.slot p.connections.length (q.tokenOfDial? d)).2.2 ++
        ((q.install d.slot p.connections.length (q.tokenOfDial? d)).1.conclude now d
          (q.install d.slot p.connections.length (q.tokenOfDial? d)).2.1).2 := by
    simp [slot]
  rcases cases_install q d.slot p.connections.length (q.tokenOfDial? d) with
    ⟨slots, connections⟩ | ⟨inside, vacant, slots, count, installed⟩
  · refine .discards (c := c) ?_ ?_ ?_ number opened ?_
    · rw [books.slots, slots, absorbs.slots]
    · rw [books.connections, connections, length_modifyConnection, added]
    · rw [books.connections, found]
    · rw [connections] at found
      unfold modifyConnection at found
      rw [newcomer] at found
      dsimp only at found
      rw [connections_setConnection newcomer] at found
      obtain rfl := Option.some.inj found
      exact Connection.connected_discard _
  · refine .fills (c := c) ?_ ?_ ?_ ?_ ?_ number opened ?_
    · rw [slot, ← absorbs.slots]
      exact inside
    -- A slot that was live before the connection was opened is still live when it is to be installed.
    · rw [slot, Bool.eq_false_iff]
      intro live
      obtain ⟨g, e, held, there, connected⟩ := isLive_iff.1 live
      have live' : q.isLive d.slot = true := by
        refine isLive_iff.2 ⟨g, e, ?_, ?_, connected⟩
        · rw [absorbs.slots]
          exact held
        · obtain ⟨older, _⟩ := List.getElem?_eq_some_iff.1 there
          rw [absorbs.connections, List.getElem?_append_left older]
          exact there
      rw [vacant] at live'
      cases live'
    · rw [books.slots, slots, slot, absorbs.slots]
    · rw [books.connections, count, added]
    · rw [books.connections, found]
    · rw [slot]
      exact List.mem_append_left _ (List.mem_append_right _ installed)

/-- A change of the books leaves the slots as they are. -/
theorem of_books (books : Bookkeeping p es p') : Turnover p es p' :=
  .rests books.slots (congrArg List.length books.connections)

/-- Whatever an action does to the slots is a turnover. -/
theorem of_step {a : Action} (taken : p.step now a = some (p', es)) : Turnover p es p' := by
  cases Takes.of_step taken with
  | connects => exact of_books (.of_deeds (.connect trivial))
  | dials => exact of_books ((Bookkeeping.takeTicket p).trans (.dial ..))
  | joins => exact of_books (.addReconnector ..)
  | chooses => exact .rests rfl rfl
  | refuses _ _ => exact .rests rfl rfl
  | passes _ _ _ absorbs =>
    refine .rests absorbs.slots ?_
    rw [absorbs.connections]
    exact List.length_set
  | closes => exact of_close p now
  | @drops t _ => exact .rests (Watch.cancel p now t).slots (length_cancel p now t)
  | acts _ went => exact .rests (Aside.stepConnection went).watch.slots (length_stepConnection went)
  | @hears n rest _ _ =>
    have books := Bookkeeping.handleLoss { p with notices := rest } now n
    exact .rests books.slots (congrArg List.length books.connections)
  | wakes member waking => exact of_books (.of_deeds (.single (waking.deed member)))
  | opens member _ opening => exact of_opening member opening
  | fails member _ _ => exact of_books (.conclude member now _)
  | finishes _ stopped =>
    rcases stopped with rfl | rfl
    · exact .rests rfl rfl
    · refine .rests ?_ (length_force p _)
      rw [force_rest]

end Turnover

/-! ## Live connections are in their slots -/

/-- A connection has its place in the list of all for its number, and its slot is the one that it was
opened for and that holds it while it is live. -/
structure Resident (past : List Event) (slots : List (Option Nat)) (g : Nat) (c : Connection) :
    Prop where
  number : c.generation = g
  opened : Event.opened c.slot g ∈ past
  home : c.connected = true → slots[c.slot]? = some (some g)

/-- The slots of a pool hold all its live connections. -/
structure Housed (past : List Event) (p : Pool) : Prop where
  size : p.slots.length = p.options.poolSize
  resident : ∀ g c, p.connections[g]? = some c → Resident past p.slots g c

/-- A connection that was there before keeps its slot and its number, and was live if it is. -/
theorem Follows.origin {may : Nat → Connection.Action → Prop} {began g : Nat} {c' : Connection}
    (follows : Follows may p began es now p') (older : g < p.connections.length)
    (found' : p'.connections[g]? = some c') :
    ∃ c, p.connections[g]? = some c ∧ c'.notice = c.notice ∧
      (c'.connected = true → c.connected = true) := by
  have found : p.connections[g]? = some p.connections[g] := List.getElem?_eq_getElem older
  obtain ⟨d, there, notice⟩ := follows.placed found
  obtain rfl := Option.some.inj (found'.symm.trans there)
  refine ⟨_, found, notice, fun connected => ?_⟩
  cases dead : p.connections[g].connected with
  | true => rfl
  | false =>
    obtain ⟨d, there, unconnected⟩ := follows.dead found dead
    obtain rfl := Option.some.inj (found'.symm.trans there)
    rw [connected] at unconnected
    cases unconnected

namespace Housed

/-- In a pool that has just been made nothing is to be housed. -/
theorem of_fresh (fresh : Fresh p) : Housed [] p where
  size := by rw [fresh.slots, List.length_replicate]
  resident := by simp [fresh.connections]

/-- A connection that was there before is where it was, if its slot still holds it. -/
theorem resident_of_older {may : Nat → Connection.Action → Prop} {g : Nat} {c' : Connection}
    (h : Housed past p) (follows : Follows may p now es now p') (older : g < p.connections.length)
    (found' : p'.connections[g]? = some c')
    (kept : ∀ s : Nat, p.slots[s]? = some (some g) → p.isLive s = true → c'.connected = true →
      p'.slots[s]? = some (some g)) : Resident (past ++ es) p'.slots g c' := by
  obtain ⟨c, found, notice, was_live⟩ := follows.origin older found'
  have resident := h.resident g c found
  have slot : c'.slot = c.slot := congrArg Notice.slot notice
  refine ⟨(congrArg Notice.generation notice).trans resident.number, ?_, fun live => ?_⟩
  · rw [slot]
    exact List.mem_append_left _ resident.opened
  · have held := resident.home (was_live live)
    rw [slot]
    exact kept c.slot held (isLive_iff.2 ⟨g, c, held, found, was_live live⟩) live

/-- One more action leaves the live connections housed. -/
theorem extend (h : Housed past p) {a : Action} (taken : p.step now a = some (p', es)) :
    Housed (past ++ es) p' := by
  have follows := Follows.of_step taken
  have inside : ∀ {g c}, p'.connections[g]? = some c → g < p'.connections.length :=
    fun found => (List.getElem?_eq_some_iff.1 found).1
  cases Turnover.of_step taken with
  | rests slots count =>
    refine ⟨by rw [slots, follows.options]; exact h.size, fun g c' found' => ?_⟩
    refine h.resident_of_older follows (by have := inside found'; omega) found' ?_
    intro s held _ _
    rw [slots]
    exact held
  | clears _ slots count severed =>
    refine ⟨by rw [slots, List.length_map, follows.options]; exact h.size, fun g c' found' => ?_⟩
    refine h.resident_of_older follows (by have := inside found'; omega) found' ?_
    intro s held _ live
    rw [severed s g held c' found'] at live
    cases live
  | @discards new slots count found number opened dead =>
    refine ⟨by rw [slots, follows.options]; exact h.size, fun g c' found' => ?_⟩
    by_cases older : g < p.connections.length
    · refine h.resident_of_older follows older found' ?_
      intro s held _ _
      rw [slots]
      exact held
    · obtain rfl : g = p.connections.length := by have := inside found'; omega
      obtain rfl := Option.some.inj (found'.symm.trans found)
      refine ⟨number, List.mem_append_right _ opened, fun live => ?_⟩
      rw [dead] at live
      cases live
  | @fills new within vacant slots count found number opened _ =>
    refine ⟨by rw [slots, List.length_set, follows.options]; exact h.size, fun g c' found' => ?_⟩
    by_cases older : g < p.connections.length
    -- The slot of a live connection was not vacant, so that another slot was filled.
    · refine h.resident_of_older follows older found' ?_
      intro s held live _
      have other : new.slot ≠ s := by
        rintro rfl
        rw [live] at vacant
        cases vacant
      rw [slots, List.getElem?_set_ne other]
      exact held
    · obtain rfl : g = p.connections.length := by have := inside found'; omega
      obtain rfl := Option.some.inj (found'.symm.trans found)
      refine ⟨number, List.mem_append_right _ opened, fun _ => ?_⟩
      rw [slots, List.getElem?_set_self within]

/-- In every run the live connections are housed. -/
theorem of_run {options : Options} {start : Pool} {began : Nat} {moments : List Moment}
    (made : Pool.new options = .ok start) (run : Run start began moments now p) :
    Housed (eventsOf moments) p := by
  induction run with
  | start => exact of_fresh (.of_new made)
  | act _ taken ih =>
    rw [eventsOf_append, eventsOf_cons, eventsOf_nil, List.append_nil]
    exact ih.extend taken
  | rest _ _ _ ih => exact ih

/-- Live connections are in slots of their own, so there are at most as many as there are slots. -/
theorem countP_le (h : Housed past p) :
    p.connections.countP (fun c => c.connected) ≤ p.slots.length := by
  have numbers : p.connections.map Connection.generation = List.range p.connections.length := by
    apply List.ext_getElem?
    intro g
    rw [List.getElem?_map]
    cases found : p.connections[g]? with
    | none =>
      have outside := List.getElem?_eq_none_iff.1 found
      rw [List.getElem?_eq_none (by simpa using outside)]
      rfl
    | some c =>
      obtain ⟨inside, _⟩ := List.getElem?_eq_some_iff.1 found
      rw [List.getElem?_range inside, Option.map_some, (h.resident g c found).number]
  let live := p.connections.filter fun c => c.connected
  have nodup : (live.map Connection.generation).Nodup := by
    have part : (live.map Connection.generation).Sublist (p.connections.map Connection.generation) :=
      List.filter_sublist.map _
    rw [numbers] at part
    exact part.nodup List.nodup_range
  have held : live.map Connection.generation ⊆ p.slots.filterMap id := by
    intro g member
    obtain ⟨c, c_member, rfl⟩ := List.mem_map.1 member
    obtain ⟨there, connected⟩ := List.mem_filter.1 c_member
    obtain ⟨g, found⟩ := List.mem_iff_getElem?.1 there
    have resident := h.resident g c found
    rw [resident.number]
    exact List.mem_filterMap.2 ⟨_, List.mem_of_getElem? (resident.home connected), rfl⟩
  calc p.connections.countP (fun c => c.connected)
      = (live.map Connection.generation).length := by
        rw [List.length_map, List.countP_eq_length_filter]
    _ ≤ (p.slots.filterMap id).length := (nodup.subperm held).length_le
    _ ≤ p.slots.length := List.length_filterMap_le _ _

end Housed

/-- In every run of a pool, with whatever dials, rounds and reconnectors overlapping: there are as many
slots as the options say, and a slot holds a connection that was opened for it. A connection that has
been in a slot is still there if it is live. What a slot holds changes, in a pool that stays open, only
if it was not live, and then for a connection that is opened in this action. Each connection that is
live, of all that were ever opened, is in its slot; so there never are more of them than slots. -/
theorem live_connections_keep_their_slots {options : Options} {start : Pool} {began : Nat}
    {moments : List Moment} (made : Pool.new options = .ok start)
    (run : Run start began moments now p) :
    p.slots.length = options.poolSize ∧
    (∀ s g : Nat, p.slots[s]? = some (some g) → ∃ c : Connection, p.connections[g]? = some c ∧
      c.slot = s ∧ c.generation = g ∧ Event.opened s g ∈ eventsOf moments) ∧
    (∀ m ∈ moments, ∀ s g : Nat, m.after.slots[s]? = some (some g) →
      ∀ c : Connection, p.connections[g]? = some c → c.connected = true →
        p.slots[s]? = some (some g)) ∧
    (∀ m ∈ moments, m.after.closed = false → ∀ s : Nat, m.after.slots[s]? ≠ m.before.slots[s]? →
      m.before.isLive s = false ∧
        m.after.slots[s]? = some (some m.before.connections.length) ∧
        Event.opened s m.before.connections.length ∈ m.events ∧
        Event.installed s m.before.connections.length ∈ m.events) ∧
    (∀ g : Nat, ∀ c : Connection, p.connections[g]? = some c → c.connected = true →
      p.slots[c.slot]? = some (some g)) ∧
    p.connections.countP (fun c => c.connected) ≤ options.poolSize := by
  have housed := Housed.of_run made run
  have size : p.slots.length = options.poolSize := by
    rw [housed.size, options_of_run made run]
  refine ⟨size, ?_, ?_, ?_, fun g c found => (housed.resident g c found).home, size ▸ housed.countP_le⟩
  · intro s g held
    obtain ⟨c, found, notice⟩ := (Seated.of_run made run).seated s g held
    obtain rfl : c.slot = s := congrArg Notice.slot notice
    have resident := housed.resident g c found
    exact ⟨c, found, rfl, resident.number, resident.opened⟩
  · intro m member s g held c found live
    obtain ⟨older, newer, rfl⟩ := List.append_of_mem member
    obtain ⟨_, _, _, upto, behind⟩ := run.at_moment
    obtain ⟨d, there, notice⟩ := (Seated.of_run made upto).seated s g held
    obtain ⟨e, found', same⟩ := (Follows.of_run behind).placed there
    obtain rfl := Option.some.inj (found'.symm.trans found)
    have slot : e.slot = s := congrArg Notice.slot (same.trans notice)
    rw [← slot]
    exact (housed.resident g e found).home live
  · intro m member isOpen s changed
    obtain ⟨older, newer, rfl⟩ := List.append_of_mem member
    obtain ⟨_, taken, _⟩ := run.at_moment
    cases Turnover.of_step taken with
    | rests slots _ => exact absurd (by rw [slots]) changed
    | clears closed _ _ _ =>
      rw [closed] at isOpen
      cases isOpen
    | discards slots _ _ _ _ _ => exact absurd (by rw [slots]) changed
    | @fills new inside vacant slots _ _ _ opened installed =>
      have mine : new.slot = s := by
        by_contra other
        exact changed (by rw [slots, List.getElem?_set_ne other])
      subst mine
      exact ⟨vacant, by rw [slots, List.getElem?_set_self inside], opened, installed⟩

/-- Two connection rounds that overlap in a pool of one slot: both dials succeed, the connection that
is in the slot is lost, and a reconnector fills the slot again. -/
def threeForOneSlot : List (Nat × Action) := [
  (0, .connect), (0, .connect), (1, .dialSucceeds 1 false), (2, .dialSucceeds 3 false),
  (3, .connection 0 (.receive .close)), (4, .supervise), (5000000004, .wakeReconnector 4),
  (5000000005, .dialSucceeds 5 false)]

/-- Of the three connections that were opened the last one lives, in the slot. -/
theorem last_lives_of_threeForOneSlot : ∃ start moments now p, Pool.new oneAttempt = .ok start ∧
    Run start 0 moments now p ∧ p.connections.length = 3 ∧ p.slots = [some 2] ∧ p.liveCount = 1 ∧
      p.connections.countP (fun c => c.connected) ≤ 1 ∧
      ∀ g c, p.connections[g]? = some c → c.connected = true → g = 2 := by
  have played : (Pool.new oneAttempt).toOption.bind (fun start =>
      (History.play step start threeForOneSlot).map fun r => decide (
        r.2.connections.length = 3 ∧ r.2.slots = [some 2] ∧ r.2.liveCount = 1)) = some true := by
    decide
  have ordered : History.inOrder 0 threeForOneSlot = true := by decide
  obtain ⟨start, moments, p, made, run, computed⟩ := exists_run_of_script played ordered
  obtain ⟨opened, slots, live⟩ := of_decide_eq_true computed
  obtain ⟨_, _, _, _, housed, most⟩ := live_connections_keep_their_slots made run
  refine ⟨start, moments, _, p, made, run, opened, slots, live, most, ?_⟩
  intro g c found connected
  have held := housed g c found connected
  have inside : c.slot < p.slots.length := (List.getElem?_eq_some_iff.1 held).1
  rw [slots] at inside held
  have first : c.slot = 0 := Nat.lt_one_iff.1 inside
  rw [first] at held
  exact (Option.some.inj (Option.some.inj held)).symm

end CallPool.Pool
