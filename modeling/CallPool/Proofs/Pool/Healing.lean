import CallPool.Proofs.Pool.Watching

/-!
# No loss is forgotten

In an open pool a slot whose connection was lost is attended from the loss on: its notice is queued
for the supervisor, or it has a reconnector that runs, or the reconnector that it had after the loss
has given up (`no_loss_is_forgotten`). The reason is that each move leaves a slot attended
(`Attended.of_move`). A notice leaves the queue only when the supervisor takes it, and then the slot
gets a reconnector or has one; a slot loses its reconnector only to one that gives up or to a
connection that is live, and a connection that is live is not the one that was lost.
-/

set_option autoImplicit false

namespace CallPool.Pool

variable {p p' : Pool} {now : Nat} {past es : List Event} {moments : List Moment} {s g : Nat}

/-- Whether the supervisor will hear that the connection in a slot was lost, or the slot has a
reconnector. -/
def Attended (p : Pool) (s g : Nat) : Prop :=
  (⟨s, g⟩ : Notice) ∈ p.notices ∨ ∃ t, (s, t) ∈ p.reconnecting

namespace Attended

/-- A change that takes no notice away leaves a slot attended, unless its reconnector gives up. -/
theorem of_works (attended : Attended p s g) (works : Works now p es p') (h : Ledger past p)
    (isOpen : p.closed = false) : Attended p' s g ∨ GivesUp s es := by
  rcases attended with queued | ⟨t, member⟩
  · exact .inl (.inl (works.watch.kept _ queued))
  · rcases works.kept h isOpen member with there | gaveUp
    · exact .inl (.inr ⟨t, there⟩)
    · exact .inr gaveUp

/-- The supervisor takes the oldest notice: if it is about the slot, the slot gets a reconnector. -/
theorem of_supervises {n : Notice} {rest : List Notice} (attended : Attended p s g) (h : Ledger past p)
    (isOpen : p.closed = false) (held : p.slots[s]? = some (some g)) (notices : p.notices = n :: rest)
    (handled : { p with notices := rest }.handleLoss now n = (p', es)) :
    Attended p' s g ∨ GivesUp s es := by
  by_cases mine : n = ⟨s, g⟩
  · subst mine
    have recovers : { p with notices := rest }.handleLoss now ⟨s, g⟩ =
        { p with notices := rest }.recover now s := by
      unfold handleLoss
      rw [if_neg (by simp [isOpen]), if_pos (by simp [held])]
    rw [recovers] at handled
    have started : ∃ t, (s, t) ∈ (Pool.recover { p with notices := rest } now s).1.reconnecting :=
      exists_reconnecting_recover (p := { p with notices := rest }) isOpen s
    rw [handled] at started
    exact .inl (.inr started)
  -- The notice that is taken is another one, so that of the slot stays in the queue.
  · have still : Attended { p with notices := rest } s g := by
      rcases attended with queued | entry
      · rw [notices] at queued
        rcases List.mem_cons.1 queued with first | later
        · exact absurd first.symm mine
        · exact .inl later
      · exact .inr entry
    exact still.of_works (.of_handled handled) (h.hear rest) isOpen

/-- A connection that is installed takes the place of a reconnector only where the slot is live, or
becomes so. -/
theorem of_installation {slot new : Nat} {token : Option Token} {result : Except Error Unit}
    (attended : Attended p s g) (installation : Installation p slot new token p' result es)
    (other : g ≠ new) (held : p.slots[s]? = some (some g)) (held' : p'.slots[s]? = some (some g))
    (dead : ∃ c, p.connections[g]? = some c ∧ c.connected = false) : Attended p' s g := by
  rcases attended with queued | ⟨t, member⟩
  · left
    rw [installation.rest]
    exact queued
  · rcases installation.kept member with there | ⟨mine, live | placed⟩
    · exact .inr ⟨t, there⟩
    · obtain ⟨c, found, unconnected⟩ := dead
      rw [← mine] at live
      simp [isLive, slotConnection?, held, found, unconnected] at live
    · rw [placed, ← mine] at held'
      have inside : s < p.slots.length := by
        obtain ⟨inside, _⟩ := List.getElem?_eq_some_iff.1 held
        exact inside
      rw [List.getElem?_set_self inside] at held'
      exact absurd (Option.some.inj (Option.some.inj held')).symm other

/-- In an open pool a slot that holds a dead connection stays attended, unless its reconnector gives
up. -/
theorem of_move (attended : Attended p s g) (move : Move now p es p') (h : Ledger past p)
    (isOpen : p'.closed = false) (held : p.slots[s]? = some (some g))
    (held' : p'.slots[s]? = some (some g))
    (dead : ∃ c, p.connections[g]? = some c ∧ c.connected = false) :
    Attended p' s g ∨ GivesUp s es := by
  cases move with
  | works works =>
    rw [works.watch.closed] at isOpen
    exact attended.of_works works h isOpen
  | closes =>
    rw [(closed_close p now).1] at isOpen
    cases isOpen
  | @drops t _ =>
    have aside := Aside.cancel p now t
    rcases attended with queued | ⟨t, member⟩
    · exact .inl (.inl (aside.watch.kept _ queued))
    · left
      right
      rw [aside.reconnecting]
      exact ⟨t, member⟩
  | supervises _ notices handled =>
    rw [(Works.of_handled handled).watch.closed] at isOpen
    exact attended.of_supervises h isOpen held notices handled
  | @installs d _ _ _ q r _ _ _ _ opens before installation concludes _ =>
    have entries := opens.reconnecting
    have attended_q : Attended q s g := by
      rcases attended with queued | ⟨t, member⟩
      · exact .inl (opens.watch.kept _ queued)
      · right
        rw [entries]
        exact ⟨t, member⟩
    have held_q : q.slots[s]? = some (some g) := by
      rw [opens.watch.slots]
      exact held
    have held_r : r.slots[s]? = some (some g) := by
      rw [← concludes.watch.slots]
      exact held'
    obtain ⟨c, found, unconnected⟩ := dead
    have other : g ≠ p.connections.length := by
      obtain ⟨inside, _⟩ := List.getElem?_eq_some_iff.1 found
      exact Nat.ne_of_lt inside
    have attended_r := attended_q.of_installation installation other held_q held_r
      (before.dead found unconnected)
    have isOpen_r : r.closed = false := by
      rw [← concludes.watch.closed]
      exact isOpen
    have accounts := (h.aside opens).of_installation installation
    rcases attended_r.of_works concludes accounts isOpen_r with there | gaveUp
    · exact .inl there
    · exact .inr (gaveUp.append_right _)

end Attended

/-- The supervisor of a pool that stays open gets the notice of each loss. -/
theorem heard_of_move {n : Notice} (move : Move now p es p') (isOpen : p'.closed = false)
    (supervised : p.supervised = true) (told : Event.connection g (.lost n) ∈ es) : n ∈ p'.notices := by
  cases move with
  | works works => exact works.watch.heard g n told supervised
  | closes =>
    rw [(closed_close p now).1] at isOpen
    cases isOpen
  | drops _ => exact (Watch.cancel p now _).heard g n told supervised
  | supervises _ _ handled => exact (Works.of_handled handled).watch.heard g n told supervised
  | installs _ opens _ installation concludes _ =>
    have rest := installation.rest
    rcases List.mem_append.1 told with early | late
    · rcases List.mem_append.1 early with noticed | placed
      · apply concludes.watch.kept
        rw [rest]
        exact opens.watch.heard g n noticed supervised
      · cases installation <;> simp at placed
    · apply concludes.watch.heard g n late
      rw [rest]
      dsimp only
      rw [opens.watch.supervised]
      exact supervised

/-- What is told of a connection that was lost before an action: it is dead, and if a slot holds it
behind the action then the slot held it before. -/
theorem held_of_move {older : List Moment} {n : Notice} {start : Pool} {began middle : Nat}
    (run : Run start began older middle p) (told : Event.connection g (.lost n) ∈ eventsOf older)
    (move : Move now p es p') (held : p'.slots[s]? = some (some g)) :
    p.slots[s]? = some (some g) ∧ ∃ c, p.connections[g]? = some c ∧ c.connected = false := by
  obtain ⟨c, found, dead, _⟩ := (Follows.of_run run).lost told
  refine ⟨?_, c, found, dead⟩
  rcases slot_of_move move held with older | ⟨new, _⟩
  · exact older
  · obtain ⟨inside, _⟩ := List.getElem?_eq_some_iff.1 found
    exact absurd new (Nat.ne_of_lt inside)

/-- From its loss on, a slot that holds a connection that was lost is attended, or its reconnector has
given up since then. -/
theorem attended_of_run {options : Options} {start : Pool} {began : Nat} {older newer : List Moment}
    {loss : Moment} {n : Notice} (made : Pool.new options = .ok start)
    (run : Run start began moments now p) (isOpen : p.closed = false)
    (held : p.slots[s]? = some (some g)) (cut : moments = older ++ loss :: newer)
    (lost : Event.connection g (.lost n) ∈ loss.events) :
    Attended p s g ∨ GivesUp s (eventsOf newer) := by
  induction run generalizing newer with
  | start => simp at cut
  | @act moments now p p' a es past taken ih =>
    have accounts := Ledger.of_run made past
    have seated := Seated.of_run made past
    have move : Move now p es p' := .of_step accounts taken
    have was_open : p.closed = false := by
      cases closed : p.closed with
      | false => rfl
      | true =>
        rw [closed_of_move move closed] at isOpen
        cases isOpen
    -- The last action is the loss, or the loss is older and the slot was attended before this action.
    rcases List.eq_nil_or_concat newer with rfl | ⟨front, last, rfl⟩
    · obtain ⟨rfl, same⟩ := List.append_inj' cut rfl
      cases same
      have supervised : p.supervised = true := by
        rw [seated.supervised, was_open]
        rfl
      have heard := heard_of_move move isOpen supervised lost
      obtain ⟨c, found, _, notice⟩ := (Follows.of_step taken).lost lost
      obtain ⟨c', found', here⟩ := (seated.of_move move (.of_step taken)).seated s g held
      rw [found] at found'
      cases found'
      rw [← notice, here] at heard
      exact .inl (.inl heard)
    · rw [List.concat_eq_append, ← List.cons_append, ← List.append_assoc] at cut
      obtain ⟨rfl, same⟩ := List.append_inj' cut rfl
      cases same
      have told : Event.connection g (.lost n) ∈ eventsOf (older ++ loss :: front) := by
        simp [lost]
      obtain ⟨held_before, dead⟩ := held_of_move past told move held
      rw [List.concat_eq_append, eventsOf_append]
      rcases ih was_open held_before rfl with attended | gaveUp
      · rcases attended.of_move move accounts isOpen held_before held dead with there | gaveUp
        · exact .inl there
        · right
          rw [eventsOf_cons, eventsOf_nil, List.append_nil]
          exact gaveUp.append_right _
      · exact .inr (gaveUp.append_left _)
  | rest _ _ _ ih => exact ih isOpen held cut

/-- In every state of an open pool, whatever came in which order, each slot that holds a connection
that was lost is looked after: the notice of the loss is queued for the supervisor, which runs; or a
reconnector of the slot runs, which holds the entry of the slot and has its dial under way while it
dials; or a reconnector of the slot has run out of attempts since the loss. -/
theorem no_loss_is_forgotten {options : Options} {start : Pool} {began : Nat}
    {older newer : List Moment} {loss : Moment} {n : Notice} (made : Pool.new options = .ok start)
    (run : Run start began (older ++ loss :: newer) now p) (isOpen : p.closed = false)
    (held : p.slots[s]? = some (some g)) (lost : Event.connection g (.lost n) ∈ loss.events) :
    (p.supervised = true ∧ (⟨s, g⟩ : Notice) ∈ p.notices) ∨
      (∃ r ∈ p.reconnectors, r.owned = true ∧ r.orphaned = false ∧ r.slot = s ∧
        (s, r.token) ∈ p.reconnecting ∧
        (r.phase = .dialing → ∃ d ∈ p.dials, d.owner = .reconnector r.ticket ∧ d.slot = s)) ∨
      ∃ r, Event.gaveUp r ∈ eventsOf newer ∧ r.owned = true ∧ r.slot = s := by
  have accounts := Ledger.of_run made run
  rcases attended_of_run made run isOpen held rfl lost with (queued | ⟨t, entry⟩) | gaveUp
  · left
    have supervised := (Seated.of_run made run).supervised
    rw [isOpen] at supervised
    exact ⟨supervised, queued⟩
  · right
    left
    obtain ⟨r, member, owned, rfl, rfl⟩ := accounts.entry _ entry
    refine ⟨r, member, owned, (accounts.owned r member owned).1, rfl, entry, ?_⟩
    intro dialing
    have tally := accounts.tally r member
    obtain ⟨d, only⟩ := tally.dialing dialing
    have there : d ∈ p.dials.filter (Dial.isOf r.ticket) := by
      rw [only]
      exact List.mem_singleton_self d
    obtain ⟨d_member, mine⟩ := List.mem_filter.1 there
    have owner := of_decide_eq_true mine
    exact ⟨d, d_member, owner, accounts.slot_of_dial d_member member owner⟩
  · exact .inr (.inr gaveUp)

/-- A slot is filled, its connection is lost, and the supervisor hears of it. -/
def heardLoss : List (Nat × Action) := [
  (0, .fill 0 none), (1, .dialSucceeds 1 false), (2, .connection 0 (.receive .close)), (3, .supervise)]

/-- The slot has a reconnector that runs, for its notice was taken and nobody has given up. -/
theorem reconnector_of_heardLoss : ∃ start older loss newer now p,
    Pool.new .default = .ok start ∧ Run start 0 (older ++ loss :: newer) now p ∧ p.closed = false ∧
      p.slots[0]? = some (some 0) ∧ Event.connection 0 (.lost ⟨0, 0⟩) ∈ loss.events ∧ p.notices = [] ∧
      ∃ r ∈ p.reconnectors, r.owned = true ∧ r.slot = 0 ∧ (0, r.token) ∈ p.reconnecting := by
  have played : (Pool.new .default).toOption.bind (fun start =>
      (History.play step start heardLoss).map fun r =>
        ((toldOf 0 (eventsOf r.1)).filterMap Connection.Event.notice?, r.2.slots[0]?,
          (eventsOf r.1).any (fun e => match e with | .gaveUp _ => true | _ => false) ||
            r.2.closed || !r.2.notices.isEmpty)) =
      some ([⟨0, 0⟩], some (some 0), false) := by decide
  have ordered : History.inOrder 0 heardLoss = true := by decide
  obtain ⟨start, moments, p, made, run, computed⟩ := exists_run_of_script played ordered
  obtain ⟨notices, rest⟩ := Prod.mk.inj computed
  obtain ⟨held, rest⟩ := Prod.mk.inj rest
  simp only [Bool.or_eq_false_iff, Bool.not_eq_false', List.isEmpty_iff] at rest
  obtain ⟨⟨nobody, isOpen⟩, queue⟩ := rest
  have told : (⟨0, 0⟩ : Notice) ∈ (toldOf 0 (eventsOf moments)).filterMap Connection.Event.notice? := by
    rw [notices]
    decide
  obtain ⟨e, seen, notice⟩ := List.mem_filterMap.1 told
  have lost : e = .lost ⟨0, 0⟩ := by
    cases e with
    | lost n => rw [Option.some.inj notice]
    | _ => cases notice
  rw [lost] at seen
  obtain ⟨older, loss, newer, rfl, there⟩ := exists_moment_of_mem_eventsOf (mem_toldOf.1 seen)
  refine ⟨start, older, loss, newer, _, p, made, run, isOpen, held, there, queue, ?_⟩
  rcases no_loss_is_forgotten made run isOpen held there with ⟨_, queued⟩ | running | ⟨r, gaveUp, _⟩
  · rw [queue] at queued
    cases queued
  · obtain ⟨r, member, owned, _, slot, entry, _⟩ := running
    exact ⟨r, member, owned, slot, entry⟩
  · rw [List.any_eq_false] at nobody
    exact absurd rfl (nobody (.gaveUp r) (by simp [gaveUp]))

end CallPool.Pool
