import CallPool.Proofs.Connection.Queue
import CallPool.Proofs.Connection.Silence

/-!
# The notice of a loss

A connection dies once, and either because it is closed or because it is lost. Only a loss sends a
notice, and only the loss of which the connection dies: an action leaves the connection live or dead as
it was and sends nothing, or closes it and sends nothing, or kills it and sends one notice (`Turn`). So
no run sends two, and none does that begins its death with a closing, whatever the two tasks, their ends
and further closings do before and behind (`one_notice_per_loss`).
-/

set_option autoImplicit false

namespace CallPool.Connection

/-- The notices that some events carry, in order. -/
def noticesIn (es : List Event) : List Notice := es.filterMap Event.notice?

/-- The notices of one run behind another are those of both, in order. -/
@[simp] theorem noticesIn_append (es es' : List Event) :
    noticesIn (es ++ es') = noticesIn es ++ noticesIn es' := by
  simp [noticesIn]

/-- Traffic gives no notice. -/
theorem noticesIn_of_isTraffic {es : List Event} (quiet : ∀ e ∈ es, e.isTraffic = true) :
    noticesIn es = [] := by
  unfold noticesIn
  rw [List.filterMap_eq_nil_iff]
  intro e member
  have traffic := quiet e member
  cases e with
  | lost notice => cases traffic
  | _ => rfl

/-- What an action does to the life of a connection, and which notices it sends. -/
inductive Turn (c c' : Connection) : Action → List Event → Prop
  | stands {a : Action} {es : List Event} (same : c'.connected = c.connected)
      (silent : noticesIn es = []) : Turn c c' a es
  | closes {es : List Event} (dead : c'.connected = false) (silent : noticesIn es = []) :
      Turn c c' .close es
  | dies {a : Action} {es : List Event} (unclosed : a ≠ .close) (live : c.connected = true)
      (dead : c'.connected = false) (sent : noticesIn es = [c.notice]) : Turn c c' a es

/-- Whatever a connection does to its flag is one of its turns. -/
theorem Turn.of_step {c c' : Connection} {now : Nat} {a : Action} {es : List Event}
    (taken : c.step now a = some (c', es)) : Turn c c' a es := by
  by_cases closes : a = .close
  · subst closes
    obtain ⟨rfl, rfl⟩ := Prod.mk.inj (Option.some.inj taken)
    exact .closes rfl rfl
  · have effect : Effect c now c' a es := .of_step taken
    cases effect with
    | traffic same quiet _ _ => exact .stands same.connected (noticesIn_of_isTraffic quiet)
    | closed _ => exact absurd rfl closes
    | lost live same quiet _ =>
      refine .dies closes live same.connected ?_
      rw [noticesIn_append, noticesIn_of_isTraffic quiet]
      rfl
    | registered _ _ entered same quiet =>
      obtain ⟨live, connected, _⟩ := Coherent.waits_of_register? entered
      have silent := noticesIn_of_isTraffic quiet
      exact .stands (by rw [same.connected, connected, live]) silent
    | sent _ same quiet => exact .stands same.connected (noticesIn_of_isTraffic quiet)
    | refused _ same told _ =>
      refine .stands (by rw [same]) ?_
      rcases told with rfl | rfl
      · rfl
      · rfl
    | @left _ _ p _ same how =>
      refine .stands (by rw [same, (Coherent.waits_leave c p).1]) ?_
      rcases how with ⟨_, rfl⟩ | ⟨_, _, _, rfl⟩
      · rfl
      · rfl
    | delivered _ _ _ same => exact .stands same.connected rfl

/-- A connection that is dead tells of no loss. -/
theorem lost_not_mem_of_dead {c c' : Connection} {began now : Nat} {moments : List Moment} {n : Notice}
    (run : Run c began moments now c') (dead : c.connected = false) :
    Event.lost n ∉ eventsOf moments := by
  intro told
  obtain ⟨older, m, newer, rfl, seen⟩ := exists_moment_of_mem_eventsOf told
  obtain ⟨past, taken, _⟩ := run.at_moment
  have sent : n ∈ noticesIn m.events := List.mem_filterMap.2 ⟨_, seen, rfl⟩
  have still_dead := (dead_of_run past dead).2
  have turn := Turn.of_step taken
  generalize m.action = a at turn
  cases turn with
  | stands _ silent =>
    rw [silent] at sent
    cases sent
  | closes _ silent =>
    rw [silent] at sent
    cases sent
  | dies _ live _ _ =>
    rw [still_dead] at live
    cases live

/-- The moment of a run in which the connection dies, and the notices of the whole run. -/
structure Death (notice : Notice) (older : List Moment) (m : Moment) (newer : List Moment) : Prop where
  live : ∀ m' ∈ older, m'.after.connected = true
  first : m.before.connected = true
  dead : ∀ m' ∈ m :: newer, m'.after.connected = false
  /-- It dies because it is closed, and no notice is ever sent. -/
  closed : m.action = .close → noticesIn (eventsOf (older ++ m :: newer)) = []
  /-- It dies of a loss: one notice is ever sent, at that moment. -/
  lost : m.action ≠ .close → noticesIn m.events = [notice] ∧
    noticesIn (eventsOf (older ++ m :: newer)) = [notice]

section Run

variable {slot generation born now : Nat} {options : Options} {moments : List Moment} {c : Connection}

/-- Behind the death of a connection nothing is sent. -/
theorem Death.extend {notice : Notice} {older newer : List Moment} {m m' : Moment}
    (h : Death notice older m newer) (dead : m'.after.connected = false)
    (silent : noticesIn m'.events = []) : Death notice older m (newer ++ [m']) := by
  have events : noticesIn (eventsOf (older ++ m :: (newer ++ [m']))) =
      noticesIn (eventsOf (older ++ m :: newer)) := by
    simp [silent]
  refine ⟨h.live, h.first, ?_, ?_, ?_⟩
  · intro x member
    rw [← List.cons_append] at member
    rcases List.mem_append.1 member with earlier | last
    · exact h.dead x earlier
    · rw [List.mem_singleton.1 last]
      exact dead
  · rw [events]
    exact h.closed
  · rw [events]
    exact h.lost

/-- A connection of a run is live and has sent nothing, or it has died in one of the moments. -/
theorem death_of_run
    (run : Run (Connection.opened slot generation options born) born moments now c) :
    (c.connected = true →
      (∀ m ∈ moments, m.after.connected = true) ∧ noticesIn (eventsOf moments) = []) ∧
    (c.connected = false → ∃ older m newer, moments = older ++ m :: newer ∧
      Death ⟨slot, generation⟩ older m newer) := by
  induction run with
  | start =>
    refine ⟨fun _ => ⟨by simp, rfl⟩, fun dead => ?_⟩
    cases dead
  | rest _ _ _ ih => exact ih
  | @act moments now c c' a es past taken ih =>
    obtain ⟨while_live, once_dead⟩ := ih
    have place : c.notice = ⟨slot, generation⟩ := place_of_run past
    -- A connection that is dead already dies no second time.
    have extends_death : c.connected = false → c'.connected = false → noticesIn es = [] →
        ∃ older m newer, moments ++ [⟨now, a, es, c, c'⟩] = older ++ m :: newer ∧
          Death ⟨slot, generation⟩ older m newer := by
      intro was_dead dead silent
      obtain ⟨older, m, newer, rfl, death⟩ := once_dead was_dead
      exact ⟨older, m, newer ++ [⟨now, a, es, c, c'⟩], by simp, death.extend dead silent⟩
    have dies_now : c.connected = true → c'.connected = false →
        (a = .close → noticesIn es = []) → (a ≠ .close → noticesIn es = [⟨slot, generation⟩]) →
          ∃ older m newer, moments ++ [⟨now, a, es, c, c'⟩] = older ++ m :: newer ∧
            Death ⟨slot, generation⟩ older m newer := by
      intro live dead closed lost
      obtain ⟨all_live, unsent⟩ := while_live live
      refine ⟨moments, _, [], rfl, all_live, live, ?_, ?_, ?_⟩
      · intro m member
        rw [List.mem_singleton.1 member]
        exact dead
      · simpa [unsent] using closed
      · simpa [unsent] using lost
    cases Turn.of_step taken with
    | stands same silent =>
      refine ⟨?_, fun dead => extends_death (same ▸ dead) dead silent⟩
      intro live
      obtain ⟨all_live, unsent⟩ := while_live (same ▸ live)
      refine ⟨?_, by simp [unsent, silent]⟩
      intro m member
      rcases List.mem_append.1 member with older | last
      · exact all_live m older
      · rw [List.mem_singleton.1 last]
        exact live
    | closes dead silent =>
      refine ⟨fun live => ?_, fun _ => ?_⟩
      · rw [dead] at live
        cases live
      · cases was : c.connected with
        | true => exact dies_now was dead (fun _ => silent) (fun other => absurd rfl other)
        | false => exact extends_death was dead silent
    | dies unclosed live dead sent =>
      refine ⟨fun still => ?_, fun _ => ?_⟩
      · rw [dead] at still
        cases still
      · exact dies_now live dead (fun closes => absurd closes unclosed) fun _ => by rw [sent, place]

/-- A connection of which a task has ended is dead. -/
theorem dead_of_ended
    (run : Run (Connection.opened slot generation options born) born moments now c)
    (ended : c.reader = .ended ∨ c.writer = .ended) : c.connected = false := by
  induction run with
  | start =>
    rcases ended with reader | ended
    · cases reader
    · rcases writer_opened slot generation options born with writer | writer <;>
        rw [writer] at ended <;> cases ended
  | rest _ _ _ ih => exact ih ended
  | act _ taken ih =>
    have stays_dead := dead_of_effect (.of_step taken)
    cases Flow.of_step taken with
    | rests reader writer _ _ _ =>
      apply stays_dead
      exact ih (ended.imp reader writer.1)
    | queues _ _ _ reader _ writer _ _ _ =>
      apply stays_dead
      rw [reader, writer] at ended
      exact ih ended
    | hands reader _ writer _ _ _ =>
      apply stays_dead
      rw [reader, writer] at ended
      exact ih (ended.imp_right nofun)
    | readerEnds dead _ _ _ => exact dead
    | writerEnds dead _ _ _ _ => exact dead

end Run

/-- In every run of a connection, with its reader and its writer ending for whatever reason or by force,
and with closings in any order and number: while it is live it has sent no notice. It dies in one
moment; if that is a closing then no notice is ever sent, and otherwise one is, at that moment, with its
own slot and generation. It is dead as soon as one of its two tasks has ended. And to let go of it,
which closes it and stops both tasks, sends nothing, whatever its state is. -/
theorem one_notice_per_loss {slot generation born now : Nat} {options : Options} {moments : List Moment}
    {c : Connection} (run : Run (Connection.opened slot generation options born) born moments now c) :
    (c.connected = true → noticesIn (eventsOf moments) = []) ∧
    (c.connected = false → ∃ older m newer, moments = older ++ m :: newer ∧
      Death ⟨slot, generation⟩ older m newer) ∧
    (c.reader = .ended ∨ c.writer = .ended → c.connected = false) ∧
    c.discard.connected = false ∧ Silently now c c.discard := by
  obtain ⟨while_live, once_dead⟩ := death_of_run run
  exact ⟨fun live => (while_live live).2, once_dead, dead_of_ended run, connected_discard c,
    .discard now c⟩

/-- The server closes the stream, which is a loss; then the connection is closed, twice, the writer says
farewell and ends, and that is no second loss. -/
def lostThenClosed : List (Nat × Action) := [
  (1, .receive .close), (2, .close), (3, .beginClose), (4, .completeWrite), (5, .close)]

/-- One notice is sent, with the slot and the generation of the connection. -/
theorem death_of_lostThenClosed : ∃ moments now c,
    Run (Connection.opened 3 7 .default 0) 0 moments now c ∧ c.connected = false ∧
      noticesIn (eventsOf moments) = [⟨3, 7⟩] ∧ ∃ older m newer, moments = older ++ m :: newer ∧
        Death ⟨3, 7⟩ older m newer := by
  have played : ((History.play step (Connection.opened 3 7 .default 0) lostThenClosed).map fun r =>
      decide (r.2.reader = .ended ∧ r.2.writer = .ended ∧
        noticesIn (eventsOf r.1) = [⟨3, 7⟩])) = some true := by decide
  obtain ⟨⟨moments, c⟩, went, computed⟩ := Option.map_eq_some_iff.1 played
  obtain ⟨reader, _, sent⟩ := of_decide_eq_true computed
  have run : Run (Connection.opened 3 7 .default 0) 0 moments (History.lastInstant 0 lostThenClosed) c :=
    History.of_play went (by decide)
  obtain ⟨_, once_dead, ended, _⟩ := one_notice_per_loss run
  have dead := ended (.inl reader)
  exact ⟨moments, _, c, run, dead, sent, once_dead dead⟩

end CallPool.Connection
