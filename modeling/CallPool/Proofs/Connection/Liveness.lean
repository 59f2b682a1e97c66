import CallPool.Proofs.Connection.Pulse

/-!
# How long a silent connection lives

Whatever comes in from the server starts the liveness window of a connection anew, and nothing else does.
As long as no other end comes over it, a connection is live at an instant exactly if no instant up to it
lies outside the window; so it is lost at the first instant at which the server was silent for as long as
the options allow.

The proof goes along the run while the connection lives: it stays alert, and time passes only up to the
end of the window that is open (`alert_of_run`). The moment of its death is then one in which the reader
finds the window closed (`fallsSilent_of_death`), and behind it nothing is heard any more.

Main statement: `liveness_window_is_exact`.
-/

set_option autoImplicit false

namespace CallPool.Connection

/-- When the last frame up to an instant came in, or when the connection was opened if none did. -/
def lastHeard (began : Nat) (moments : List Moment) (t : Nat) : Nat :=
  moments.foldl (fun last m => if m.action.hears = true ∧ m.instant ≤ t then m.instant else last) began

/-- An instant at which the server has been silent for as long as is allowed, and the first one. -/
structure FallsSilent (wait began : Nat) (moments : List Moment) (t : Nat) : Prop where
  opened : began ≤ t
  silent : lastHeard began moments t + wait ≤ t
  first : ∀ t', began ≤ t' → t' < t → t' < lastHeard began moments t' + wait

/-- One more moment counts if it is a sign of life, and not too late. -/
theorem lastHeard_concat (began : Nat) (ms : List Moment) (m : Moment) (t : Nat) :
    lastHeard began (ms ++ [m]) t =
      if m.action.hears = true ∧ m.instant ≤ t then m.instant else lastHeard began ms t := by
  simp [lastHeard]

/-- What is not heard, or comes later, does not count. -/
theorem lastHeard_append {began t : Nat} {older newer : List Moment}
    (unheard : ∀ m ∈ newer, m.action.hears = true → t < m.instant) :
    lastHeard began (older ++ newer) t = lastHeard began older t := by
  unfold lastHeard
  rw [List.foldl_append]
  generalize older.foldl _ began = last
  induction newer with
  | nil => rfl
  | cons m newer ih =>
    have later : ¬ (m.action.hears = true ∧ m.instant ≤ t) := fun ⟨heard, le⟩ =>
      Nat.not_le_of_lt (unheard m List.mem_cons_self heard) le
    rw [List.foldl_cons, if_neg later]
    exact ih fun m' member => unheard m' (List.mem_cons_of_mem m member)

/-- Behind all moments nothing more is heard. -/
theorem lastHeard_of_le {began t t' : Nat} {ms : List Moment} (upTo : ∀ m ∈ ms, m.instant ≤ t)
    (le : t ≤ t') : lastHeard began ms t' = lastHeard began ms t := by
  unfold lastHeard
  induction ms generalizing began with
  | nil => rfl
  | cons m ms ih =>
    have first := upTo m List.mem_cons_self
    have first' := Nat.le_trans first le
    rw [List.foldl_cons, List.foldl_cons]
    simp only [first, first']
    exact ih fun m' member => upTo m' (List.mem_cons_of_mem m member)

/-- A connection falls silent at one instant only. -/
theorem FallsSilent.unique {wait began t t' : Nat} {moments : List Moment}
    (h : FallsSilent wait began moments t) (h' : FallsSilent wait began moments t') : t = t' := by
  have ordered : ∀ {t t'}, FallsSilent wait began moments t → FallsSilent wait began moments t' →
      ¬ t < t' := by
    intro t t' h h' sooner
    exact Nat.not_le_of_lt (h'.first t h.opened sooner) h.silent
  have := ordered h h'
  have := ordered h' h
  omega

section Step

variable {c c' : Connection} {since now : Nat} {a : Action} {es : List Event}

/-- What an alert connection dies of, if nothing disturbs it, is silence. -/
theorem Pulse.silent_of_dead (pulse : Pulse c now c' a es) (alert : Alert since c)
    (dead : c'.connected = false) :
    a.hears = false ∧ since + c.options.pongWait.nanos ≤ now ∧ c'.reader = .ended := by
  have lives : c'.connected ≠ c.connected := by
    rw [dead, alert.live]
    nofun
  cases pulse with
  | aside same _ => exact absurd same.connected lives
  | hears _ same => exact absurd same.connected lives
  | begins _ same => exact absurd same.connected lives
  | pings _ _ same => exact absurd same.connected lives
  | writes _ same _ => exact absurd same.connected lives
  | pinged _ same => exact absurd same.connected lives
  | expires listening due _ ended =>
    obtain rfl := Reader.listening.inj (listening.symm.trans alert.listening)
    exact ⟨rfl, due, ended⟩

/-- A reader that has ended hears nothing and has ended for good. -/
theorem deaf_of_ended (taken : c.step now a = some (c', es)) (ended : c.reader = .ended) :
    a.hears = false ∧ c'.reader = .ended := by
  have receives_not : ∀ inbound, a ≠ .receive inbound := by
    rintro inbound rfl
    simp [step, ended] at taken
  have deaf : a.hears = false := by
    cases a with
    | receive inbound => exact absurd rfl (receives_not inbound)
    | _ => rfl
  have ends : ∀ (d : Connection) (fault : WriteFault), d.reader = .ended →
      (d.endWriter fault).1.reader = .ended := by
    intro d fault unread
    obtain ⟨f, judged⟩ := judgeAll_eq d d.queue (.failed fault)
    unfold endWriter
    rw [(Flow.lose_rest _).2.1, judged]
    exact unread
  refine ⟨deaf, ?_⟩
  cases Takes.of_step taken with
  | calls entered => exact ((SameTasks.of_register? entered).trans (.enqueue _ _)).reader.trans ended
  | sends _ => exact ((SameTasks.join c .send .awaited).trans (.enqueue _ _)).reader.trans ended
  | waits entered => exact (SameTasks.of_register? entered).reader.trans ended
  | drops _ => exact (SameTasks.leave c _).reader.trans ended
  | wakes _ _ => exact (SameTasks.leave c _).reader.trans ended
  | hears _ => exact absurd rfl (receives_not _)
  | delivers _ _ _ => exact absurd rfl (receives_not _)
  | endsReader _ => exact (Flow.lose_rest { c with reader := .ended }).2.1
  | endsWriter _ => exact ends c _ ended
  | cutsOff _ => exact ends (c.judge _ _) _ ended
  | _ => exact ended

end Step

section Run

variable {slot generation began now : Nat} {options : Options} {moments older newer : List Moment}
  {m : Moment} {c c' : Connection}

/-- A reader that has ended takes in nothing more. -/
theorem deaf_of_run (run : Run c began moments now c') (ended : c.reader = .ended) :
    c'.reader = .ended ∧ ∀ m ∈ moments, m.action.hears = false := by
  induction run with
  | start => exact ⟨ended, by simp⟩
  | rest _ _ _ ih => exact ih
  | act _ taken ih =>
    obtain ⟨deaf, still_ended⟩ := deaf_of_ended taken ih.1
    refine ⟨still_ended, fun m member => ?_⟩
    rcases List.mem_append.1 member with earlier | last
    · exact ih.2 m earlier
    · rw [List.mem_singleton.1 last]
      exact deaf

/-- Nothing but silence ends a connection in these moments. -/
def Undisturbed (moments : List Moment) : Prop :=
  ∀ m ∈ moments, m.before.connected = true → m.before.disturbs m.action = false

instance (moments : List Moment) : Decidable (Undisturbed moments) :=
  inferInstanceAs (Decidable (∀ m ∈ moments, _))

/-- A run that is undisturbed was so from its beginning. -/
theorem Undisturbed.of_append (h : Undisturbed (older ++ newer)) : Undisturbed older :=
  fun m member => h m (List.mem_append_left _ member)

/-- A connection that is live has been alert all the time, and no instant before now lies outside its
window. -/
theorem alert_of_run
    (run : PromptRun (Connection.opened slot generation options began) began moments now c)
    (undisturbed : Undisturbed moments) (live : c.connected = true) :
    Alert (lastHeard began moments now) c ∧
      ∀ t, began ≤ t → t < now → t < lastHeard began moments t + options.pongWait.nanos := by
  induction run with
  | start => exact ⟨.opened slot generation options began, fun t le lt => absurd lt (by omega)⟩
  | @act ms now d d' a es past taken ih =>
    have was_live : d.connected = true := by
      cases was : d.connected with
      | true => rfl
      | false =>
        rw [dead_of_effect (.of_step taken) was] at live
        cases live
    obtain ⟨alert, window⟩ := ih undisturbed.of_append was_live
    have latest : (⟨now, a, es, d, d'⟩ : Moment) ∈ ms ++ [⟨now, a, es, d, d'⟩] := by simp
    have pulse := Pulse.of_step alert (undisturbed _ latest was_live) taken
    refine ⟨?_, fun t le lt => ?_⟩
    · rw [lastHeard_concat]
      simpa using alert.of_pulse pulse live
    · rw [lastHeard_append (by simp [lt])]
      exact window t le lt
  | @rest ms now later d past _ allowed ih =>
    obtain ⟨alert, window⟩ := ih undisturbed live
    have upTo : ∀ m ∈ ms, m.instant ≤ now := fun m member => (past.instant_mem_range.2 m member).2
    have same_options := options_of_run (run_of_prompt past)
    rw [lastHeard_of_le upTo (by omega)]
    refine ⟨alert, fun t le lt => ?_⟩
    rcases Nat.lt_or_ge t now with earlier | passing
    · exact window t le earlier
    · -- Time passes up to the end of the window and no further: there the reader would be ready.
      have alarm : lastHeard began ms now + d.options.pongWait.nanos ∈ d.alarms := by
        unfold alarms readerAlarm
        simp [alert.listening]
      have ahead : now < lastHeard began ms now + d.options.pongWait.nanos := by
        by_contra due
        have ready : Action.expireReader ∈ d.ready now := by
          unfold Connection.ready readerReady
          simp [alert.listening, Nat.le_of_not_lt due]
        rw [allowed.1] at ready
        cases ready
      have on_time := (allowed.2 _ alarm).resolve_left (Nat.not_le_of_lt ahead)
      rw [same_options] at on_time
      rw [lastHeard_of_le upTo passing]
      exact Nat.lt_of_lt_of_le lt on_time

/-- The moment in which an undisturbed connection dies is the first at which the server was silent for
too long, and behind it nothing is heard. -/
theorem fallsSilent_of_death {notice : Notice}
    (run : PromptRun (Connection.opened slot generation options began) began
      (older ++ m :: newer) now c)
    (undisturbed : Undisturbed (older ++ m :: newer)) (death : Death notice older m newer) :
    FallsSilent options.pongWait.nanos began (older ++ m :: newer) m.instant := by
  obtain ⟨past, taken, _, _, behind⟩ := run.at_moment
  obtain ⟨alert, window⟩ := alert_of_run past undisturbed.of_append death.first
  have pulse := Pulse.of_step alert (undisturbed m (by simp) death.first) taken
  obtain ⟨deaf, due, ended⟩ := pulse.silent_of_dead alert (death.dead m (by simp))
  have deaf_behind := (deaf_of_run (run_of_prompt behind) ended).2
  have same_heard : ∀ t, lastHeard began (older ++ m :: newer) t = lastHeard began older t := by
    intro t
    refine lastHeard_append fun m' member heard => ?_
    rcases List.mem_cons.1 member with rfl | later
    · rw [deaf] at heard
      cases heard
    · rw [deaf_behind m' later] at heard
      cases heard
  rw [options_of_run (run_of_prompt past)] at due
  refine ⟨past.instant_mem_range.1, ?_, fun t le lt => ?_⟩
  · rw [same_heard]
    exact due
  · rw [same_heard]
    exact window t le lt

/-- A moment in which a loss is told is that of the death. -/
theorem eq_of_lost {notice notice' : Notice} (death : Death notice older m newer)
    (unclosed : m.action ≠ .close) {m' : Moment} (member : m' ∈ older ++ m :: newer)
    (told : Event.lost notice' ∈ m'.events) : m' = m := by
  obtain ⟨here, everywhere⟩ := death.lost unclosed
  rw [eventsOf_append, eventsOf_cons, noticesIn_append, noticesIn_append, here] at everywhere
  have sizes := congrArg List.length everywhere
  simp only [List.length_append, List.length_singleton] at sizes
  have silent : ∀ ms : List Moment, (noticesIn (eventsOf ms)).length = 0 → m' ∉ ms := by
    intro ms none_sent among
    have sent : notice' ∈ noticesIn (eventsOf ms) :=
      List.mem_filterMap.2 ⟨_, mem_eventsOf.2 ⟨m', among, told⟩, rfl⟩
    rw [List.length_eq_zero_iff.1 none_sent] at sent
    cases sent
  rcases List.mem_append.1 member with before | here
  · exact absurd before (silent older (by omega))
  · rcases List.mem_cons.1 here with same | behind
    · exact same
    · exact absurd behind (silent newer (by omega))

/-- A connection that is live at the end of an instant has been within its window until then. -/
theorem window_of_live
    (run : PromptRun (Connection.opened slot generation options began) began moments now c)
    (undisturbed : Undisturbed moments) {t : Nat} (lt : t < now)
    (lives : (stateAt (Connection.opened slot generation options began) moments t).connected = true) :
    ∀ t', began ≤ t' → t' ≤ t → t' < lastHeard began moments t' + options.pongWait.nanos := by
  obtain ⟨older, newer, middle, rfl, _, behind, first, _⟩ := run.cut_behind t
  intro t' le' upTo_t
  have all_live := ((death_of_run (run_of_prompt first)).1 lives).1
  cases live : c.connected with
  | true => exact (alert_of_run run undisturbed live).2 t' le' (by omega)
  | false =>
    obtain ⟨front, m, rest, same, death⟩ := (death_of_run (run_of_prompt run)).2 live
    rw [same] at run undisturbed
    have falls := fallsSilent_of_death run undisturbed death
    rw [← same] at falls
    -- The death is not among the moments up to `t`, behind which the connection is live.
    have later : t < m.instant := by
      have member : m ∈ older ++ newer := by simp [same]
      rcases List.mem_append.1 member with early | late
      · have dead := death.dead m (by simp)
        rw [all_live m early] at dead
        cases dead
      · exact behind m late
    exact falls.first t' le' (by omega)

/-- A connection that has been within its window until the end of an instant is live then. -/
theorem live_of_window
    (run : PromptRun (Connection.opened slot generation options began) began moments now c)
    (undisturbed : Undisturbed moments) {t : Nat}
    (window : ∀ t', began ≤ t' → t' ≤ t → t' < lastHeard began moments t' + options.pongWait.nanos) :
    (stateAt (Connection.opened slot generation options began) moments t).connected = true := by
  obtain ⟨older, newer, middle, rfl, upTo, behind, first, _⟩ := run.cut_behind t
  by_contra dead
  obtain ⟨front, m, rest, same, death⟩ :=
    (death_of_run (run_of_prompt first)).2 (Bool.eq_false_iff.2 dead)
  have quiet := undisturbed.of_append
  rw [same] at first quiet
  have falls := fallsSilent_of_death first quiet death
  rw [← same] at falls
  have early := upTo m (by simp [same])
  have open_there := window m.instant falls.opened early
  have same_heard : lastHeard began (older ++ newer) m.instant = lastHeard began older m.instant :=
    lastHeard_append fun m' member _ => Nat.lt_of_le_of_lt early (behind m' member)
  rw [same_heard] at open_there
  exact Nat.not_le_of_lt open_there falls.silent

/-- A connection that is dead has told of its loss in one moment, in which the server was silent for too
long for the first time. -/
theorem lost_once
    (run : PromptRun (Connection.opened slot generation options began) began moments now c)
    (undisturbed : Undisturbed moments) (dead : c.connected = false) :
    ∃ m ∈ moments, FallsSilent options.pongWait.nanos began moments m.instant ∧
      (∃ notice, Event.lost notice ∈ m.events) ∧
        ∀ m' ∈ moments, ∀ notice, Event.lost notice ∈ m'.events → m' = m := by
  obtain ⟨older, m, newer, rfl, death⟩ := (death_of_run (run_of_prompt run)).2 dead
  have unclosed : m.action ≠ .close := by
    intro closes
    have quiet := undisturbed m (by simp) death.first
    rw [closes] at quiet
    cases quiet
  have sent : (⟨slot, generation⟩ : Notice) ∈ noticesIn m.events := by
    rw [(death.lost unclosed).1]
    exact List.mem_singleton_self _
  obtain ⟨e, member, same⟩ := List.mem_filterMap.1 sent
  have told : ∃ notice, Event.lost notice ∈ m.events := by
    cases e with
    | lost notice => exact ⟨notice, member⟩
    | _ => cases same
  exact ⟨m, by simp, fallsSilent_of_death run undisturbed death, told,
    fun m' among notice seen => eq_of_lost death unclosed among seen⟩

/-- A connection that nothing else ends is live at an instant exactly if no instant up to it lies
outside its window, and is lost at the first instant at which it has heard nothing for as long as its
options allow. What goes out has no part in it: `lastHeard` only looks at what comes in. -/
theorem liveness_window_is_exact
    (run : PromptRun (Connection.opened slot generation options began) began moments now c)
    (undisturbed : Undisturbed moments) :
    (∀ t, began ≤ t → t < now →
      ((stateAt (Connection.opened slot generation options began) moments t).connected = true ↔
        ∀ t', began ≤ t' → t' ≤ t → t' < lastHeard began moments t' + options.pongWait.nanos)) ∧
    ∀ t, (∃ m ∈ moments, m.instant = t ∧ ∃ notice, Event.lost notice ∈ m.events) ↔
      c.connected = false ∧ FallsSilent options.pongWait.nanos began moments t := by
  refine ⟨fun t _ lt => ⟨window_of_live run undisturbed lt, live_of_window run undisturbed⟩, fun t => ?_⟩
  constructor
  · rintro ⟨m, member, rfl, notice, told⟩
    have dead := (dead_of_lost_in_run (run_of_prompt run) (mem_eventsOf.2 ⟨m, member, told⟩)).2
    obtain ⟨m', _, falls, _, only⟩ := lost_once run undisturbed dead
    rw [only m member notice told]
    exact ⟨dead, falls⟩
  · rintro ⟨dead, falls⟩
    obtain ⟨m, member, falls', told, _⟩ := lost_once run undisturbed dead
    exact ⟨m, member, falls'.unique falls, told⟩

end Run

/-- Frames come in that are no response, and one just in front of the end of the window; pings go out all
the time; then the server is silent for a minute. -/
def fallenSilent : List (Nat × Action) := [
  (10000000000, .receive (.text "not json")), (20000000000, .call ⟨"a"⟩ .ping (Duration.ofSeconds 2)),
  (20000000000, .beginData), (20000000000, .completeWrite), (22000000000, .wake 0),
  (30000000000, .beginPing), (30000000000, .completeWrite), (60000000000, .beginPing),
  (60000000000, .completeWrite), (69999999999, .receive (.binary [0xFF])),
  (90000000000, .beginPing), (90000000000, .completeWrite), (120000000000, .beginPing),
  (120000000000, .completeWrite), (129999999999, .expireReader), (129999999999, .beginClose),
  (129999999999, .completeWrite), (200000000000, .close)]

/-- The connection is live at the last instant of its window, and is lost at the next one. -/
theorem lost_of_fallenSilent : ∃ moments now c,
    PromptRun (Connection.opened 0 0 .default 0) 0 moments now c ∧ Undisturbed moments ∧
      (∀ t ≤ 129999999998, t < lastHeard 0 moments t + 60000000000) ∧
      FallsSilent 60000000000 0 moments 129999999999 := by
  have played : ((History.play step (Connection.opened 0 0 .default 0) fallenSilent).map fun r =>
      decide (Undisturbed r.1 ∧
        (stateAt (Connection.opened 0 0 .default 0) r.1 129999999998).connected = true ∧
          ∃ m ∈ r.1, m.instant = 129999999999 ∧ m.events.any (·.notice?.isSome) = true)) = some true := by
    decide +kernel
  obtain ⟨⟨moments, c⟩, went, computed⟩ := Option.map_eq_some_iff.1 played
  obtain ⟨undisturbed, live, m, member, at_end, told⟩ := of_decide_eq_true computed
  have run : PromptRun (Connection.opened 0 0 .default 0) 0 moments
      (History.lastInstant 0 fallenSilent) c := History.of_play_resting went (by decide +kernel)
  obtain ⟨while_open, when_lost⟩ := liveness_window_is_exact run undisturbed
  have window := (while_open 129999999998 (Nat.zero_le _) (by decide)).1 live
  obtain ⟨e, among, noticed⟩ := List.any_eq_true.1 told
  have lost : ∃ notice, Event.lost notice ∈ m.events := by
    cases e with
    | lost notice => exact ⟨notice, among⟩
    | _ => cases noticed
  exact ⟨moments, _, c, run, undisturbed, fun t le => window t (Nat.zero_le t) le,
    ((when_lost 129999999999).1 ⟨m, member, at_end, lost⟩).2⟩

end CallPool.Connection
