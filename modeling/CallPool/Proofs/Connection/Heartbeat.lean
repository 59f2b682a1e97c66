import CallPool.Proofs.Connection.Isolation
import CallPool.Proofs.Connection.Liveness

/-!
# When a healthy peer is given up

The writer sends a ping in each period, and a healthy peer answers it within a bounded delay. If period
and delay together are shorter than the liveness window, then the window never closes: within a period
behind whatever was heard last a ping goes out, and its pong comes in before the window ends.

The proof goes along the run with one invariant (`Paced`): the connection is alert, the next ping is not
overdue, and every period of the past has had its ping. That the window is open follows from the
invariant and the answers of the peer (`Paced.window_open`).

All this is true of a writer that has started. One whose first ping has no instant on the clock breaks
down instead, and takes the connection with it before any time passes (`dead_of_unstartable`). The checks
of the options let such a ping period through.

Main statement: `fate_with_healthy_peer`.
-/

set_option autoImplicit false

namespace CallPool

/-- Options that pass all checks have no duration of zero. -/
theorem Options.durations_pos {o : Options} (valid : o.validate = .ok ()) :
    ∀ d ∈ o.durations, 0 < d.2.nanos := by
  intro d member
  have no_fault : o.fault? = none := by
    unfold validate at valid
    cases fault : o.fault? with
    | none => rfl
    | some _ => simp [fault] at valid
  have none_zero : o.durations.find? (fun d => d.2.nanos == 0) = none := by
    unfold fault? at no_fault
    split at no_fault
    · cases no_fault
    · split at no_fault
      · cases no_fault
      · split at no_fault
        · cases no_fault
        · assumption
  have positive := List.find?_eq_none.1 none_zero d member
  simp only [beq_iff_eq] at positive
  exact Nat.pos_of_ne_zero positive

namespace Connection

/-- The prompt runs in which each write is over at the instant at which it begins. -/
abbrev SwiftRun : Connection → Nat → List Moment → Nat → Connection → Prop :=
  History step fun c now later => c.mayRest now later ∧ c.writer.began? = none

/-- Whether an event tells of a ping that was written. -/
def Event.isPing : Event → Bool
  | .pinged => true
  | _ => false

/-- Whether the reader takes a pong in. -/
def Action.isPong : Action → Bool
  | .receive .pong => true
  | _ => false

/-- Whether the server and the socket do nothing wrong: no write fails, and the stream stays open. -/
def Action.isSound : Action → Bool
  | .failWrite _ => false
  | .receive .close => false
  | .receive .failure => false
  | _ => true

/-- Whether nobody closes the connection or stops its tasks by force. -/
def Action.keeps : Action → Bool
  | .close => false
  | .abortReader => false
  | .abortWriter => false
  | _ => true

/-- Whether each ping has its pong within a delay, or still has time for it. -/
def PongsWithin (delay : Nat) (moments : List Moment) (now : Nat) : Prop :=
  ∀ older m newer, moments = older ++ m :: newer → m.events.any Event.isPing = true →
    now ≤ m.instant + delay ∨
      ∃ m' ∈ newer, m'.action.isPong = true ∧ m'.instant ≤ m.instant + delay

/-- Each ping is answered in time if the first one is, and those of the later moments are. -/
theorem pongsWithin_cons {delay now : Nat} {m : Moment} {moments : List Moment} :
    PongsWithin delay (m :: moments) now ↔
      (m.events.any Event.isPing = true → now ≤ m.instant + delay ∨
        ∃ m' ∈ moments, m'.action.isPong = true ∧ m'.instant ≤ m.instant + delay) ∧
      PongsWithin delay moments now := by
  constructor
  · intro h
    exact ⟨h [] m moments rfl, fun older m' newer same => h (m :: older) m' newer (by rw [same]; rfl)⟩
  · rintro ⟨first, others⟩ older m' newer same
    cases older with
    | nil =>
      obtain ⟨rfl, rfl⟩ := List.cons.inj same
      exact first
    | cons m₁ older => exact others older m' newer (List.cons.inj same).2

instance (delay now : Nat) : ∀ moments, Decidable (PongsWithin delay moments now)
  | [] => .isTrue fun older m newer same => by simp at same
  | _ :: moments =>
    have := instDecidablePongsWithin delay now moments
    decidable_of_iff' _ pongsWithin_cons

/-- What a healthy peer and its socket do until an instant. -/
structure Healthy (delay : Nat) (moments : List Moment) (now : Nat) : Prop where
  sound : ∀ m ∈ moments, m.action.isSound = true
  answers : PongsWithin delay moments now

/-- Whether the writer breaks down because it cannot start. -/
def breaksDown (c : Connection) : Action → Bool
  | .abortWriter => c.writer = .unstartable
  | _ => false

/-- Whether a connection is left to itself: nobody stops its writer unless that cannot start. -/
def Kept (moments : List Moment) : Prop :=
  ∀ m ∈ moments, m.action.keeps = true ∨ m.before.breaksDown m.action = true

instance (moments : List Moment) : Decidable (Kept moments) :=
  inferInstanceAs (Decidable (∀ m ∈ moments, _))

/-- A connection whose pings go out in time. -/
structure Paced (began : Nat) (moments : List Moment) (now : Nat) (c : Connection) : Prop where
  alert : Alert (lastHeard began moments now) c
  started : c.writer ≠ .unstartable
  /-- What is being written was begun now. -/
  swift : ∀ i, c.writer.began? = some i → i = now
  on_time : now ≤ c.nextPing
  /-- In each period of the past a ping went out, or goes out now. -/
  beats : ∀ t, began ≤ t → t + c.options.pingPeriod.nanos < c.nextPing →
    (∃ m ∈ moments, m.events.any Event.isPing = true ∧ t < m.instant ∧
      m.instant ≤ t + c.options.pingPeriod.nanos) ∨
    ∃ i, c.writer = .ping i ∧ t < i ∧ i ≤ t + c.options.pingPeriod.nanos

/-- A connection breaks down only over a writer that could not be started. -/
theorem unstartable_of_breaksDown {c : Connection} {a : Action} (breaks : c.breaksDown a = true) :
    c.writer = .unstartable := by
  unfold breaksDown at breaks
  split at breaks
  · simpa using breaks
  · cases breaks

/-- A writer whose first ping has an instant on the clock starts. -/
theorem writer_opened_of_le {slot generation began : Nat} {options : Options}
    (fits : began + options.pingPeriod.nanos ≤ latestInstant) :
    (Connection.opened slot generation options began).writer = .idle :=
  if_pos fits

/-- A connection whose first ping falls on an instant the clock can tell starts at its pace. -/
theorem Paced.opened {slot generation began : Nat} {options : Options}
    (fits : began + options.pingPeriod.nanos ≤ latestInstant) :
    Paced began [] began (Connection.opened slot generation options began) where
  alert := .opened slot generation options began
  started := by rw [writer_opened_of_le fits]; nofun
  swift := by rw [writer_opened_of_le fits]; nofun
  on_time := Nat.le_add_right _ _
  beats := fun t le lt => by
    simp only [Connection.opened] at lt
    omega

section Moments

variable {slot generation began now delay : Nat} {options : Options}
  {moments older newer : List Moment} {m : Moment} {c c' : Connection}

/-- A swift run is a prompt one. -/
theorem run_of_swift (run : SwiftRun c began moments now c') : PromptRun c began moments now c' :=
  run.loosen fun _ _ _ allowed => allowed.1

/-- A pong is a sign of life. -/
theorem hears_of_isPong {a : Action} (pongs : a.isPong = true) : a.hears = true := by
  unfold Action.isPong at pongs
  split at pongs
  · rfl
  · cases pongs

/-- Whatever was heard until an instant was heard no later than what was heard last. -/
theorem le_lastHeard (run : Run c began moments now c') {t : Nat} (member : m ∈ moments)
    (heard : m.action.hears = true) (le : m.instant ≤ t) : m.instant ≤ lastHeard began moments t := by
  induction run with
  | start => cases member
  | rest _ _ _ ih => exact ih member
  | @act ms now _ _ a es past _ ih =>
    rw [lastHeard_concat]
    rcases List.mem_append.1 member with earlier | last
    · split
      · exact (past.instant_mem_range.2 m earlier).2
      · exact ih earlier
    · obtain rfl := List.mem_singleton.1 last
      exact Nat.le_of_eq (if_pos ⟨heard, le⟩).symm

/-- A connection counts as heard from when it begins. -/
theorem began_le_lastHeard (run : Run c began moments now c') (t : Nat) :
    began ≤ lastHeard began moments t := by
  induction run with
  | start => exact Nat.le_refl _
  | rest _ _ _ ih => exact ih
  | act past _ ih =>
    rw [lastHeard_concat]
    split
    · exact past.instant_mem_range.1
    · exact ih

/-- Who answers in time until an instant has done so before. -/
theorem PongsWithin.of_concat (h : PongsWithin delay (moments ++ [m]) now)
    (latest : m.instant = now) : PongsWithin delay moments now := by
  rintro older m' newer rfl pinged
  rcases h older m' (newer ++ [m]) (by simp) pinged with in_time | ⟨pong, member, answers, soon⟩
  · exact .inl in_time
  · rcases List.mem_append.1 member with earlier | last
    · exact .inr ⟨pong, earlier, answers, soon⟩
    · rw [List.mem_singleton.1 last, latest] at soon
      exact .inl soon

/-- Pings that are answered in time at a later instant are so at an earlier one. -/
theorem PongsWithin.earlier {later : Nat} (h : PongsWithin delay moments later) (lt : now < later) :
    PongsWithin delay moments now := by
  intro older m newer same pinged
  exact (h older m newer same pinged).imp_left fun in_time => by omega

/-- While pings go out in time and are answered in time, the window is open. -/
theorem Paced.window_open (h : Paced began moments now c)
    (run : Run (Connection.opened slot generation options began) began moments now c)
    (answers : PongsWithin delay moments now)
    (margin : options.pingPeriod.nanos + delay < options.pongWait.nanos) :
    now < lastHeard began moments now + options.pongWait.nanos := by
  by_contra closed
  have same_options : c.options = options := options_of_run run
  have on_time := h.on_time
  -- A ping went out within a period behind what was heard last.
  rcases h.beats (lastHeard began moments now) (began_le_lastHeard run now)
    (by rw [same_options]; omega) with ⟨m, member, pinged, after, before⟩ | ⟨i, pinging, _, before⟩
  · rw [same_options] at before
    obtain ⟨older, newer, rfl⟩ := List.append_of_mem member
    rcases answers older m newer rfl pinged with in_time | ⟨pong, behind, answers, soon⟩
    · omega
    · -- Its pong was heard later than what was heard last.
      have later := (run.behind.instant_mem_range.2 pong behind).1
      have heard : pong.action.hears = true := hears_of_isPong answers
      have last := le_lastHeard run (t := now) (by simp [behind]) heard (by omega)
      omega
  · rw [same_options] at before
    have now_begun := h.swift i (by rw [pinging]; rfl)
    omega

end Moments

section Step

variable {slot generation began now delay : Nat} {options : Options} {moments : List Moment}
  {c c' : Connection} {a : Action} {es : List Event}

/-- What a healthy peer and those who keep the connection do does not disturb it. -/
theorem Paced.undisturbed (h : Paced began moments now c) (patient : 0 < c.options.writeWait.nanos)
    (taken : c.step now a = some (c', es)) (sound : a.isSound = true) (keeps : a.keeps = true) :
    c.disturbs a = false := by
  cases a with
  | close => cases keeps
  | abortReader => cases keeps
  | abortWriter => cases keeps
  | failWrite reason => cases sound
  | receive inbound =>
    cases inbound with
    | close => cases sound
    | failure => cases sound
    | _ => rfl
  | expireWrite =>
    -- No write has taken any time yet.
    simp only [step, Option.bind_eq_bind, Option.bind_eq_some_iff] at taken
    obtain ⟨i, under_way, expires⟩ := taken
    obtain rfl := h.swift i under_way
    rw [if_neg (by omega)] at expires
    cases expires
  | _ => rfl

/-- Pings of the past stay; a ping that was being written is told of now, or is still being written. -/
theorem Paced.beats_behind (h : Paced began moments now c)
    (goes_on : ∀ i, c.writer = .ping i → es.any Event.isPing = true ∨ c'.writer = .ping i) (t : Nat)
    (le : began ≤ t) (lt : t + c.options.pingPeriod.nanos < c.nextPing) :
    (∃ m ∈ moments ++ [⟨now, a, es, c, c'⟩], m.events.any Event.isPing = true ∧ t < m.instant ∧
      m.instant ≤ t + c.options.pingPeriod.nanos) ∨
    ∃ i, c'.writer = .ping i ∧ t < i ∧ i ≤ t + c.options.pingPeriod.nanos := by
  rcases h.beats t le lt with ⟨m, member, pinged⟩ | ⟨i, pinging, after, before⟩
  · exact .inl ⟨m, List.mem_append_left _ member, pinged⟩
  · obtain rfl := h.swift i (by rw [pinging]; rfl)
    rcases goes_on i pinging with told | still
    · exact .inl ⟨_, List.mem_append_right _ (List.mem_singleton_self _), told, after, before⟩
    · exact .inr ⟨i, still, after, before⟩

/-- A step that leaves the writer and its next ping alone keeps the pace. -/
theorem Paced.of_same_writer (h : Paced began moments now c)
    (alert : Alert (lastHeard began (moments ++ [⟨now, a, es, c, c'⟩]) now) c')
    (writer : c'.writer = c.writer) (nextPing : c'.nextPing = c.nextPing) (options : c'.options = c.options) :
    Paced began (moments ++ [⟨now, a, es, c, c'⟩]) now c' where
  alert := alert
  started := by
    rw [writer]
    exact h.started
  swift := by
    rw [writer]
    exact h.swift
  on_time := by
    rw [nextPing]
    exact h.on_time
  beats := by
    rw [options, nextPing]
    exact h.beats_behind fun i pinging => .inr (writer.trans pinging)

/-- A step that lets the connection live keeps its pace. -/
theorem Paced.of_pulse (h : Paced began moments now c) (pulse : Pulse c now c' a es)
    (lives : c'.connected = true) : Paced began (moments ++ [⟨now, a, es, c, c'⟩]) now c' := by
  have alert : Alert (lastHeard began (moments ++ [⟨now, a, es, c, c'⟩]) now) c' := by
    rw [lastHeard_concat]
    simpa using h.alert.of_pulse pulse lives
  cases pulse with
  | aside same _ => exact h.of_same_writer alert same.writer same.nextPing same.options
  | hears _ same => exact h.of_same_writer alert same.writer same.nextPing same.options
  | begins idle same =>
    refine ⟨alert, by rw [same.writer]; nofun, ?_, ?_, ?_⟩
    · rw [same.writer]
      exact fun i began => (Option.some.inj began).symm
    · rw [same.nextPing]
      exact h.on_time
    · rw [same.options, same.nextPing]
      refine h.beats_behind fun i pinging => ?_
      rw [idle] at pinging
      cases pinging
  | pings idle due same =>
    have now_due : c.nextPing = now := Nat.le_antisymm due h.on_time
    have next : c'.nextPing = now + c.options.pingPeriod.nanos := by
      rw [same.nextPing]
      unfold pingAfter
      rw [now_due, if_neg (by omega)]
    refine ⟨alert, by rw [same.writer]; nofun, ?_, by rw [next]; omega, fun t le lt => ?_⟩
    · rw [same.writer]
      exact fun i began => (Option.some.inj began).symm
    · have period : c'.options = c.options := same.options
      rw [next, period] at lt
      rw [period]
      by_cases passed : t + c.options.pingPeriod.nanos < c.nextPing
      · refine h.beats_behind (fun i pinging => ?_) t le passed
        rw [idle] at pinging
        cases pinging
      · exact .inr ⟨now, same.writer, by omega, by omega⟩
  | writes writing same _ =>
    refine ⟨alert, by rw [same.writer]; nofun, by rw [same.writer]; nofun, ?_, ?_⟩
    · rw [same.nextPing]
      exact h.on_time
    · rw [same.options, same.nextPing]
      refine h.beats_behind fun i pinging => ?_
      rw [writing] at pinging
      cases pinging
  | pinged _ same =>
    refine ⟨alert, by rw [same.writer]; nofun, by rw [same.writer]; nofun, ?_, ?_⟩
    · rw [same.nextPing]
      exact h.on_time
    · rw [same.options, same.nextPing]
      exact h.beats_behind fun _ _ => .inl rfl
  | expires _ _ dead _ =>
    rw [dead] at lives
    cases lives

/-- Time that may pass keeps the pace: it does not pass the next ping. -/
theorem Paced.rest {later : Nat} (h : Paced began moments now c) (upTo : ∀ m ∈ moments, m.instant ≤ now)
    (forward : now < later) (allowed : c.mayRest now later) (unwriting : c.writer.began? = none) :
    Paced began moments later c := by
  have idle : c.writer = .idle := by
    cases writer : c.writer with
    | idle => rfl
    | unstartable => exact absurd writer h.started
    | ended => exact absurd writer h.alert.running
    | _ =>
      rw [writer] at unwriting
      cases unwriting
  have alarm : c.nextPing ∈ c.alarms := by
    unfold alarms writerAlarm
    simp [idle]
  have ahead : now < c.nextPing := by
    by_contra due
    have ready : Action.beginPing ∈ c.ready now := by
      unfold Connection.ready writerReady
      simp [idle, Nat.le_of_not_lt due]
    rw [allowed.1] at ready
    cases ready
  refine ⟨?_, h.started, ?_, (allowed.2 _ alarm).resolve_left (Nat.not_le_of_lt ahead), h.beats⟩
  · rw [lastHeard_of_le upTo (Nat.le_of_lt forward)]
    exact h.alert
  · rw [unwriting]
    nofun

end Step

section Run

variable {slot generation began now delay : Nat} {options : Options} {moments : List Moment}
  {c : Connection}

/-- A connection whose writer has started keeps its pace with a healthy peer, and lives. -/
theorem Paced.of_run (fits : began + options.pingPeriod.nanos ≤ latestInstant)
    (patient : 0 < options.writeWait.nanos)
    (margin : options.pingPeriod.nanos + delay < options.pongWait.nanos)
    (run : SwiftRun (Connection.opened slot generation options began) began moments now c)
    (healthy : Healthy delay moments now) (kept : Kept moments) : Paced began moments now c := by
  induction run with
  | start => exact .opened fits
  | rest past forward allowed ih =>
    have paced := ih ⟨healthy.sound, healthy.answers.earlier forward⟩ kept
    exact paced.rest (fun m member => (past.instant_mem_range.2 m member).2) forward allowed.1 allowed.2
  | @act ms now d d' a es past taken ih =>
    have earlier : ∀ m ∈ ms, m ∈ ms ++ [⟨now, a, es, d, d'⟩] := fun m => List.mem_append_left _
    have latest : (⟨now, a, es, d, d'⟩ : Moment) ∈ ms ++ [⟨now, a, es, d, d'⟩] := by simp
    have answered : PongsWithin delay ms now := healthy.answers.of_concat rfl
    have paced := ih ⟨fun m member => healthy.sound m (earlier m member), answered⟩
      fun m member => kept m (earlier m member)
    have free := run_of_prompt (run_of_swift past)
    have same_options : d.options = options := options_of_run free
    have keeps : a.keeps = true :=
      (kept _ latest).resolve_right fun breaks => paced.started (unstartable_of_breaksDown breaks)
    have undisturbed := paced.undisturbed (by rw [same_options]; exact patient) taken
      (healthy.sound _ latest) keeps
    have pulse := Pulse.of_step paced.alert undisturbed taken
    refine paced.of_pulse pulse ?_
    by_contra dead
    have due := (pulse.silent_of_dead paced.alert (Bool.eq_false_iff.2 dead)).2.1
    have window := paced.window_open free answered margin
    rw [same_options] at due
    omega

/-- A writer that cannot start does nothing but break down, and that ends the connection. -/
theorem unstartable_of_step {c' : Connection} {a : Action} {es : List Event}
    (taken : c.step now a = some (c', es)) (unstartable : c.writer = .unstartable) :
    c'.writer = .unstartable ∨ c'.connected = false := by
  have other : ∀ {w}, c.writer = w → w ≠ .unstartable → False := fun is_w differs =>
    differs (is_w.symm.trans unstartable)
  cases Takes.of_step taken with
  | calls entered =>
    exact .inl (((SameTasks.of_register? entered).trans (.enqueue _ _)).writer.trans unstartable)
  | sends _ =>
    exact .inl (((SameTasks.join c .send .awaited).trans (.enqueue _ _)).writer.trans unstartable)
  | waits entered => exact .inl ((SameTasks.of_register? entered).writer.trans unstartable)
  | drops _ => exact .inl ((SameTasks.leave c _).writer.trans unstartable)
  | wakes _ _ => exact .inl ((SameTasks.leave c _).writer.trans unstartable)
  | endsReader _ => exact .inr (Flow.lose_rest { c with reader := .ended }).1
  | endsWriter _ => exact .inr (Flow.lose_rest _).1
  | begins idle _ => exact (other idle nofun).elim
  | pings idle _ => exact (other idle nofun).elim
  | parts idle _ => exact (other idle nofun).elim
  | writes writing => exact (other writing nofun).elim
  | pinged pinging => exact (other pinging nofun).elim
  | fails writing _ => exact (other writing nofun).elim
  | cutsOff writing => exact (other writing nofun).elim
  | closes => exact .inr rfl
  | _ => exact .inl unstartable

/-- A connection whose writer cannot start is dead before any time has passed. -/
theorem dead_of_unstartable (reaches_past : latestInstant < began + options.pingPeriod.nanos)
    (run : PromptRun (Connection.opened slot generation options began) began moments now c) :
    c.writer = .unstartable ∧ now = began ∨ c.connected = false := by
  induction run with
  | start => exact .inl ⟨if_neg (Nat.not_le_of_lt reaches_past), rfl⟩
  | rest _ _ allowed ih =>
    refine ih.imp_left fun ⟨unstartable, _⟩ => ?_
    have ready := allowed.1
    simp [Connection.ready, writerReady, unstartable] at ready
  | act _ taken ih =>
    rcases ih with ⟨unstartable, same⟩ | dead
    · exact (unstartable_of_step taken unstartable).imp_left fun still => ⟨still, same⟩
    · exact .inr (dead_of_effect (.of_step taken) dead)

/-- What a connection comes to that is left to itself, with options that pass all checks, with a peer
that answers each ping within a delay that together with the ping period is shorter than the liveness
window, and with a socket that takes each write at once. If its first ping has an instant on the clock
then it lives, whatever else happens: it never tells of its loss, and if no two of those who wait at a
time share an ID then none of them ends with one. If not then it is lost before any time has passed. -/
theorem fate_with_healthy_peer (valid : options.validate = .ok ())
    (margin : options.pingPeriod.nanos + delay < options.pongWait.nanos)
    (run : SwiftRun (Connection.opened slot generation options began) began moments now c)
    (healthy : Healthy delay moments now) (kept : Kept moments) :
    (began + options.pingPeriod.nanos ≤ latestInstant →
      c.connected = true ∧ (∀ notice, Event.lost notice ∉ eventsOf moments) ∧
        (DistinctWhileHeld moments → ∀ t slot' id,
          Event.finished t (.error (.connectionLost slot' id)) ∉ eventsOf moments)) ∧
    (latestInstant < began + options.pingPeriod.nanos → began < now →
      c.connected = false ∧ noticesIn (eventsOf moments) = [⟨slot, generation⟩]) := by
  have patient : 0 < options.writeWait.nanos :=
    Options.durations_pos valid ("write_wait", options.writeWait) (by simp [Options.durations])
  have free := run_of_prompt (run_of_swift run)
  refine ⟨fun fits => ?_, fun reaches_past passed => ?_⟩
  · have live := (Paced.of_run fits patient margin run healthy kept).alert.live
    refine ⟨live, fun notice told => ?_, not_lost_of_distinct free live⟩
    rw [(dead_of_lost_in_run free told).2] at live
    cases live
  · have dead : c.connected = false :=
      (dead_of_unstartable reaches_past (run_of_swift run)).resolve_left fun ⟨_, same⟩ => by omega
    obtain ⟨older, m, newer, rfl, death⟩ := (death_of_run free).2 dead
    have unclosed : m.action ≠ .close := by
      intro closes
      rcases kept m (by simp) with keeps | breaks
      · rw [closes] at keeps
        cases keeps
      · rw [closes] at breaks
        cases breaks
    exact ⟨dead, (death.lost unclosed).2⟩

end Run

/-- A call that has its reply and one that has none, two pings and their pongs, each of them late, and a
frame that is no response. -/
def lateAnswers : List (Nat × Action) := [
  (0, .call ⟨"a"⟩ .ping (Duration.ofSeconds 2)), (0, .beginData), (0, .completeWrite),
  (1000000000, .receive (.text "\x7b\"id\":\"a\"\x7d")), (1000000000, .wake 0),
  (30000000000, .beginPing), (30000000000, .completeWrite),
  (40000000000, .call ⟨"b"⟩ .ping (Duration.ofSeconds 2)), (40000000000, .beginData),
  (40000000000, .completeWrite), (42000000000, .wake 1), (58999999999, .receive .pong),
  (60000000000, .beginPing), (60000000000, .completeWrite), (70000000000, .receive (.binary [0xFF])),
  (88999999999, .receive .pong), (90000000000, .beginPing), (90000000000, .completeWrite),
  (110000000000, .receive .ping)]

/-- Options that pass all checks, with a ping period that no clock reaches the end of. -/
def endlessPings : Options :=
  { Options.default with
    pingPeriod := ⟨latestInstant + 1, by decide⟩
    pongWait := ⟨maxNanos, Nat.le_refl _⟩ }

/-- A call, whose connection dies at once: its writer breaks down, and then its reader stops. -/
def brokenDown : List (Nat × Action) := [
  (0, .call ⟨"a"⟩ .ping (Duration.ofSeconds 2)), (0, .abortWriter), (0, .wake 0), (0, .stopReader),
  (1, .call ⟨"b"⟩ .ping (Duration.ofSeconds 2))]

/-- A peer that takes up to 29 seconds for its pongs keeps the connection. With a ping period that the
checks let through, but that ends behind the last instant of the clock, a connection is lost at once. -/
theorem fates_of_lateAnswers_and_brokenDown :
    (∃ moments now c, SwiftRun (Connection.opened 0 0 .default 0) 0 moments now c ∧
      Healthy 29000000000 moments now ∧ Kept moments ∧ DistinctWhileHeld moments ∧ c.connected = true ∧
      ∀ t slot' id, Event.finished t (.error (.connectionLost slot' id)) ∉ eventsOf moments) ∧
    ∃ moments now c, endlessPings.validate = .ok () ∧
      SwiftRun (Connection.opened 0 0 endlessPings 0) 0 moments now c ∧
      Healthy 0 moments now ∧ Kept moments ∧ c.connected = false ∧
      noticesIn (eventsOf moments) = [⟨0, 0⟩] := by
  constructor
  · have played : ((History.play step (Connection.opened 0 0 .default 0) lateAnswers).map fun r =>
        decide ((∀ m ∈ r.1, m.action.isSound = true) ∧ Kept r.1 ∧
          PongsWithin 29000000000 r.1 110000000000 ∧
            (eventsOf r.1).filterMap Event.registeredId? = [⟨"a"⟩, ⟨"b"⟩])) = some true := by
      decide +kernel
    obtain ⟨⟨moments, c⟩, went, computed⟩ := Option.map_eq_some_iff.1 played
    obtain ⟨sound, kept, answers, ids⟩ := of_decide_eq_true computed
    have run : SwiftRun (Connection.opened 0 0 .default 0) 0 moments 110000000000 c :=
      History.of_play_resting went (by decide +kernel)
    have healthy : Healthy 29000000000 moments 110000000000 := ⟨sound, answers⟩
    have distinct : DistinctWhileHeld moments := distinctWhileHeld_of_nodup (by rw [ids]; decide)
    obtain ⟨live, _, none_lost⟩ :=
      (fate_with_healthy_peer (by decide) (by decide) run healthy kept).1 (by decide)
    exact ⟨moments, _, c, run, healthy, kept, distinct, live, none_lost distinct⟩
  · have played : ((History.play step (Connection.opened 0 0 endlessPings 0) brokenDown).map fun r =>
        decide ((∀ m ∈ r.1, m.action.isSound = true) ∧ Kept r.1 ∧ PongsWithin 0 r.1 1)) =
          some true := by
      decide +kernel
    obtain ⟨⟨moments, c⟩, went, computed⟩ := Option.map_eq_some_iff.1 played
    obtain ⟨sound, kept, answers⟩ := of_decide_eq_true computed
    have run : SwiftRun (Connection.opened 0 0 endlessPings 0) 0 moments 1 c :=
      History.of_play_resting went (by decide +kernel)
    have healthy : Healthy 0 moments 1 := ⟨sound, answers⟩
    obtain ⟨dead, lost⟩ :=
      (fate_with_healthy_peer (by decide) (by decide) run healthy kept).2 (by decide) (by decide)
    exact ⟨moments, _, c, by decide, run, healthy, kept, dead, lost⟩

end Connection

end CallPool
