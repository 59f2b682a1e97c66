import CallPool.Dial
import CallPool.Proofs.Backoff
import CallPool.Proofs.Connection.Heartbeat
import CallPool.Proofs.Pool.Abandoned
import CallPool.Proofs.Pool.Closing
import CallPool.Proofs.Pool.ConnectionRounds
import CallPool.Proofs.Pool.Perseverance

/-!
# The schedule of a reconnector

What a reconnector does from its start on, in a prompt run: it dials when its schedule says so and no
oftener (`OnSchedule`), it goes on until a dial of it succeeds, and reports that (`Stops`), and otherwise
it goes on until its attempts are spent (`Persists`). Who has given up leaves its slot to those who ask
for it (`Abandoned.of_gaveUp`).

Main statement: `reconnectors_keep_their_schedule`.
-/

set_option autoImplicit false

namespace CallPool

namespace Pool

variable {unfit? : Options → Option DialFault} {options : Options} {start p p' : Pool} {began now : Nat}
  {past es : List Event} {a : Action}
  {older newer moments : List Moment} {since m : Moment} {r : Reconnector} {t : Ticket} {s : Nat}

/-! ## When it dials -/

/-- A dial begins at the instant at which it is told. -/
theorem Work.instant_of_dialed (work : Work now p es p') {d : Dial} (told : Event.dialed d ∈ es) :
    d.began = now := by
  cases work with
  | aside other => cases other.quiet _ told
  | dials _ =>
    rw [Event.dialed.inj (List.mem_singleton.1 told)]
  | redials _ _ _ _ =>
    rw [Event.dialed.inj (List.mem_singleton.1 told)]
  | starts isOpen free =>
    rw [recover_of_free isOpen free] at told
    cases List.mem_singleton.1 told
  | fills _ _ _ _ =>
    rcases List.mem_cons.1 told with same | later
    · cases same
    · cases begins?_endReconnector later
  | givesUp _ _ =>
    rcases List.mem_cons.1 told with same | later
    · cases same
    · cases begins?_endReconnector later
  | stops _ _ _ => cases begins?_endReconnector told
  | ends _ _ => cases List.mem_singleton.1 told
  | joins => cases List.mem_singleton.1 told
  | fails _ _ _ => cases List.mem_singleton.1 told

/-- A dial begins at the instant at which that is told. -/
theorem began_of_step (ledger : Ledger past p) (seated : Seated p)
    (taken : p.step now a = some (p', es)) : ∀ d, Event.dialed d ∈ es → d.began = now := by
  refine carry_of_step (P := fun es _ => ∀ d, Event.dialed d ∈ es → d.began = now) ledger seated ?_ ?_ taken
  · intro es q sheds d told
    cases sheds.quiet _ told
  · intro told q es q' _ so_far work d member
    rcases List.mem_append.1 member with early | late
    · exact so_far d early
    · exact work.instant_of_dialed late

/-- A reconnector that the pool starts has the schedule of the options. -/
theorem schedule_of_step (ledger : Ledger past p) (seated : Seated p)
    (taken : p.step now a = some (p', es)) :
    ∀ r, Event.recovering r ∈ es → r.owned = true → r.schedule = p'.options.backoff := by
  refine carry_of_step (P := fun es q => ∀ r, Event.recovering r ∈ es → r.owned = true →
    r.schedule = q.options.backoff) ledger seated ?_ ?_ taken
  · intro es q sheds r told
    cases sheds.quiet _ told
  · intro told q es q' accounts so_far work r member owned
    rcases List.mem_append.1 member with early | late
    · rw [work.options]
      exact so_far r early owned
    · obtain ⟨_, _, _, _, reconnectors, _⟩ := work.started late
      refine ((accounts.of_work work).owned r ?_ owned).2
      rw [reconnectors]
      exact List.mem_append_right _ (List.mem_singleton_self r)

/-- A failure is listed with the instant at which it is told. -/
theorem mem_failuresAt {told : List (Nat × Event)} {instant : Nat} {d : Dial} :
    (instant, d) ∈ failuresAt t told → d.isOf t = true ∧
      ∃ error, (instant, Event.dialEnded d (.error error)) ∈ told := by
  intro member
  obtain ⟨⟨i, e⟩, there, same⟩ := List.mem_filterMap.1 member
  obtain ⟨x, failed, same⟩ := Option.map_eq_some_iff.1 same
  obtain ⟨rfl, rfl⟩ := Prod.mk.inj same
  have failed : e.failureOf? t = some x := failed
  unfold Event.failureOf? at failed
  split at failed
  · split at failed
    · rename_i mine
      obtain rfl := Option.some.inj failed
      exact ⟨mine, _, there⟩
    · cases failed
  · cases failed

/-- A reconnector that was started at an instant dials its slot, one dial at a time and no oftener than its
schedule has attempts. Its first dial begins the first delay after the start, and each further dial begins
the next delay after the failure of the dial before. -/
structure OnSchedule (r : Reconnector) (options : Options) (started : Nat) (moments : List Moment)
    (p : Pool) : Prop where
  schedule : r.owned = true → r.schedule = options.backoff
  slot : ∀ d ∈ dialsBy r.ticket (eventsOf moments), d.slot = r.slot
  single : (p.dials.filter (Dial.isOf r.ticket)).length ≤ 1
  /-- The instant of a dial is the one at which it begins. -/
  began : ∀ m ∈ moments, ∀ d, Event.dialed d ∈ m.events → d.began = m.instant
  first : ∀ d, (dialsBy r.ticket (eventsOf moments))[0]? = some d →
    d.began = started + (r.schedule.delay 0).nanos
  next : ∀ k d d', (dialsBy r.ticket (eventsOf moments))[k]? = some d →
    (dialsBy r.ticket (eventsOf moments))[k + 1]? = some d' →
      ∃ m ∈ moments, ∃ error, Event.dialEnded d (.error error) ∈ m.events ∧
        d'.began = m.instant + (r.schedule.delay (k + 1)).nanos
  budget : (dialsBy r.ticket (eventsOf moments)).length ≤ r.schedule.attempts

/-- What a reconnector has dialed one by one has failed, but for the last of it. -/
theorem Timetable.failed {told : List (Nat × Event)} {started : Nat} (h : Timetable r started now told p)
    {k base : Nat} {d : Dial} (counted : (bases started r.ticket told)[k + 1]? = some base)
    (dialed : (dialsBy r.ticket (told.map Prod.snd))[k]? = some d) :
    ∃ error, (base, Event.dialEnded d (.error error)) ∈ told := by
  have counted : ((failuresAt r.ticket told).map Prod.fst)[k]? = some base := counted
  rw [List.getElem?_map] at counted
  obtain ⟨⟨_, x⟩, there, rfl⟩ := Option.map_eq_some_iff.1 counted
  have failed : (failuresOf r.ticket (told.map Prod.snd))[k]? = some x := by
    rw [← map_snd_failuresAt, List.getElem?_map, there]
    rfl
  obtain ⟨later, grown⟩ := h.aligned
  have same : (dialsBy r.ticket (told.map Prod.snd))[k]? = some x := by
    rw [← grown]
    exact getElem?_append_of_some failed later
  obtain rfl := Option.some.inj (dialed.symm.trans same)
  exact (mem_failuresAt (List.mem_of_getElem? there)).2

/-- The timetable of a reconnector that was started in a moment of a prompt run. -/
theorem Timetable.of_run (made : Pool.new options = .ok start) (run : PromptRun unfit? start began moments now p)
    (member : since ∈ moments) (told : Event.recovering r ∈ since.events) :
    Timetable r since.instant now (stamped moments) p :=
  (Scheduled.of_run made run).timetable _ r (mem_stamped.2 ⟨since, member, rfl, told⟩)

/-- In a prompt run every reconnector is on schedule. -/
theorem OnSchedule.of_run (made : Pool.new options = .ok start)
    (run : PromptRun unfit? start began moments now p) (member : since ∈ moments)
    (told : Event.recovering r ∈ since.events) : OnSchedule r options since.instant moments p := by
  have free : Run start began moments now p := run.loosen fun _ _ _ _ => trivial
  have timetable := Timetable.of_run made run member told
  have ledger := Ledger.of_run made free
  have dialed := timetable.dialed
  rw [map_snd_stamped] at dialed
  refine ⟨?_, ?_, ?_, ?_, ?_, ?_, ?_⟩
  · intro owned
    obtain ⟨front, back, rfl⟩ := List.append_of_mem member
    obtain ⟨past, taken, _, upto, _⟩ := free.at_moment
    rw [schedule_of_step (.of_run made past) (.of_run made past) taken r told owned, options_of_run made upto]
  · intro d member
    obtain ⟨k, there⟩ := List.mem_iff_getElem?.1 member
    exact (dialed k d there).1
  · cases there : p.dials.filter (Dial.isOf r.ticket) with
    | nil => exact Nat.zero_le 1
    | cons d rest =>
      have mine : d ∈ p.dials.filter (Dial.isOf r.ticket) := by
        rw [there]
        exact List.mem_cons_self
      obtain ⟨d_member, owner⟩ := List.mem_filter.1 mine
      obtain ⟨x, x_member, same⟩ := ledger.owner d d_member _ (of_decide_eq_true owner)
      rw [← same] at there owner
      rw [(ledger.dial_of_member d_member x_member (of_decide_eq_true owner)).2] at there
      rw [← there]
      exact Nat.le_refl 1
  · intro m member d told
    obtain ⟨front, back, rfl⟩ := List.append_of_mem member
    obtain ⟨past, taken, _⟩ := free.at_moment
    exact began_of_step (.of_run made past) (.of_run made past) taken d told
  · intro d there
    obtain ⟨_, _, base, counted, began⟩ := dialed 0 d there
    obtain rfl := Option.some.inj counted
    exact began
  · intro k d d' there behind
    obtain ⟨_, _, base, counted, began⟩ := dialed (k + 1) d' behind
    rw [← map_snd_stamped] at there
    obtain ⟨error, failed⟩ := timetable.failed counted there
    obtain ⟨m, member, rfl, seen⟩ := mem_stamped.1 failed
    exact ⟨m, member, error, seen, began⟩
  · by_contra more
    have there := List.getElem?_eq_getElem (Nat.lt_of_not_le more)
    exact Nat.lt_irrefl _ (dialed _ _ there).2.1

/-- A dial that is listed is told to have begun. -/
theorem dialed_of_mem_dialsBy {d : Dial} (member : d ∈ dialsBy t es) : Event.dialed d ∈ es := by
  obtain ⟨e, there, same⟩ := List.mem_filterMap.1 member
  unfold Event.dialBy? at same
  split at same
  · split at same
    · obtain rfl := Option.some.inj same
      exact there
    · cases same
  · cases same

/-- A reconnector of the pool has waited when it dials. -/
theorem OnSchedule.waited {started : Nat} (h : OnSchedule r options started moments p)
    (valid : options.validate = .ok ()) (run : Run start began moments now p) (owned : r.owned = true)
    (dialed : dialsBy r.ticket (eventsOf moments) ≠ []) : started < now := by
  obtain ⟨d, rest, dials⟩ := List.exists_cons_of_ne_nil dialed
  have first := h.first d (by rw [dials]; rfl)
  have listed : d ∈ dialsBy r.ticket (eventsOf moments) := by
    rw [dials]
    exact List.mem_cons_self
  have told : Event.dialed d ∈ eventsOf moments := dialed_of_mem_dialsBy listed
  obtain ⟨m, member, seen⟩ := mem_eventsOf.1 told
  have instant := h.began m member d seen
  have reached := (run.instant_mem_range.2 m member).2
  have positive := Options.durations_pos valid
  have base : 0 < r.schedule.base.nanos := by
    rw [h.schedule owned]
    exact positive ("reconnect_base_delay", options.reconnectBaseDelay) (by simp [Options.durations])
  have max : 0 < r.schedule.max.nanos := by
    rw [h.schedule owned]
    exact positive ("reconnect_max_delay", options.reconnectMaxDelay) (by simp [Options.durations])
  have delay := Backoff.delay_pos base max 0
  omega

/-! ## What ends it -/

/-- A dial succeeds only if it opens a connection that is not lost on the way, in an open pool that has
the slot. -/
theorem Ending.arrived {d : Dial} {q : Pool} {front : List Event} (ending : Ending p d a q front (.ok ())) :
    a = .dialSucceeds d.ticket false ∧ p.closed = false ∧ d.slot < p.slots.length := by
  cases ending with
  | lands landing =>
    cases landing.arrival with
    | placed sound isOpen inside _ _ _ _ _ _ => exact ⟨by rw [sound], isOpen, inside⟩
    | spare sound isOpen occupied _ _ _ _ _ =>
      obtain ⟨g, _, held, _⟩ := isLive_iff.1 occupied
      exact ⟨by rw [sound], isOpen, (List.getElem?_eq_some_iff.1 held).1⟩

/-- Where a dial ends none begins for a reconnector. -/
theorem dialsBy_eq_nil_of_ended {d : Dial} {result : Except Error Unit} (seated : Seated p)
    (taken : p.step now a = some (p', es)) (told : Event.dialEnded d result ∈ es) : dialsBy t es = [] := by
  obtain ⟨_, q, front, ending, rfl, rfl⟩ := Ending.of_told seated taken told
  rw [dialsBy_append, dialsBy_of_aside ending.aside, List.nil_append]
  unfold dialsBy
  rw [List.filterMap_eq_nil_iff]
  intro e member
  cases e with
  | dialed x =>
    obtain ⟨_, _, _, same, _⟩ := begins_of_conclude member (s := x.slot) rfl
    cases same
  | _ => rfl

/-- A slot that is live is one of an open pool. -/
theorem open_of_isLive (made : Pool.new options = .ok start) (run : Run start began moments now p)
    (live : p.isLive s = true) : p.closed = false := by
  rw [Bool.eq_false_iff]
  intro closed
  obtain ⟨g, _, held, _⟩ := isLive_iff.1 live
  cases (Cleared.of_run made run closed).slots _ (List.mem_of_getElem? held)

/-- No dial begins for a reconnector of a closed pool. -/
theorem dialsBy_eq_nil_of_closed (closed : p.closed = true) (taken : p.step now a = some (p', es)) :
    dialsBy t es = [] := by
  unfold dialsBy
  rw [List.filterMap_eq_nil_iff]
  intro e member
  cases e with
  | dialed d =>
    obtain ⟨slot, token, same⟩ := (Barred.of_step closed taken).undialed d member
    have same : a = .fill slot token := same
    subst same
    obtain ⟨rfl, rfl⟩ := eq_of_taken taken
    rw [Event.dialed.inj (List.mem_singleton.1 member)]
    rfl
  | _ => rfl

/-- The end of a dial of a reconnector is that of a dial for its slot. -/
theorem ending_of_run (made : Pool.new options = .ok start) (run : PromptRun unfit? start began moments now p)
    (member : since ∈ moments) (told : Event.recovering r ∈ since.events) (m_member : m ∈ moments) {d : Dial}
    {result : Except Error Unit} (seen : Event.dialEnded d result ∈ m.events)
    (mine : d.isOf r.ticket = true) : d ∈ m.before.dials ∧ d.slot = r.slot ∧ ∃ q front,
      Ending m.before d m.action q front result ∧ m.after = (q.conclude m.instant d result).1 ∧
        m.events = front ++ (q.conclude m.instant d result).2 := by
  have slots := (OnSchedule.of_run made run member told).slot
  have free : Run start began moments now p := run.loosen fun _ _ _ _ => trivial
  obtain ⟨front, back, rfl⟩ := List.append_of_mem m_member
  obtain ⟨past, taken, _⟩ := free.at_moment
  have ledger := Ledger.of_run made past
  obtain ⟨d_member, ended⟩ := Ending.of_told (.of_run made past) taken seen
  refine ⟨d_member, slots d ?_, ended⟩
  obtain ⟨x, x_member, same⟩ := ledger.owner d d_member _ (of_decide_eq_true mine)
  have owner : d.owner = .reconnector x.ticket := by
    rw [same]
    exact of_decide_eq_true mine
  have begun := (ledger.tally x x_member).begun
  rw [(ledger.dial_of_member d_member x_member owner).2, same] at begun
  rw [eventsOf_append, dialsBy_append, begun]
  simp

/-- A reconnector dials no more from the moment on in which a dial of it succeeds. -/
theorem dialsBy_eq_nil_of_filled {front back : List Moment} (made : Pool.new options = .ok start)
    (run : Run start began (front ++ m :: back) now p) {d : Dial}
    (seen : Event.dialEnded d (.ok ()) ∈ m.events) (mine : d.isOf t = true) :
    dialsBy t (eventsOf (m :: back)) = [] := by
  obtain ⟨past, taken, middle, upto, behind⟩ := run.at_moment
  have filled : Filled t (eventsOf (front ++ [m])) := by
    refine ⟨d, mine, ?_⟩
    rw [eventsOf_append, eventsOf_cons]
    exact List.mem_append_right _ (List.mem_append_left _ seen)
  have reports := Reports.of_run made upto
  obtain ⟨q, rfl, reported⟩ := reports.told _ filled
  have departed := reports.gone q true reported
  rw [eventsOf_cons, dialsBy_append, dialsBy_eq_nil_of_ended (.of_run made past) taken seen, List.nil_append]
  exact dialsBy_eq_nil_of_quiet (departed.of_run made upto behind).2

/-- A reconnector ends with a dial that succeeds, which it reports, and with its pool. -/
structure Stops (r : Reconnector) (options : Options) (moments : List Moment) : Prop where
  /-- A dial succeeds exactly if it opens a connection that is not lost on the way, while the pool is open. -/
  succeeds : ∀ m ∈ moments, ∀ d result, Event.dialEnded d result ∈ m.events → d.isOf r.ticket = true →
    (result.isOk = true ↔ m.action = .dialSucceeds d.ticket false ∧ m.before.closed = false ∧
      r.slot < options.poolSize)
  /-- Then the connection is in the slot, or was closed because the slot was live already. -/
  provides : ∀ m ∈ moments, ∀ d result, Event.dialEnded d result ∈ m.events → d.isOf r.ticket = true →
    (result.isOk = true ↔ m.action = .dialSucceeds d.ticket false ∧
      Provides m.before m.events m.after r.slot)
  last : ∀ front m back d, moments = front ++ m :: back → Event.dialEnded d (.ok ()) ∈ m.events →
    d.isOf r.ticket = true → dialsBy r.ticket (eventsOf (m :: back)) = []
  reports : (∃ q, q.ticket = r.ticket ∧ Event.recovered q true ∈ eventsOf moments) ↔
    Filled r.ticket (eventsOf moments)
  fails : ∀ q, Event.recovered q false ∈ eventsOf moments → q.ticket = r.ticket →
    ¬ Filled r.ticket (eventsOf moments)
  closed : ∀ m ∈ moments, m.before.closed = true → dialsBy r.ticket m.events = []

/-- In every prompt run a reconnector that is started stops as it should. -/
theorem Stops.of_run (made : Pool.new options = .ok start) (run : PromptRun unfit? start began moments now p)
    (member : since ∈ moments) (told : Event.recovering r ∈ since.events) : Stops r options moments := by
  have free : Run start began moments now p := run.loosen fun _ _ _ _ => trivial
  have reports := Reports.of_run made free
  have succeeds : ∀ m ∈ moments, ∀ d result, Event.dialEnded d result ∈ m.events →
      d.isOf r.ticket = true → (result.isOk = true ↔ m.action = .dialSucceeds d.ticket false ∧
        m.before.closed = false ∧ r.slot < options.poolSize) := by
    intro m m_member d result seen mine
    obtain ⟨_, slot, q, quiet, ending, _⟩ := ending_of_run made run member told m_member seen mine
    obtain ⟨front, back, rfl⟩ := List.append_of_mem m_member
    obtain ⟨past, _⟩ := free.at_moment
    rw [← slot, ← slots_length_of_run made past]
    refine ⟨fun success => ?_, fun ⟨opens, isOpen, inside⟩ => (ending.isOk_iff isOpen inside).2 opens⟩
    cases result with
    | error _ => cases success
    | ok _ => exact ending.arrived
  refine ⟨succeeds, ?_, ?_, ?_, ?_, ?_⟩
  · intro m m_member d result seen mine
    rw [succeeds m m_member d result seen mine]
    refine and_congr_right fun opens => ⟨fun ⟨isOpen, inside⟩ => ?_, fun provides => ?_⟩
    · have success := (succeeds m m_member d result seen mine).2 ⟨opens, isOpen, inside⟩
      obtain ⟨d_member, slot, q, front, ending, after, events⟩ :=
        ending_of_run made run member told m_member seen mine
      cases result with
      | error _ => cases success
      | ok _ =>
        rw [after, events, ← slot]
        exact .of_ending d_member ending
    · have live : m.after.isLive r.slot = true := by
        cases provides with
        | installed _ _ _ live => exact live
        | closed _ _ _ _ live => exact live
      obtain ⟨front, back, rfl⟩ := List.append_of_mem m_member
      obtain ⟨_, _, _, upto, _⟩ := free.at_moment
      obtain ⟨_, _, held, _⟩ := isLive_iff.1 live
      have inside := (List.getElem?_eq_some_iff.1 held).1
      rw [slots_length_of_run made upto] at inside
      have listed : m ∈ front ++ [m] := List.mem_append_right _ (List.mem_singleton_self m)
      exact ⟨(open_of_run made upto (open_of_isLive made upto live) listed).1, inside⟩
  · rintro front m back d rfl seen mine
    exact dialsBy_eq_nil_of_filled made free seen mine
  · constructor
    · rintro ⟨q, same, reported⟩
      rw [← same]
      exact (reports.honest q true reported).1 rfl
    · exact reports.told r.ticket
  · intro q reported same filled
    rw [← same] at filled
    cases (reports.honest q false reported).2 filled
  · intro m m_member closed
    obtain ⟨front, back, rfl⟩ := List.append_of_mem m_member
    obtain ⟨_, taken, _⟩ := free.at_moment
    exact dialsBy_eq_nil_of_closed closed taken

/-! ## How long it goes on -/

/-- A reconnector goes on while its pool is there and open and its caller is. Whatever the point of the run,
it has filled its slot or given up, or it dials, for no longer than a dial may take, or it sleeps, until
it is due. It gives up when its attempts have failed, and it has ended when all its delays and dials are
over. -/
structure Persists (r : Reconnector) (options : Options) (started : Nat) (moments : List Moment)
    (now : Nat) (p : Pool) : Prop where
  spends : ∀ q, Event.gaveUp q ∈ eventsOf moments → q.ticket = r.ticket →
    (dialsBy r.ticket (eventsOf moments)).length = r.schedule.attempts ∧
      dialsBy r.ticket (eventsOf moments) = failuresOf r.ticket (eventsOf moments)
  goesOn : r.orphaned = false → p.closed = false → (∀ m ∈ moments, m.action ≠ .cancel r.ticket) →
    Filled r.ticket (eventsOf moments) ∨
    (∃ q, q.ticket = r.ticket ∧ Event.gaveUp q ∈ eventsOf moments) ∨
    (∃ d, p.dials.filter (Dial.isOf r.ticket) = [d] ∧ now ≤ d.began + options.connectTimeout.nanos) ∨
    ∃ base, (bases started r.ticket (stamped moments))[(dialsBy r.ticket (eventsOf moments)).length]? =
        some base ∧
      now ≤ base + (r.schedule.delay (dialsBy r.ticket (eventsOf moments)).length).nanos
  ends : r.orphaned = false → p.closed = false → (∀ m ∈ moments, m.action ≠ .cancel r.ticket) →
    started + r.schedule.span options.connectTimeout r.schedule.attempts < now →
      Filled r.ticket (eventsOf moments) ∨
        ∃ q, q.ticket = r.ticket ∧ Event.gaveUp q ∈ eventsOf moments

/-- A reconnector that rests has failed as often as it has dialed. -/
theorem Tally.length_dialsBy {q : Reconnector} {dials : List Dial} (tally : Tally past dials q)
    (resting : q.phase ≠ .dialing) : (dialsBy q.ticket past).length = q.attempt := by
  rw [tally.begun, tally.resting resting, List.append_nil, tally.failed]

/-- Only the end of its pool, its close or the end of the caller stops a reconnector before it has ended. -/
theorem working_or_ended_of_run (made : Pool.new options = .ok start) (run : Run start began moments now p)
    (told : Event.recovering r ∈ eventsOf moments) (kept : r.orphaned = false) (isOpen : p.closed = false)
    (undropped : ∀ m ∈ moments, m.action ≠ .cancel r.ticket) :
    (∃ q ∈ p.reconnectors, q.ticket = r.ticket) ∨ Filled r.ticket (eventsOf moments) ∨
      ∃ q, q.ticket = r.ticket ∧ Event.gaveUp q ∈ eventsOf moments := by
  rcases working_of_run made run r told with ⟨q, member, mine, _⟩ | concluded | ⟨m, member, dropped⟩
  · exact .inl ⟨q, member, mine⟩
  · cases concluded with
    | filled filled => exact .inr (.inl filled)
    | gaveUp mine told => exact .inr (.inr ⟨_, mine, told⟩)
    | orphaned gone => cases kept.symm.trans gone
    | closed closed => cases isOpen.symm.trans closed
  · exact absurd dropped (undropped m member)

/-- In every prompt run a reconnector that is started goes on as it should. -/
theorem Persists.of_run (made : Pool.new options = .ok start)
    (run : PromptRun unfit? start began moments now p) (member : since ∈ moments)
    (told : Event.recovering r ∈ since.events) : Persists r options since.instant moments now p := by
  have free : Run start began moments now p := run.loosen fun _ _ _ _ => trivial
  have ledger := Ledger.of_run made free
  have scheduled := Scheduled.of_run made run
  have timetable := Timetable.of_run made run member told
  have same_options := options_of_run made free
  have told := mem_eventsOf.2 ⟨since, member, told⟩
  refine ⟨?_, ?_, ?_⟩
  · intro q gaveUp mine
    obtain ⟨_, _, all_failed, spent, _⟩ := ledger.gaveUp q gaveUp
    have schedule : q.schedule = r.schedule := by
      refine timetable.quits q ?_ mine
      rw [map_snd_stamped]
      exact gaveUp
    rw [mine] at all_failed spent
    rw [all_failed, spent, schedule]
    exact ⟨rfl, rfl⟩
  · intro kept isOpen undropped
    rcases working_or_ended_of_run made free told kept isOpen undropped with
      ⟨q, q_member, mine⟩ | filled | gaveUp
    · have tally := ledger.tally q q_member
      right
      right
      cases phase : q.phase with
      | dialing =>
        obtain ⟨d, only⟩ := tally.dialing phase
        have there : d ∈ p.dials.filter (Dial.isOf q.ticket) := by
          rw [only]
          exact List.mem_singleton_self d
        have inTime := scheduled.onTime.dials d (List.mem_of_mem_filter there)
        rw [mine] at only
        rw [same_options] at inTime
        exact .inl ⟨d, only, inTime⟩
      | sleeping due =>
        have dialed := tally.length_dialsBy (by simp [phase])
        rw [mine] at dialed
        obtain ⟨base, counted, rfl⟩ := timetable.sleeping q q_member mine due phase
        rw [dialed]
        exact .inr ⟨base, counted, scheduled.onTime.sleeping q q_member _ phase⟩
      | spent =>
        have dialed := tally.length_dialsBy (by simp [phase])
        rw [mine] at dialed
        rw [dialed]
        exact .inr ⟨now, timetable.spent q q_member mine phase, Nat.le_add_right _ _⟩
    · exact .inl filled
    · exact .inr (.inl gaveUp)
  · intro kept isOpen undropped late
    rcases working_or_ended_of_run made free told kept isOpen undropped with ⟨q, q_member, mine⟩ | ended
    · have accounts : Ledger ((stamped moments).map Prod.snd) p := by
        rw [map_snd_stamped]
        exact ledger
      have soon := timetable.now_le accounts scheduled.onTime q_member mine
      rw [same_options] at soon
      exact absurd late (Nat.not_lt_of_le soon)
    · exact ended

/-! ## What it leaves behind -/

/-- Somebody who has been asked for a slot may still dial it, or have it dialed: a connection round that
has dialed it, or a reconnector that a caller runs. -/
def Asked (p : Pool) (s : Nat) : Prop :=
  (∃ R ∈ p.rounds, s ∈ R.results.map Prod.fst) ∨ ∃ q ∈ p.reconnectors, q.owned = false ∧ q.slot = s

/-- A reconnector that has given up was there before. -/
theorem exists_of_gaveUp (ledger : Ledger past p) (seated : Seated p)
    (taken : p.step now a = some (p', es)) {q : Reconnector} (gaveUp : Event.gaveUp q ∈ es)
    (given : q.ticket < p.nextTicket) : ∃ x ∈ p.reconnectors, x.ticket = q.ticket := by
  by_contra none_left
  have departed : Departed q.ticket p :=
    ⟨fun x member same => none_left ⟨x, member, same⟩, given⟩
  have unconcerned : (Event.gaveUp q).isBy q.ticket = false :=
    (departed.of_step ledger seated taken).2 _ gaveUp
  simp [Event.isBy] at unconcerned

/-- A reconnector of the pool that gives up leaves no other one of the pool for its slot. -/
theorem not_owned_of_gaveUp (ledger : Ledger past p) (seated : Seated p) (owns : Ownership past p)
    (ledger' : Ledger (past ++ es) p') (taken : p.step now a = some (p', es)) {q : Reconnector}
    (gaveUp : Event.gaveUp q ∈ es)
    {z : Reconnector} (z_member : z ∈ p.team) (mine : z.ticket = q.ticket) :
    ∀ x ∈ p'.reconnectors, x.slot = z.slot → x.owned = false := by
  intro x member slot
  rw [Bool.eq_false_iff]
  intro owned
  rcases stems_of_step ledger seated taken x member with ⟨y, y_member, kin, _⟩ | ⟨y, started, _⟩
  · have y_owned : y.owned = true := by
      rw [kin] at owned
      exact owned
    have y_slot : y.slot = z.slot := by
      rw [kin] at slot
      exact slot
    have same := owns.eq_of_entry (List.mem_filter.2 ⟨y_member, y_owned⟩) z_member y_slot
    have gone := (ledger'.gaveUp q (List.mem_append_right _ gaveUp)).2.1 x member
    rw [kin] at gone
    exact gone (same ▸ mine)
  · exact absurd started (not_recovering_of_gaveUp seated taken gaveUp)

/-- A closed pool has stopped the reconnectors that it has started. -/
theorem Ownership.open_of_team (owns : Ownership past p) (cleared : p.closed = true → Cleared p)
    (member : r ∈ p.team) : p.closed = false := by
  rw [Bool.eq_false_iff]
  intro closed
  have entries := owns.entries
  rw [(cleared closed).reconnecting] at entries
  rw [List.map_eq_nil_iff.1 entries.symm] at member
  cases member

/-- An action in which a reconnector gives up does not close the pool. -/
theorem open_of_gaveUp (isOpen : p.closed = false) (taken : p.step now a = some (p', es))
    (gaveUp : Event.gaveUp r ∈ es) : p'.closed = false := by
  have other : a ≠ .close := by
    rintro rfl
    obtain ⟨rfl, rfl⟩ := eq_of_taken taken
    cases (Sheds.close p now).quiet _ gaveUp
  rw [Cleared.closed_of_step other taken]
  exact isOpen

/-- In a prompt run, the slot of a reconnector of the pool that gives up is abandoned, if it was not live
when the reconnector started, has got no connection since, and nobody else has been asked for it. -/
theorem Abandoned.of_gaveUp (made : Pool.new options = .ok start)
    (past : PromptRun unfit? start began (older ++ since :: newer) now p)
    (taken : p.step now a = some (p', es)) (told : Event.recovering r ∈ since.events)
    (owned : r.owned = true)
    (honest : ∀ m ∈ older ++ since :: newer, ∀ t, m.action.presented? = some t → t = 0)
    (vacant : since.after.isLive r.slot = false)
    (unfilled : ∀ g, Event.installed r.slot g ∉ eventsOf newer ++ es) {q : Reconnector}
    (gaveUp : Event.gaveUp q ∈ es) (mine : q.ticket = r.ticket) (unasked : ¬ p'.Asked r.slot) :
    Abandoned r.slot p' := by
  have run : PromptRun unfit? start began (older ++ since :: (newer ++ [⟨now, a, es, p, p'⟩])) now p' := by
    have longer := past.act taken
    rwa [List.append_assoc] at longer
  have member : since ∈ older ++ since :: newer := by simp
  have member' : since ∈ older ++ since :: (newer ++ [⟨now, a, es, p, p'⟩]) := by simp
  have events : eventsOf (older ++ since :: (newer ++ [⟨now, a, es, p, p'⟩])) =
      eventsOf (older ++ since :: newer) ++ es := by simp
  have free : Run start began (older ++ since :: newer) now p := past.loosen fun _ _ _ _ => trivial
  have free' : Run start began _ now p' := run.loosen fun _ _ _ _ => trivial
  have ledger := Ledger.of_run made free
  have seated := Seated.of_run made free
  have accounts := Ledger.of_run made free'
  rw [events] at accounts
  have timetable := Timetable.of_run made past member told
  -- The reconnector held its slot until now.
  obtain ⟨z, z_member, z_mine⟩ := exists_of_gaveUp ledger seated taken gaveUp (mine ▸ timetable.given)
  have kin := timetable.kin z z_member (z_mine.trans mine)
  have z_slot : z.slot = r.slot := by rw [kin]
  have z_owned : z.owned = true := by
    rw [kin]
    exact owned
  have z_team : z ∈ p.team := List.mem_filter.2 ⟨z_member, z_owned⟩
  have owns := Ownership.of_run made free honest
  have others := not_owned_of_gaveUp ledger seated owns accounts taken gaveUp z_team z_mine
  have isOpen := open_of_gaveUp (owns.open_of_team (.of_run made free) z_team) taken gaveUp
  obtain ⟨front, first, _⟩ := free.at_moment
  have unfilled : ∀ g, Event.installed r.slot g ∉ eventsOf (newer ++ [⟨now, a, es, p, p'⟩]) := by
    simpa using unfilled
  obtain ⟨vacant', unheard⟩ := unheard_of_run made (front.act first) run.behind isOpen vacant unfilled
  refine ⟨vacant', ?_, ?_, ?_⟩
  · rw [options_of_run made free']
    refine unheard.imp_left fun same => ?_
    -- Who gives up at once has had no attempt.
    have schedule := OnSchedule.of_run made run member' told
    have seen : Event.gaveUp q ∈ eventsOf (older ++ since :: (newer ++ [⟨now, a, es, p, p'⟩])) := by
      rw [events]
      exact List.mem_append_right _ gaveUp
    have spent := ((Persists.of_run made run member' told).spends q seen mine).1
    rw [schedule.schedule owned] at spent
    by_contra attempts
    refine Nat.ne_of_gt (schedule.waited (Made.of_new made).valid free' owned ?_) same
    refine List.ne_nil_of_length_pos ?_
    rw [spent]
    exact Nat.pos_of_ne_zero attempts
  · rintro t ⟨R, found, covered⟩
    exact unasked (.inl ⟨R, List.mem_of_find?_eq_some found, covered⟩)
  · intro x x_member slot
    exact absurd (.inr ⟨x, x_member, others x x_member (slot.trans z_slot.symm), slot⟩) unasked

/-- A reconnector that is listed as started is told to start, and is the pool's own. -/
theorem started_of_mem (member : r ∈ startedIn es) : Event.recovering r ∈ es ∧ r.owned = true := by
  obtain ⟨e, there, same⟩ := List.mem_filterMap.1 member
  unfold Event.started? at same
  split at same
  · split at same
    · rename_i owned
      obtain rfl := Option.some.inj same
      exact ⟨there, owned⟩
    · cases same
  · cases same

/-- In every prompt run, a reconnector that is started in some moment is on schedule: it dials its slot, one
dial at a time, the first dial its first delay after the start, and each further dial its next delay after
the failure of the dial before. It dials no oftener than its schedule allows, not after a dial that has
succeeded, and not when the pool is closed. A dial succeeds if its connection comes into the slot, or is
closed because the slot is live; the reconnector reports whether one has. As long as the pool is open and
the caller is there, the reconnector goes on until one has, or all attempts have failed. When a reconnector
of the pool has given up, and the slot has not got a connection since its start, then the slot is not
dialed any more until somebody asks for it. -/
theorem reconnectors_keep_their_schedule (made : Pool.new options = .ok start)
    (run : PromptRun unfit? start began (older ++ since :: newer) now p)
    (told : Event.recovering r ∈ since.events) :
    OnSchedule r options since.instant (older ++ since :: newer) p ∧
    Stops r options (older ++ since :: newer) ∧
    Persists r options since.instant (older ++ since :: newer) now p ∧
    (r.owned = true →
      (∀ m ∈ older ++ since :: newer, ∀ t, m.action.presented? = some t → t = 0) →
      since.after.isLive r.slot = false → (∀ g, Event.installed r.slot g ∉ eventsOf newer) →
      ∀ front last back q, newer = front ++ last :: back → Event.gaveUp q ∈ last.events →
        q.ticket = r.ticket → ¬ last.after.Asked r.slot →
          (∀ m ∈ back, m.action.asksFor r.slot = false) →
            (dialsBy r.ticket (eventsOf (older ++ since :: newer))).length = options.maxReconnectAttempts ∧
              dialsTo r.slot (eventsOf back) = []) := by
  have member : since ∈ older ++ since :: newer := by simp
  have onSchedule := OnSchedule.of_run made run member told
  have persists := Persists.of_run made run member told
  refine ⟨onSchedule, .of_run made run member told, persists, ?_⟩
  rintro owned honest vacant unfilled front last back q rfl gaveUp mine unasked unrequested
  have cut : older ++ since :: (front ++ last :: back) = (older ++ since :: front) ++ last :: back := by simp
  have seen : Event.gaveUp q ∈ eventsOf (older ++ since :: (front ++ last :: back)) :=
    mem_eventsOf.2 ⟨last, by simp, gaveUp⟩
  have spent := (persists.spends q seen mine).1
  rw [onSchedule.schedule owned] at spent
  refine ⟨spent, ?_⟩
  rw [cut] at run honest
  obtain ⟨past, taken, _⟩ := run.at_moment
  have free : Run start began ((older ++ since :: front) ++ last :: back) now p :=
    run.loosen fun _ _ _ _ => trivial
  obtain ⟨_, _, middle, upto, behind⟩ := free.at_moment
  have abandoned := Abandoned.of_gaveUp made past taken told owned
    (fun m member => honest m (List.mem_append_left _ member)) vacant
    (fun g installed => unfilled g (by
      rw [eventsOf_append, eventsOf_cons, ← List.append_assoc]
      exact List.mem_append_left _ installed)) gaveUp mine unasked
  obtain ⟨_, undialed⟩ := abandoned.of_run made upto behind unrequested fun g installed => unfilled g (by
    rw [eventsOf_append, eventsOf_cons]
    exact List.mem_append_right _ (List.mem_append_right _ installed))
  unfold dialsTo
  rw [List.filterMap_eq_nil_iff]
  intro e there
  cases e with
  | dialed d => exact if_neg (undialed d there)
  | _ => rfl

/-- A pool of one slot whose reconnectors have two attempts. -/
def twoAttempts : Options :=
  { Options.new "ws://api" "key" with poolSize := 1, maxReconnectAttempts := 2 }

/-- The dial of a round is refused, and so the slot gets a reconnector. Of its two dials the first one is
refused and the second one takes too long. Later a caller chooses a connection. -/
def refusedTwice : List (Nat × Action) := [
  (0, .connect), (1000000000, .dialFails 1 (.described "refused")), (6000000000, .wakeReconnector 2),
  (7000000000, .dialFails 3 (.described "refused")), (17000000000, .wakeReconnector 2),
  (27000000000, .dialExpires 4), (60000000000, .choose)]

/-- The reconnector that an event tells to have given up. -/
def Event.quitter? : Event → Option Reconnector
  | .gaveUp r => some r
  | _ => none

/-- A reconnector that is listed as a quitter is told to have given up. -/
theorem mem_of_quitter? {es : List Event} {q : Reconnector}
    (listed : q ∈ es.filterMap Event.quitter?) : Event.gaveUp q ∈ es := by
  obtain ⟨e, member, same⟩ := List.mem_filterMap.1 listed
  unfold Event.quitter? at same
  split at same
  · rwa [Option.some.inj same] at member
  · cases same

/-- The run of the script, cut where the reconnector is started and where it gives up. No connection is
installed in it, nobody presents a token, and in the end nobody asks for the slot. -/
theorem exists_run_of_refusedTwice : ∃ start older since front last back now p r q,
    Pool.new twoAttempts = .ok start ∧
      PromptRun Options.dialFault? start 0 (older ++ since :: (front ++ last :: back)) now p ∧
      since.instant = 1000000000 ∧ back ≠ [] ∧
      (Event.recovering r ∈ since.events ∧ r.owned = true ∧ r.slot = 0 ∧ since.after.isLive 0 = false) ∧
      (Event.gaveUp q ∈ last.events ∧ q.ticket = r.ticket) ∧
      (∀ m ∈ older ++ since :: (front ++ last :: back), m.action.presented? = none) ∧
      (∀ e ∈ eventsOf (front ++ last :: back), e.isArrival = false) ∧
      (last.after.rounds = [] ∧ last.after.reconnectors = []) ∧
      ∀ m ∈ back, m.action.asksFor 0 = false := by
  have played : (Pool.new twoAttempts).toOption.bind (fun start =>
      (History.play step start refusedTwice).map fun r => decide (
        (r.1[1]?.map fun m => ((startedIn m.events).map fun x => (x.ticket, x.slot), m.after.isLive 0)) =
          some ([(2, 0)], false) ∧
        (r.1[5]?.map fun m => ((m.events.filterMap Event.quitter?).map Reconnector.ticket,
          m.after.rounds.length, m.after.reconnectors.length)) = some ([2], 0, 0) ∧
        (∀ m ∈ r.1, m.action.presented? = none) ∧
        (∀ e ∈ eventsOf (r.1.drop 2), e.isArrival = false) ∧
        (∀ m ∈ r.1.drop 6, m.action.asksFor 0 = false) ∧
        (r.1.drop 6).length = 1)) = some true := by decide +kernel
  have rests : (Pool.new twoAttempts).toOption.any
      (fun start => History.restsBetween step (mayRest Options.dialFault?) start 0 refusedTwice) =
        true := by decide +kernel
  obtain ⟨start, moments, p, made, went, computed⟩ := exists_play_of_script played
  rw [made] at rests
  have run : PromptRun Options.dialFault? start 0 moments (History.lastInstant 0 refusedTwice) p :=
    History.of_play_resting went rests
  obtain ⟨first, fifth, none_presented, none_arrives, none_asks, single⟩ := of_decide_eq_true computed
  obtain ⟨since, there, started⟩ := Option.map_eq_some_iff.1 first
  obtain ⟨last, last_there, ended⟩ := Option.map_eq_some_iff.1 fifth
  obtain ⟨started, vacant⟩ := Prod.mk.inj started
  obtain ⟨ended, counts⟩ := Prod.mk.inj ended
  obtain ⟨no_rounds, no_reconnectors⟩ := Prod.mk.inj counts
  have there : moments[1]? = some since := there
  have last_there : moments[1 + 1 + 3]? = some last := last_there
  have cut := cut_at_both there last_there
  rw [List.drop_drop] at cut
  have behind : moments.drop 2 = (moments.drop 2).take 3 ++ last :: moments.drop 6 := by
    have reached : (moments.drop 2)[3]? = some last := by rwa [List.getElem?_drop]
    have cut := cut_at reached
    rwa [List.drop_drop] at cut
  obtain ⟨r, r_started, known⟩ : ∃ r ∈ startedIn since.events, (r.ticket, r.slot) = (2, 0) := by
    refine List.mem_map.1 ?_
    rw [started]
    exact List.mem_singleton_self _
  obtain ⟨r_ticket, r_slot⟩ := Prod.mk.inj known
  obtain ⟨told, owned⟩ := started_of_mem r_started
  obtain ⟨q, q_ended, q_ticket⟩ : ∃ q ∈ last.events.filterMap Event.quitter?, q.ticket = 2 := by
    refine List.mem_map.1 ?_
    rw [ended]
    exact List.mem_singleton_self _
  refine ⟨start, moments.take 1, since, (moments.drop 2).take 3, last, moments.drop 6, _, p, r, q, made,
    cut ▸ run, (History.moment_of_play went there rfl).1, ?_, ⟨told, owned, r_slot, vacant⟩,
    ⟨mem_of_quitter? q_ended, q_ticket.trans r_ticket.symm⟩, cut ▸ none_presented,
    behind ▸ none_arrives, ⟨List.length_eq_zero_iff.1 no_rounds, List.length_eq_zero_iff.1 no_reconnectors⟩,
    none_asks⟩
  intro none_left
  rw [none_left] at single
  cases single

/-- The reconnector is started at one second, dials first five seconds later, dials twice, and gives up.
The slot is not dialed any more. -/
theorem dials_of_refusedTwice : ∃ start older since newer now p r front last back q,
    Pool.new twoAttempts = .ok start ∧
      PromptRun Options.dialFault? start 0 (older ++ since :: newer) now p ∧
      Event.recovering r ∈ since.events ∧ since.instant = 1000000000 ∧ newer = front ++ last :: back ∧
      Event.gaveUp q ∈ last.events ∧ q.ticket = r.ticket ∧ back ≠ [] ∧
      (∃ d, (dialsBy r.ticket (eventsOf (older ++ since :: newer)))[0]? = some d ∧ d.began = 6000000000) ∧
      (dialsBy r.ticket (eventsOf (older ++ since :: newer))).length = 2 ∧
      dialsTo r.slot (eventsOf back) = [] := by
  obtain ⟨start, older, since, front, last, back, now, p, r, q, made, run, instant, goes_on,
    ⟨told, owned, slot, vacant⟩, ⟨gaveUp, mine⟩, none_presented, none_arrives,
    ⟨no_rounds, no_reconnectors⟩, none_asks⟩ := exists_run_of_refusedTwice
  rw [← slot] at vacant none_asks
  have honest : ∀ m ∈ older ++ since :: (front ++ last :: back),
      ∀ t, m.action.presented? = some t → t = 0 := by
    intro m member t presented
    rw [none_presented m member] at presented
    cases presented
  have unfilled : ∀ g, Event.installed r.slot g ∉ eventsOf (front ++ last :: back) := by
    intro g installed
    cases none_arrives _ installed
  have unasked : ¬ last.after.Asked r.slot := by
    rintro (⟨R, member, _⟩ | ⟨x, member, _⟩)
    · rw [no_rounds] at member
      cases member
    · rw [no_reconnectors] at member
      cases member
  obtain ⟨onSchedule, _, _, silent⟩ := reconnectors_keep_their_schedule made run told
  obtain ⟨twice, undialed⟩ := silent owned honest vacant unfilled front last back q rfl gaveUp mine
    unasked none_asks
  obtain ⟨d, dialed⟩ : ∃ d, (dialsBy r.ticket
      (eventsOf (older ++ since :: (front ++ last :: back))))[0]? = some d :=
    ⟨_, List.getElem?_eq_getElem (by rw [twice]; decide)⟩
  have began := onSchedule.first d dialed
  rw [onSchedule.schedule owned, instant] at began
  refine ⟨start, older, since, _, now, p, r, front, last, back, q, made, run, told, instant, rfl, gaveUp,
    mine, goes_on, ⟨d, dialed, ?_⟩, twice, undialed⟩
  rw [began]
  decide

end Pool

end CallPool
