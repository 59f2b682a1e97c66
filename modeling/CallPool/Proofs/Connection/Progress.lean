import CallPool.Proofs.Connection.Promptness

/-!
# Time can always pass

What a connection does by itself takes work off it (`relieves_of_ready`), so it is done with
everything that is due at an instant after finitely many actions (`exists_idle`). Hence a prompt run
can be carried on to any later instant without anybody else doing something (`carry_on`): promptness
never brings time to a halt. A ping period of zero would.
-/

set_option autoImplicit false

namespace CallPool.Connection

/-- What a reader has still to do by itself: to end. -/
def Reader.workload : Reader → Nat
  | listening _ => 1
  | ended => 0

/-- What a writer has still to do by itself: to finish its write, and to end. -/
def Writer.workload : Writer → Nat
  | ended => 0
  | closing _ => 1
  | unstartable => 1
  | idle => 2
  | data _ _ => 3
  | ping _ => 3

/-- A bound on how much a connection does by itself at an instant. -/
def workload (c : Connection) (now : Nat) : Nat :=
  c.parties.length + c.reader.workload + c.writer.workload + 2 * c.queue.length +
    2 * (now + 1 - c.nextPing)

/-- Whether nothing happens but what a connection does by itself. -/
def ByItself (moments : List Moment) : Prop := ∀ m ∈ moments, m.action ∈ m.before.ready m.instant

variable {c c' : Connection} {began now : Nat} {a : Action} {es : List Event}

/-- A party is found under its ticket. -/
theorem party?_of_mem (h : Coherent c) {p : Party} (member : p ∈ c.parties) :
    c.party? p.ticket = some p := by
  have there : (c.party? p.ticket).isSome = true := by
    unfold party?
    rw [List.find?_isSome]
    exact ⟨p, member, by simp⟩
  obtain ⟨q, found⟩ := Option.isSome_iff_exists.1 there
  rw [found, h.party_unique (List.mem_of_find?_eq_some found) member (ticket_of_party? found)]

/-- Verdicts change the parties and nothing else. -/
theorem judgeAll_eq (c : Connection) (items : List Outgoing) (v : Verdict) :
    ∃ f : Party → Party, c.judgeAll items v = { c with parties := c.parties.map f } := by
  induction items generalizing c with
  | nil => exact ⟨fun p => p, by simp [judgeAll]⟩
  | cons item rest ih =>
    obtain ⟨f, same⟩ := ih (c.judge item.ticket v)
    have first : c.judgeAll (item :: rest) v = (c.judge item.ticket v).judgeAll rest v := rfl
    refine ⟨f ∘ fun p => if p.ticket = item.ticket then { p with verdict := v } else p, ?_⟩
    rw [first, same]
    simp [judge, update]

/-- The loss of a connection leaves its options, and the work that it still has, as they are. -/
theorem lose_eq (c : Connection) : c.lose.1.options = c.options ∧
    ∀ now, c.lose.1.workload now = c.workload now := by
  unfold lose
  split
  · exact ⟨rfl, by simp [workload, sever, abandon]⟩
  · exact ⟨rfl, fun _ => rfl⟩

/-- The end of the writer leaves the options, and takes the work of the writer away. -/
theorem endWriter_eq (c : Connection) (fault : WriteFault) :
    (c.endWriter fault).1.options = c.options ∧ ∀ now,
      (c.endWriter fault).1.workload now + c.writer.workload ≤ c.workload now := by
  obtain ⟨f, judged⟩ := judgeAll_eq c c.queue (.failed fault)
  unfold endWriter
  rw [(lose_eq _).1]
  refine ⟨by rw [judged], fun now => ?_⟩
  rw [(lose_eq _).2, judged]
  simp only [workload, Writer.workload, List.length_map, List.length_nil]
  omega

/-- A party that leaves leaves reader, writer, queue and clock as they are. -/
theorem leave_eq (c : Connection) (p : Party) : (c.leave p).options = c.options ∧
    (c.leave p).parties.length = (c.parties.filter fun q => q.ticket ≠ p.ticket).length ∧
      (c.leave p).reader = c.reader ∧ (c.leave p).writer = c.writer ∧
        (c.leave p).queue = c.queue ∧ (c.leave p).nextPing = c.nextPing := by
  unfold leave
  cases p.purpose.id? with
  | none => exact ⟨rfl, rfl, rfl, rfl, rfl, rfl⟩
  | some id => exact ⟨rfl, by simp [unregister, abandon], rfl, rfl, rfl, rfl⟩

/-- A party that leaves lessens the work. -/
theorem workload_leave {p : Party} (member : p ∈ c.parties) :
    (c.leave p).workload now < c.workload now := by
  obtain ⟨-, parties, reader, writer, queue, nextPing⟩ := leave_eq c p
  have fewer : (c.parties.filter fun q => q.ticket ≠ p.ticket).length < c.parties.length :=
    List.length_filter_lt_length_iff_exists.2 ⟨p, member, by simp⟩
  unfold workload
  rw [parties, reader, writer, queue, nextPing]
  omega

/-! ## The options stay -/

/-- Queuing a frame does not change the options. -/
theorem options_enqueue (c : Connection) (item : Outgoing) :
    (c.enqueue item).1.options = c.options := by
  unfold enqueue
  split <;> rfl

/-- Registering a party does not change the options. -/
theorem options_of_register? {purpose : Purpose} {verdict : Verdict} {id : CorrelationId} {t : Ticket}
    {r : Connection} (entered : (c.join purpose verdict).register? id t = some r) :
    r.options = c.options := by
  unfold register? at entered
  split at entered
  · rw [← Option.some.inj entered]
    rfl
  · cases entered

/-- No action changes the options. -/
theorem options_of_step (taken : c.step now a = some (c', es)) : c'.options = c.options := by
  cases Takes.of_step taken with
  | calls entered => rw [options_enqueue, options_of_register? entered]
  | sends _ => exact options_enqueue (c.join .send .awaited) _
  | waits entered => exact options_of_register? entered
  | drops _ => exact (leave_eq c _).1
  | wakes _ _ => exact (leave_eq c _).1
  | endsReader _ => exact (lose_eq { c with reader := .ended }).1
  | endsWriter _ => exact (endWriter_eq c _).1
  | cutsOff _ => exact (endWriter_eq (c.judge _ _) _).1
  | _ => rfl

/-- No run changes the options. -/
theorem options_of_run {moments : List Moment} (run : Run c began moments now c') :
    c'.options = c.options := by
  induction run with
  | start => rfl
  | act _ taken ih => exact (options_of_step taken).trans ih
  | rest _ _ _ ih => exact ih

/-! ## What is ready can be done -/

/-- An action can be taken, and takes work off the connection. -/
def Relieves (c : Connection) (now : Nat) (a : Action) : Prop :=
  ∃ c' es, c.step now a = some (c', es) ∧ c'.workload now < c.workload now

/-- The end of a writer that has work takes all of it off. -/
theorem workload_endWriter (busy : 0 < c.writer.workload) (fault : WriteFault) :
    (c.endWriter fault).1.workload now < c.workload now := by
  have bound := (endWriter_eq c fault).2 now
  omega

/-- The end of a reader that listens takes its work off. -/
theorem workload_endReader (now : Nat) {since : Nat} (listening : c.reader = .listening since) :
    c.endReader.1.workload now < c.workload now := by
  unfold endReader
  rw [(lose_eq _).2]
  simp [workload, listening, Reader.workload]

/-- A party that is ready lessens the work when it wakes. -/
theorem relieves_of_partiesReady (h : Coherent c) (ready : a ∈ c.partiesReady now) :
    c.Relieves now a := by
  obtain ⟨p, p_ready, rfl⟩ := List.mem_map.1 ready
  obtain ⟨member, ends⟩ := List.mem_filter.1 p_ready
  obtain ⟨outcome, ends⟩ := Option.isSome_iff_exists.1 ends
  refine ⟨c.leave p, [.finished p.ticket outcome], ?_, workload_leave member⟩
  simp [step, party?_of_mem h member, ends]

/-- A reader that is ready lessens the work when it acts. -/
theorem relieves_of_readerReady (ready : a ∈ c.readerReady now) : c.Relieves now a := by
  unfold readerReady at ready
  cases reader : c.reader with
  | ended => simp [reader] at ready
  | listening since =>
    simp only [reader, List.mem_append, List.mem_ite_nil_right, List.mem_singleton] at ready
    have relieved := workload_endReader now reader
    rcases ready with ⟨stopping, rfl⟩ | ⟨due, rfl⟩
    · exact ⟨c.endReader.1, c.endReader.2, by simp [step, reader, stopping], relieved⟩
    · exact ⟨c.endReader.1, c.endReader.2, by simp [step, reader, due], relieved⟩

/-- A write that has taken too long can expire. -/
theorem relieves_of_overdue {since : Nat} (under_way : c.writer.began? = some since)
    (due : since + c.options.writeWait.nanos ≤ now) : c.Relieves now .expireWrite := by
  have spoils : c.step now .expireWrite = c.spoilWrite (.timedOut c.writeLimit) := by
    simp [step, under_way, due]
  unfold Relieves
  rw [spoils]
  unfold spoilWrite
  cases writer : c.writer with
  | data item since' =>
    refine ⟨_, _, rfl, ?_⟩
    simp [workload, judge, update, writer, Writer.workload]
  | ping since' => exact ⟨_, _, rfl, workload_endWriter (by simp [writer, Writer.workload]) _⟩
  | closing since' => exact ⟨_, _, rfl, workload_endWriter (by simp [writer, Writer.workload]) _⟩
  | _ =>
    rw [writer] at under_way
    cases under_way

/-- What an idle writer begins takes work off: a ping puts off the next one. -/
theorem relieves_of_idle (period : 0 < c.options.pingPeriod.nanos) (writer : c.writer = .idle)
    (ready : a ∈ c.writerReady now) : c.Relieves now a := by
  unfold writerReady at ready
  simp only [writer, List.mem_append, List.mem_ite_nil_right, List.mem_ite_nil_left,
    List.mem_singleton] at ready
  rcases ready with (⟨stopping, rfl⟩ | ⟨waiting, rfl⟩) | ⟨due, rfl⟩
  · refine ⟨{ c with writer := .closing now }, [], by simp [step, writer, stopping], ?_⟩
    simp [workload, writer, Writer.workload]
  · cases queue : c.queue with
    | nil => simp [queue] at waiting
    | cons item rest =>
      refine ⟨{ c with writer := .data item now, queue := rest }, [.handed item],
        by simp [step, writer, queue], ?_⟩
      simp [workload, writer, queue, Writer.workload]
      omega
  · refine ⟨{ c with writer := .ping now, nextPing := c.pingAfter c.nextPing now }, [],
      by simp [step, writer, due], ?_⟩
    have put_off : c.nextPing < c.pingAfter c.nextPing now := by
      unfold pingAfter
      split <;> omega
    simp only [workload, writer, Writer.workload]
    omega

/-- A writer that is ready lessens the work when it acts, if pings have a period. -/
theorem relieves_of_writerReady (period : 0 < c.options.pingPeriod.nanos)
    (ready : a ∈ c.writerReady now) : c.Relieves now a := by
  cases writer : c.writer with
  | idle => exact relieves_of_idle period writer ready
  | unstartable =>
    simp only [writerReady, writer, List.mem_singleton] at ready
    subst ready
    refine ⟨(c.endWriter .loopStopped).1, (c.endWriter .loopStopped).2, ?_,
      workload_endWriter (by simp [writer, Writer.workload]) _⟩
    simp [step, abortWriter, writer]
  | ended => simp [writerReady, writer] at ready
  | _ =>
    -- A write is under way: all that can be ready is its end.
    simp only [writerReady, writer, List.mem_ite_nil_right, List.mem_singleton] at ready
    obtain ⟨due, rfl⟩ := ready
    exact relieves_of_overdue (by simp [writer, Writer.began?]) due

/-- Whatever is ready can be done, and takes work off the connection. -/
theorem relieves_of_ready (h : Coherent c) (period : 0 < c.options.pingPeriod.nanos)
    (ready : a ∈ c.ready now) : c.Relieves now a := by
  unfold Connection.ready at ready
  rcases List.mem_append.1 ready with ready | by_writer
  · rcases List.mem_append.1 ready with by_party | by_reader
    · exact relieves_of_partiesReady h by_party
    · exact relieves_of_readerReady by_reader
  · exact relieves_of_writerReady period by_writer

/-- A connection gets done with everything that is due at an instant. -/
theorem exists_idle (h : Coherent c) (period : 0 < c.options.pingPeriod.nanos) (now : Nat) :
    ∃ moments c', PromptRun c now moments now c' ∧ ByItself moments ∧ c'.ready now = [] := by
  induction left : c.workload now using Nat.strongRecOn generalizing c with
  | _ n ih =>
    cases ready : c.ready now with
    | nil => exact ⟨[], c, .start, by simp [ByItself], ready⟩
    | cons a others =>
      have is_ready : a ∈ c.ready now := by simp [ready]
      obtain ⟨c₁, es, taken, less⟩ := relieves_of_ready h period is_ready
      have first : PromptRun c now [⟨now, a, es, c, c₁⟩] now c₁ := History.act .start taken
      have coherent : Coherent c₁ := h.of_effect (.of_step taken)
      have period₁ : 0 < c₁.options.pingPeriod.nanos := by
        rw [options_of_step taken]
        exact period
      obtain ⟨moments, c', run, alone, idle⟩ := ih (c₁.workload now) (left ▸ less) coherent period₁ rfl
      refine ⟨_, c', first.append run, ?_, idle⟩
      intro m member
      rcases List.mem_append.1 member with here | later
      · rw [List.mem_singleton.1 here]
        exact is_ready
      · exact alone m later

/-- The first instant that is a given one or that of an alarm ahead. -/
theorem exists_next_instant (alarms : List Nat) {later : Nat} (ahead : now < later) :
    ∃ next, now < next ∧ next ≤ later ∧ ∀ alarm ∈ alarms, alarm ≤ now ∨ next ≤ alarm := by
  induction alarms with
  | nil => exact ⟨later, ahead, Nat.le_refl _, by simp⟩
  | cons alarm alarms ih =>
    obtain ⟨next, after, le, clear⟩ := ih
    by_cases passed : alarm ≤ now
    · refine ⟨next, after, le, ?_⟩
      simpa [passed] using clear
    · refine ⟨min next alarm, by omega, by omega, ?_⟩
      intro other member
      rcases List.mem_cons.1 member with rfl | member
      · omega
      · have either := clear other member
        omega

/-- A prompt run can be carried on to any later instant, without anybody doing anything but the
connection. -/
theorem carry_on (h : Coherent c) (period : 0 < c.options.pingPeriod.nanos) {later : Nat}
    (le : now ≤ later) : ∃ moments c', PromptRun c now moments later c' ∧ ByItself moments := by
  induction left : later - now using Nat.strongRecOn generalizing c now with
  | _ n ih =>
    obtain ⟨moments, c₁, run, alone, idle⟩ := exists_idle h period now
    rcases Nat.eq_or_lt_of_le le with rfl | ahead
    · exact ⟨moments, c₁, run, alone⟩
    · obtain ⟨next, after, next_le, clear⟩ := exists_next_instant c₁.alarms ahead
      have rested : PromptRun c now moments next c₁ := .rest run after ⟨idle, clear⟩
      have coherent : Coherent c₁ := h.along (run_of_prompt run)
      have period₁ : 0 < c₁.options.pingPeriod.nanos := by
        rw [options_of_run (run_of_prompt run)]
        exact period
      obtain ⟨further, c', run', alone'⟩ := ih (later - next) (by omega) coherent period₁ next_le rfl
      refine ⟨moments ++ further, c', rested.append run', ?_⟩
      intro m member
      rcases List.mem_append.1 member with here | behind
      · exact alone m here
      · exact alone' m behind

end CallPool.Connection
