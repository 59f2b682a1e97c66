import CallPool.Proofs.Connection.Queue
import CallPool.Proofs.Connection.Lifecycle

/-!
# The verdict on a frame

A frame that is queued stays on its way out until one moment in which the writer is done with it: then
it is written as a whole, or it has failed (`Decides`). There is no third way, and none back, so each
frame that was queued is on its way out still, or was written, or has failed (`decides_of_queued`). A frame
that has failed is never written, and whoever queued it ends with that failure, unless it gave up
before (`Unsent`). When the writer has ended nothing is on its way out any more.

Main statement: `Orderly.of_run`.
-/

set_option autoImplicit false

namespace CallPool.Connection

/-- What a writer that is done with a frame has made of it. -/
inductive Fate (m : Moment) (item : Outgoing) : Verdict → Prop
  | written (told : Event.wrote item ∈ m.events) : Fate m item .written
  | failed {items : List Outgoing} {fault : WriteFault}
      (failing : Failing m.before m.instant m.after m.action items fault) (member : item ∈ items)
      (unwritten : ∀ x, Event.wrote x ∉ m.events) : Fate m item (.failed fault)

/-- Whether the writer is done with a frame in a moment, and with which verdict. -/
structure Decides (m : Moment) (item : Outgoing) (verdict : Verdict) : Prop where
  waiting : item ∈ m.before.outgoing
  gone : item.ticket ∉ m.after.underway
  judged : ∀ p ∈ m.after.parties, p.ticket = item.ticket → p.verdict = verdict
  fate : Fate m item verdict

section Step

variable {c c' : Connection} {now : Nat} {a : Action} {es : List Event} {item : Outgoing}

/-- A frame on its way out has its ticket under way. -/
theorem mem_underway (member : item ∈ c.outgoing) : item.ticket ∈ c.underway :=
  List.mem_map_of_mem member

/-- A frame in the queue is on its way out. -/
theorem mem_outgoing_of_queue (member : item ∈ c.queue) : item ∈ c.outgoing := by
  unfold outgoing
  split
  · exact List.mem_cons_of_mem _ member
  · exact member

/-- Frames in front that go, with a verdict, are decided. -/
theorem Decides.of_front {m : Moment} (items : List Outgoing) {verdict : Verdict}
    (posted : Posted m.before) (front : m.before.outgoing = items ++ m.after.outgoing)
    (errands : m.after.errands =
      m.before.errands.map (Errand.judgeIf (items.map Outgoing.ticket) verdict))
    (member : item ∈ items) (fate : Fate m item verdict) : Decides m item verdict := by
  have mine : item.ticket ∈ items.map Outgoing.ticket := List.mem_map_of_mem member
  have tickets : m.before.underway = items.map Outgoing.ticket ++ m.after.underway := by
    simp [underway, front]
  have once := posted.underway_nodup
  rw [tickets, List.nodup_append] at once
  refine ⟨?_, fun later => once.2.2 _ mine _ later rfl, ?_, fate⟩
  · rw [front]
    exact List.mem_append_left _ member
  · intro p p_member same
    have errand : p.errand ∈ m.after.errands := List.mem_map_of_mem p_member
    rw [errands] at errand
    obtain ⟨e, _, becomes⟩ := List.mem_map.1 errand
    have e_mine : e.ticket ∈ items.map Outgoing.ticket := by
      rw [← Errand.ticket_judgeIf (items.map Outgoing.ticket) verdict e, becomes]
      rw [show p.errand.ticket = item.ticket from same]
      exact mine
    have decided := Errand.judgeIf_of_mem (v := verdict) e_mine
    rw [becomes] at decided
    exact decided

/-- A frame on its way out stays so, or the writer is done with it. -/
theorem Dispatch.decides (posted : Posted c) (dispatch : Dispatch c now c' a es)
    (member : item ∈ c.outgoing) :
    item ∈ c'.outgoing ∨ ∃ verdict, Decides ⟨now, a, es, c, c'⟩ item verdict := by
  cases dispatch with
  | rests _ outgoing _ => exact .inl (outgoing ▸ member)
  | queues _ _ _ outgoing _ =>
    rw [outgoing]
    exact .inl (List.mem_append_left _ member)
  | joins _ _ outgoing _ _ => exact .inl (outgoing ▸ member)
  | leaves _ outgoing _ => exact .inl (outgoing ▸ member)
  | @writes first front errands =>
    rw [front] at member
    rcases List.mem_cons.1 member with rfl | behind
    · refine .inr ⟨.written, .of_front [item] posted front errands ?_ (.written ?_)⟩
      · exact List.mem_singleton_self _
      · exact List.mem_singleton_self _
    · exact .inl behind
  | @fails _ _ items fault failing front errands unwritten =>
    rw [front] at member
    rcases List.mem_append.1 member with gone | behind
    · exact .inr ⟨.failed fault, .of_front items posted front errands gone (.failed failing gone unwritten)⟩
    · exact .inl behind

/-- The writer is done with a frame that is written. -/
theorem Dispatch.of_wrote (posted : Posted c) (dispatch : Dispatch c now c' a es)
    (told : Event.wrote item ∈ es) : Decides ⟨now, a, es, c, c'⟩ item .written := by
  cases dispatch with
  | rests _ _ unwritten => exact absurd told (unwritten item)
  | queues _ _ _ _ unwritten => exact absurd told (unwritten item)
  | joins _ _ _ unwritten _ => exact absurd told (unwritten item)
  | leaves _ _ unwritten => exact absurd told (unwritten item)
  | fails _ _ _ unwritten => exact absurd told (unwritten item)
  | @writes first front errands =>
    obtain rfl := Event.wrote.inj (List.mem_singleton.1 told)
    exact .of_front [item] posted front errands (List.mem_singleton_self _) (.written told)

/-- A frame that is queued gets on its way out, and is that of a party that has joined. -/
theorem waits_of_queued (h : Coherent c) (posted : Posted c) (taken : c.step now a = some (c', es))
    (told : Event.queued item ∈ es) :
    item ∈ c'.outgoing ∧ ∃ w ∈ c'.waits, w.ticket = item.ticket := by
  obtain ⟨_, mine, behind⟩ := (Flow.of_step taken).of_queued told
  have out := mem_outgoing_of_queue behind
  rcases (Dispatch.of_step h taken).of_underway (mem_underway out) with
    before | ⟨_, e, e_member, same⟩
  · have below := posted.underway_lt _ before
    exact absurd mine (Nat.ne_of_lt below)
  · obtain ⟨p, p_member, rfl⟩ := List.mem_map.1 e_member
    exact ⟨out, p.wait, List.mem_map_of_mem p_member, same⟩

/-- What is written as a whole was handed to the socket before. -/
theorem data_of_wrote (taken : c.step now a = some (c', es)) (h : Coherent c)
    (told : Event.wrote item ∈ es) : ∃ began, c.writer = .data item began := by
  cases Dispatch.of_step h taken with
  | rests _ _ unwritten => exact absurd told (unwritten item)
  | queues _ _ _ _ unwritten => exact absurd told (unwritten item)
  | joins _ _ _ unwritten _ => exact absurd told (unwritten item)
  | leaves _ _ unwritten => exact absurd told (unwritten item)
  | fails _ _ _ unwritten => exact absurd told (unwritten item)
  | @writes first front errands =>
    obtain rfl := Event.wrote.inj (List.mem_singleton.1 told)
    simp only [step, completeWrite] at taken
    split at taken
    · rename_i written began writing
      have same := (Prod.mk.inj (Option.some.inj taken)).2
      obtain rfl := Event.wrote.inj (List.singleton_inj.1 same)
      exact ⟨began, writing⟩
    · cases (Prod.mk.inj (Option.some.inj taken)).2
    · cases (Prod.mk.inj (Option.some.inj taken)).2
    · cases taken

end Step

/-! ## In a run -/

section Run

variable {slot generation began now : Nat} {options : Options} {moments older newer : List Moment}
  {m : Moment} {item : Outgoing} {c c' : Connection}

/-- In every run the frames on their way out are those on which a verdict is awaited. -/
theorem Posted.of_run
    (run : Run (Connection.opened slot generation options began) began moments now c) : Posted c :=
  (opened slot generation options began).along (.opened _ _ _ _) run

/-- A frame that was queued is on its way out still, or the writer was done with it in one moment. -/
theorem decides_of_queued
    (run : Run (Connection.opened slot generation options began) began moments now c)
    (told : Event.queued item ∈ eventsOf moments) :
    item ∈ c.outgoing ∨
      ∃ older m newer verdict, moments = older ++ m :: newer ∧ Decides m item verdict := by
  induction run with
  | start => cases told
  | rest _ _ _ ih => exact ih told
  | @act ms now c c' a es past taken ih =>
    have coherent := Coherent.of_run past
    have posted := Posted.of_run past
    rw [eventsOf_append, eventsOf_cons, eventsOf_nil, List.append_nil] at told
    rcases List.mem_append.1 told with earlier | last
    · rcases ih earlier with out | ⟨older, m, newer, verdict, rfl, decides⟩
      · rcases (Dispatch.of_step coherent taken).decides posted out with still | ⟨verdict, decides⟩
        · exact .inl still
        · exact .inr ⟨ms, _, [], verdict, rfl, decides⟩
      · exact .inr ⟨older, m, newer ++ [⟨now, a, es, c, c'⟩], verdict, by simp, decides⟩
    · exact .inl (waits_of_queued coherent posted taken last).1

/-- What is on its way out has been so from any earlier moment on that knows its ticket. -/
theorem underway_of_later {t : Ticket}
    (run : Run (Connection.opened slot generation options began) began (older ++ m :: newer) now c)
    (below : t < m.after.nextTicket) (still : t ∈ c.underway) : t ∈ m.after.underway := by
  obtain ⟨_, _, middle, upto, behind⟩ := run.at_moment
  by_contra absent
  exact (not_underway_of_run behind (Coherent.of_run upto) below absent).1 still

/-- The ticket of a frame that is decided has been given. -/
theorem Decides.ticket_lt {verdict : Verdict}
    (past : Run (Connection.opened slot generation options began) began older m.instant m.before)
    (taken : m.before.step m.instant m.action = some (m.after, m.events)) (decides : Decides m item verdict) :
    item.ticket < m.after.nextTicket := by
  have below := (Posted.of_run past).underway_lt _ (mem_underway decides.waiting)
  exact Nat.lt_of_lt_of_le below (Passage.of_step (Coherent.of_run past) taken).nextTicket_le

/-- A frame that is on its way out has not been written. -/
theorem unwritten_of_outgoing
    (run : Run (Connection.opened slot generation options began) began moments now c)
    (out : item ∈ c.outgoing) : Event.wrote item ∉ eventsOf moments := by
  intro told
  obtain ⟨older, m, newer, rfl, seen⟩ := exists_moment_of_mem_eventsOf told
  obtain ⟨past, taken, _, upto, _⟩ := run.at_moment
  have decides := (Dispatch.of_step (Coherent.of_run past) taken).of_wrote (Posted.of_run past) seen
  exact decides.gone (underway_of_later run (decides.ticket_lt past taken) (mem_underway out))

/-- A frame that has failed is never written. -/
theorem Decides.unwritten {fault : WriteFault}
    (run : Run (Connection.opened slot generation options began) began (older ++ m :: newer) now c)
    (decides : Decides m item (.failed fault)) : Event.wrote item ∉ eventsOf (older ++ m :: newer) := by
  obtain ⟨past, taken, middle, upto, behind⟩ := run.at_moment
  rw [eventsOf_append, eventsOf_cons, List.mem_append, List.mem_append]
  rintro (earlier | here | later)
  · exact unwritten_of_outgoing past decides.waiting earlier
  · cases decides.fate with
    | failed _ _ unwritten => exact unwritten item here
  · obtain ⟨mid, m', last, rfl, seen⟩ := exists_moment_of_mem_eventsOf later
    obtain ⟨past', taken', _⟩ := behind.at_moment
    have coherent := Coherent.of_run upto
    have posted' := (Posted.of_run upto).along coherent past'
    have absent := (not_underway_of_run past' coherent (decides.ticket_lt past taken) decides.gone).1
    have wrote := (Dispatch.of_step (coherent.along past') taken').of_wrote posted' seen
    exact absent (mem_underway wrote.waiting)

/-- Whoever ends while its frame is on its way out has waited too long. -/
theorem timeout_of_underway {t : Ticket} {outcome : Outcome} {a : Action} {es : List Event}
    (posted : Posted c) (taken : c.step now a = some (c', es)) (out : t ∈ c.underway)
    (told : Event.finished t outcome ∈ es) : ∃ id ms, outcome = .error (.requestTimeout id ms) := by
  rcases (Effect.of_step taken).of_finished told with ⟨new, _⟩ | ⟨p, member, rfl, ends⟩
  · exact absurd new (Nat.ne_of_lt (posted.underway_lt t out))
  · have awaits : p.verdict = .awaited :=
      (posted.awaited_iff p.errand (List.mem_map_of_mem member)).2 out
    have unknown : p.outcome? c.slot = none := by
      unfold Party.outcome?
      rw [awaits]
    unfold Party.ending? Party.surrender? at ends
    rw [unknown] at ends
    dsimp only at ends
    split at ends
    · split at ends
      · split at ends
        · rename_i id limit _ _
          exact ⟨id, limit.millis, (Option.some.inj ends).symm⟩
        · cases ends
      · cases ends
    · cases ends

/-- Until its frame is on its way out for the last time, a party ends only because it has waited too
long. -/
theorem timeouts_of_outgoing {ending : Nat × Outcome}
    (run : Run (Connection.opened slot generation options began) began moments now c)
    (out : item ∈ c.outgoing) (seen : ending ∈ endings moments item.ticket) :
    ∃ id ms, ending.2 = .error (.requestTimeout id ms) := by
  obtain ⟨m, member, _, told⟩ := mem_endings.1 seen
  obtain ⟨older, newer, rfl⟩ := List.append_of_mem member
  obtain ⟨past, taken, _⟩ := run.at_moment
  have coherent := Coherent.of_run past
  obtain ⟨below, left⟩ := (Passage.of_step coherent taken).gone _ (.inl ⟨_, told⟩)
  have behind := underway_of_later run below (mem_underway out)
  rcases (Dispatch.of_step coherent taken).of_underway behind with before | ⟨_, e, there, same⟩
  · exact timeout_of_underway (Posted.of_run past) taken before told
  · obtain ⟨p, p_member, rfl⟩ := List.mem_map.1 there
    exact absurd same (left p.wait (List.mem_map_of_mem p_member))

/-- Who is there stays until it is dropped. -/
theorem stays_of_run {t : Ticket} (run : Run c began moments now c') (coherent : Coherent c)
    (there : ∃ w ∈ c.waits, w.ticket = t) : Dropped moments t ∨ ∃ w ∈ c'.waits, w.ticket = t := by
  induction run with
  | start => exact .inr there
  | rest _ _ _ ih => exact ih
  | act past taken ih =>
    rw [dropped_append, dropped_singleton]
    rcases ih with dropped | ⟨w, member, rfl⟩
    · exact .inl (.inl dropped)
    · rcases (Passage.of_step (coherent.along past) taken).kept w member with drops | ⟨w', member', same, _⟩
      · exact .inl (.inr drops)
      · exact .inr ⟨w', member', same⟩

/-- Who has queued a frame is there until it is dropped. -/
theorem party_of_queued
    (run : Run (Connection.opened slot generation options began) began moments now c)
    (told : Event.queued item ∈ eventsOf moments) :
    Dropped moments item.ticket ∨ ∃ p ∈ c.parties, p.ticket = item.ticket := by
  obtain ⟨older, m, newer, rfl, seen⟩ := exists_moment_of_mem_eventsOf told
  obtain ⟨past, taken, _, upto, behind⟩ := run.at_moment
  obtain ⟨_, there⟩ := waits_of_queued (Coherent.of_run past) (Posted.of_run past) taken seen
  rcases stays_of_run behind (Coherent.of_run upto) there with dropped | ⟨w, member, same⟩
  · rw [List.append_cons, dropped_append]
    exact .inl (.inr dropped)
  · obtain ⟨p, p_member, rfl⟩ := List.mem_map.1 member
    exact .inr ⟨p, p_member, same⟩

/-- The verdict that a party has been given stays. -/
theorem Decides.verdict_stays {verdict : Verdict}
    (run : Run (Connection.opened slot generation options began) began (older ++ m :: newer) now c)
    (decides : Decides m item verdict) :
    item.ticket < m.after.nextTicket ∧
      ∀ p ∈ c.parties, p.ticket = item.ticket → p.verdict = verdict := by
  obtain ⟨past, taken, _, upto, behind⟩ := run.at_moment
  have known := decides.ticket_lt past taken
  have decided : verdict ≠ .awaited := by
    cases decides.fate with
    | written _ => nofun
    | failed _ _ _ => nofun
  refine ⟨known, advance_along behind (Coherent.of_run upto) (Posted.of_run upto) known decides.judged ?_⟩
  intro _ p p' goes_on same
  rcases goes_on.verdict with stays | ⟨awaits, _⟩
  · exact stays.trans same
  · exact absurd (same.symm.trans awaits) decided

/-- Whoever has queued a frame that was written knows it. -/
theorem verdict_of_wrote
    (run : Run (Connection.opened slot generation options began) began moments now c)
    (told : Event.wrote item ∈ eventsOf moments) :
    ∀ p ∈ c.parties, p.ticket = item.ticket → p.verdict = .written := by
  obtain ⟨older, m, newer, rfl, seen⟩ := exists_moment_of_mem_eventsOf told
  obtain ⟨past, taken, _⟩ := run.at_moment
  have decides := (Dispatch.of_step (Coherent.of_run past) taken).of_wrote (Posted.of_run past) seen
  exact (decides.verdict_stays run).2

/-- A party whose write has failed ends with that failure. -/
theorem Party.ending?_of_failed {p : Party} {fault : WriteFault} (failed : p.verdict = .failed fault) :
    p.ending? slot now = some (.error (.send slot fault)) := by
  apply ending?_of_outcome?
  unfold outcome?
  rw [failed]

/-- What becomes of a frame that fails in a moment, and of the party that queued it. -/
structure Unsent (slot : Nat) (older : List Moment) (m : Moment) (newer : List Moment) (now : Nat)
    (c : Connection) (item : Outgoing) (fault : WriteFault) : Prop where
  failing : ∃ items, Failing m.before m.instant m.after m.action items fault ∧ item ∈ items
  unwritten : Event.wrote item ∉ eventsOf (older ++ m :: newer)
  /-- Until then the party may have given up, and no more. -/
  before : ∀ ending ∈ endings (older ++ [m]) item.ticket, ∃ id ms,
    ending.2 = .error (.requestTimeout id ms)
  /-- From then on it ends with the failure, if it does. -/
  behind : ∀ ending ∈ endings newer item.ticket, ending.2 = .error (.send slot fault)
  /-- If it is there still it can do so now. -/
  wakes : ¬ Dropped (older ++ m :: newer) item.ticket → ∃ c',
    c.step now (.wake item.ticket) = some (c', [.finished item.ticket (.error (.send slot fault))])

/-- A frame that fails once it has been queued is unsent for good. -/
theorem Unsent.of_decides {fault : WriteFault}
    (run : Run (Connection.opened slot generation options began) began (older ++ m :: newer) now c)
    (told : Event.queued item ∈ eventsOf (older ++ m :: newer))
    (decides : Decides m item (.failed fault)) : Unsent slot older m newer now c item fault := by
  obtain ⟨past, taken, middle, upto, behind⟩ := run.at_moment
  obtain ⟨items, failing, member⟩ : ∃ items,
      Failing m.before m.instant m.after m.action items fault ∧ item ∈ items := by
    cases decides.fate with
    | failed failing member _ => exact ⟨_, failing, member⟩
  refine ⟨⟨items, failing, member⟩, decides.unwritten run, ?_, ?_, ?_⟩
  · intro ending seen
    rw [endings_append, List.mem_append] at seen
    rcases seen with earlier | here
    · exact timeouts_of_outgoing past decides.waiting earlier
    · obtain ⟨m', last, _, ends⟩ := mem_endings.1 here
      rw [List.mem_singleton.1 last] at ends
      exact timeout_of_underway (Posted.of_run past) taken (mem_underway decides.waiting) ends
  · intro ending seen
    obtain ⟨m', later, _, ends⟩ := mem_endings.1 seen
    obtain ⟨mid, last, rfl⟩ := List.append_of_mem later
    have cut : older ++ m :: (mid ++ m' :: last) = (older ++ m :: mid) ++ m' :: last := by simp
    rw [cut] at run
    obtain ⟨known, verdict⟩ := decides.verdict_stays run.at_moment.1
    have further := nextTicket_le_of_run behind.at_moment.1 (Coherent.of_run upto)
    obtain ⟨p, p_member, mine, ends⟩ := party_of_finished run (Nat.lt_of_lt_of_le known further) ends
    rw [Party.ending?_of_failed (verdict p p_member mine)] at ends
    exact (Option.some.inj ends).symm
  · intro stays
    obtain ⟨p, p_member, mine⟩ := (party_of_queued run told).resolve_left stays
    have place : c.slot = slot := congrArg Notice.slot (place_of_run run)
    have ends : p.ending? c.slot now = some (.error (.send slot fault)) := by
      rw [place]
      exact Party.ending?_of_failed ((decides.verdict_stays run).2 p p_member mine)
    have found : c.party? item.ticket = some p := by
      rw [← mine]
      exact party?_of_mem (Coherent.of_run run) p_member
    exact ⟨c.leave p, by simp [step, found, ends]⟩

/-- Whether an outcome tells a party that its frame was written. -/
def ShowsWritten : Outcome → Prop
  | .ok _ => True
  | .error (.connectionLost _ _) => True
  | .error _ => False

/-- An outcome that shows a frame to have been written is had only with the verdict that it was. -/
theorem Party.written_of_shows {p : Party} {outcome : Outcome}
    (ends : p.ending? slot now = some outcome) (shows : ShowsWritten outcome) : p.verdict = .written := by
  cases verdict : p.verdict with
  | written => rfl
  | failed fault =>
    rw [ending?_of_failed verdict] at ends
    rw [← Option.some.inj ends] at shows
    exact shows.elim
  | awaited =>
    have unknown : p.outcome? slot = none := by
      unfold outcome?
      rw [verdict]
    simp only [ending?, unknown] at ends
    split at ends
    · split at ends
      · unfold surrender? at ends
        split at ends
        · rw [← Option.some.inj ends] at shows
          exact shows.elim
        · cases ends
      · cases ends
    · cases ends

/-- A party that is told that its frame was written either has none, since it waits for a reply to
another one, or its frame was written as a whole. -/
theorem wrote_of_shows {t : Ticket} {outcome : Outcome}
    (run : Run (Connection.opened slot generation options began) began (older ++ m :: newer) now c)
    (told : Event.finished t outcome ∈ m.events) (shows : ShowsWritten outcome) :
    (∃ p ∈ m.before.parties, p.ticket = t ∧ ∃ id, p.purpose = .wait id) ∨
      ∃ item, item.ticket = t ∧ Event.wrote item ∈ eventsOf older := by
  obtain ⟨past, taken, _⟩ := run.at_moment
  rcases (Effect.of_step taken).of_drops (.inl ⟨outcome, told⟩) with
    ⟨_, _, _, only⟩ | ⟨p, member, rfl, ⟨_, only⟩ | ⟨_, _, ends, only⟩⟩
  · rw [only] at told
    obtain ⟨_, rfl⟩ := Event.finished.inj (List.mem_singleton.1 told)
    exact shows.elim
  · rw [only] at told
    cases told
  · rw [only] at told
    obtain ⟨_, rfl⟩ := Event.finished.inj (List.mem_singleton.1 told)
    have written := Party.written_of_shows ends shows
    rcases (Career.of_run past p member).judged with awaits | waits | ⟨m', m'_member, judges⟩
    · rw [awaits] at written
      cases written
    · exact .inl ⟨p, member, rfl, waits⟩
    · rw [written] at judges
      cases judges with
      | written mine wrote => exact .inr ⟨_, mine, mem_eventsOf.2 ⟨m', m'_member, wrote⟩⟩

/-- What is written as a whole was handed to the socket. -/
theorem handed_of_wrote
    (run : Run (Connection.opened slot generation options began) began moments now c)
    (told : Event.wrote item ∈ eventsOf moments) : Event.handed item ∈ eventsOf moments := by
  obtain ⟨older, m, newer, rfl, seen⟩ := exists_moment_of_mem_eventsOf told
  obtain ⟨past, taken, _⟩ := run.at_moment
  obtain ⟨began, writing⟩ := data_of_wrote taken (Coherent.of_run past) seen
  rw [eventsOf_append]
  exact List.mem_append_left _ (mem_handedIn.1 ((Queued.of_run past).writing item began writing))

/-- What a connection has done with the frames that were queued on it, and told those who queued
them. -/
structure Orderly (slot : Nat) (moments : List Moment) (now : Nat) (c : Connection) : Prop where
  /-- Frames are handed over in the order in which they were queued, each at most once. -/
  in_order : handedIn (eventsOf moments) <+: queuedIn (eventsOf moments)
  once : ((queuedIn (eventsOf moments)).map Outgoing.ticket).Nodup ∧
    ((handedIn (eventsOf moments)).map Outgoing.ticket).Nodup
  whole : ∀ item, .wrote item ∈ eventsOf moments → .handed item ∈ eventsOf moments
  /-- Nobody is told that its frame was written unless it was. -/
  honest : ∀ older m newer, moments = older ++ m :: newer → ∀ t outcome,
    .finished t outcome ∈ m.events → ShowsWritten outcome →
      (∃ p ∈ m.before.parties, p.ticket = t ∧ ∃ id, p.purpose = .wait id) ∨
        ∃ item, item.ticket = t ∧ .wrote item ∈ eventsOf older
  /-- Each frame that was queued is on its way out, or was written, or failed. -/
  answered : ∀ item, .queued item ∈ eventsOf moments → item ∈ c.outgoing ∨
    .wrote item ∈ eventsOf moments ∨ ∃ older m newer fault, moments = older ++ m :: newer ∧
      Unsent slot older m newer now c item fault
  /-- When the writer has ended nothing is on its way out, and nobody awaits a verdict. -/
  drained : c.writer = .ended → c.outgoing = [] ∧ ∀ p ∈ c.parties, p.verdict ≠ .awaited

/-- The writer of a connection is orderly, whatever happens in whatever order. -/
theorem Orderly.of_run
    (run : Run (Connection.opened slot generation options began) began moments now c) :
    Orderly slot moments now c := by
  have queued := Queued.of_run run
  refine ⟨queued.in_order, ⟨queued.tickets_nodup, ?_⟩, fun item => handed_of_wrote run, ?_, ?_, ?_⟩
  · exact (queued.in_order.map Outgoing.ticket).sublist.nodup queued.tickets_nodup
  · rintro older m newer rfl t outcome told shows
    exact wrote_of_shows run told shows
  · intro item told
    rcases decides_of_queued run told with out | ⟨older, m, newer, verdict, rfl, decides⟩
    · exact .inl out
    · right
      cases decides.fate with
      | written wrote => exact .inl (mem_eventsOf.2 ⟨m, by simp, wrote⟩)
      | failed _ _ _ => exact .inr ⟨older, m, newer, _, rfl, .of_decides run told decides⟩
  · intro ended
    have empty : c.outgoing = [] := by
      unfold outgoing
      rw [ended]
      exact queued.ended ended
    refine ⟨empty, fun p member awaits => ?_⟩
    have out := ((Posted.of_run run).awaited_iff p.errand (List.mem_map_of_mem member)).1 awaits
    unfold underway at out
    rw [empty] at out
    cases out

end Run

end CallPool.Connection
