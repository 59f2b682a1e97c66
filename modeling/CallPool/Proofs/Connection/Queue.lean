import CallPool.Proofs.Connection.Progress

/-!
# The queue of the writer

Frames wait in a queue until the writer hands them to the socket, the oldest first. `Flow` lists what an
action can do to the queue and to the two tasks of a connection: it leaves them as they are, queues a
frame behind all others, hands the one in front to the socket, or ends the reader or the writer, which
leaves the connection dead and, if it is the writer, nothing in the queue. So while the writer runs, what
was queued is what was handed over and what still waits, in this order (`Queued.of_run`).
-/

set_option autoImplicit false

namespace CallPool.Connection

/-- The frame that an event tells was queued. -/
def Event.queued? : Event → Option Outgoing
  | .queued item => some item
  | _ => none

/-- The frame that an event tells was handed to the socket. -/
def Event.handed? : Event → Option Outgoing
  | .handed item => some item
  | _ => none

/-- The frames that some events tell were queued, in order. -/
def queuedIn (es : List Event) : List Outgoing := es.filterMap Event.queued?

/-- The frames that some events tell were handed to the socket, in order. -/
def handedIn (es : List Event) : List Outgoing := es.filterMap Event.handed?

/-- The frames that were queued in one run behind another are those of both, in order. -/
@[simp] theorem queuedIn_append (es es' : List Event) :
    queuedIn (es ++ es') = queuedIn es ++ queuedIn es' := by
  simp [queuedIn]

/-- The frames that were handed over in one run behind another are those of both, in order. -/
@[simp] theorem handedIn_append (es es' : List Event) :
    handedIn (es ++ es') = handedIn es ++ handedIn es' := by
  simp [handedIn]

/-- A frame was queued if that is told. -/
@[simp] theorem mem_queuedIn {item : Outgoing} {es : List Event} :
    item ∈ queuedIn es ↔ Event.queued item ∈ es := by
  unfold queuedIn
  rw [List.mem_filterMap]
  constructor
  · rintro ⟨e, member, same⟩
    cases e <;> simp only [Event.queued?, reduceCtorEq, Option.some.injEq] at same
    rw [← same]
    exact member
  · exact fun member => ⟨_, member, rfl⟩

/-- A frame was handed over if that is told. -/
@[simp] theorem mem_handedIn {item : Outgoing} {es : List Event} :
    item ∈ handedIn es ↔ Event.handed item ∈ es := by
  unfold handedIn
  rw [List.mem_filterMap]
  constructor
  · rintro ⟨e, member, same⟩
    cases e <;> simp only [Event.handed?, reduceCtorEq, Option.some.injEq] at same
    rw [← same]
    exact member
  · exact fun member => ⟨_, member, rfl⟩

/-- Some events tell of no frame that is queued or handed over. -/
def Unmoved (es : List Event) : Prop := queuedIn es = [] ∧ handedIn es = []

/-- Where nothing is told no frame has moved. -/
theorem Unmoved.nil : Unmoved [] := ⟨rfl, rfl⟩

/-- No frame moves just before the writer ends. -/
theorem Unmoved.of_endsWriter {c : Connection} {now : Nat} {a : Action} {front : List Event}
    {fault : WriteFault} (how : EndsWriter c now a front fault) : Unmoved front := by
  cases how with
  | parted _ => exact ⟨rfl, rfl⟩
  | spoiled _ _ => exact .nil
  | forced _ _ => exact .nil

/-- What an action does to the queue, and to the reader and the writer. -/
inductive Flow (c c' : Connection) (a : Action) (es : List Event) : Prop
  | rests (reader : c'.reader = .ended → c.reader = .ended)
      (writer : c'.writer = .ended ↔ c.writer = .ended)
      (data : ∀ item began, c'.writer = .data item began → c.writer = .data item began)
      (queue : c'.queue = c.queue) (unmoved : Unmoved es)
  /-- A party joins and queues a frame. -/
  | queues {item : Outgoing} (joins : a.Joins) (mine : item.ticket = c.nextTicket)
      (further : c'.nextTicket = c.nextTicket + 1) (reader : c'.reader = c.reader)
      (running : c.writer ≠ .ended) (writer : c'.writer = c.writer)
      (queue : c'.queue = c.queue ++ [item]) (queued : queuedIn es = [item]) (unhanded : handedIn es = [])
  /-- The writer takes the frame in front. -/
  | hands {item : Outgoing} {began : Nat} (reader : c'.reader = c.reader) (idle : c.writer = .idle)
      (writer : c'.writer = .data item began) (queue : c.queue = item :: c'.queue)
      (unqueued : queuedIn es = []) (handed : handedIn es = [item])
  | readerEnds (dead : c'.connected = false) (writer : c'.writer = c.writer) (queue : c'.queue = c.queue)
      (unmoved : Unmoved es)
  | writerEnds (dead : c'.connected = false) (running : c.writer ≠ .ended) (writer : c'.writer = .ended)
      (queue : c'.queue = []) (unmoved : Unmoved es)

namespace Flow

variable {c c' : Connection} {now : Nat} {a : Action} {es : List Event}

/-- Where reader, writer and queue stay no frame moves. -/
theorem of_same (reader : c'.reader = c.reader) (writer : c'.writer = c.writer)
    (queue : c'.queue = c.queue) (unmoved : Unmoved es) : Flow c c' a es :=
  .rests (fun ended => reader ▸ ended) (by rw [writer]) (fun _ _ data => writer ▸ data) queue unmoved

/-- What a loss changes of a connection, and what it tells. -/
theorem lose_rest (c : Connection) : c.lose.1.connected = false ∧ c.lose.1.reader = c.reader ∧
    c.lose.1.writer = c.writer ∧ c.lose.1.queue = c.queue ∧ Unmoved c.lose.2 := by
  unfold lose
  split
  · exact ⟨rfl, rfl, rfl, rfl, rfl, rfl⟩
  · rename_i dead
    exact ⟨by simpa using dead, rfl, rfl, rfl, .nil⟩

/-- The end of the reader moves no frame. -/
theorem of_endReader : Flow c c.endReader.1 a c.endReader.2 := by
  obtain ⟨dead, _, writer, queue, unmoved⟩ := lose_rest { c with reader := .ended }
  exact .readerEnds dead writer queue unmoved

/-- The writer ends, and leaves no frame behind in the queue. -/
theorem of_endWriter {d : Connection} {fault : WriteFault} (front : List Event) (unmoved : Unmoved front)
    (running : c.writer ≠ .ended) : Flow c (d.endWriter fault).1 a (front ++ (d.endWriter fault).2) := by
  obtain ⟨dead, _, ended, empty, quiet⟩ :=
    lose_rest { d.judgeAll d.queue (.failed fault) with queue := [], writer := .ended }
  refine .writerEnds dead running ended empty ⟨?_, ?_⟩
  · rw [queuedIn_append, unmoved.1]
    exact quiet.1
  · rw [handedIn_append, unmoved.2]
    exact quiet.2

/-- A party that joins queues its frame, or finds the writer gone. -/
theorem of_enqueue {d : Connection} {item : Outgoing} (front : List Event) (unmoved : Unmoved front)
    (joins : a.Joins) (mine : item.ticket = c.nextTicket) (further : d.nextTicket = c.nextTicket + 1)
    (reader : d.reader = c.reader) (writer : d.writer = c.writer) (queue : d.queue = c.queue) :
    Flow c (d.enqueue item).1 a (front ++ (d.enqueue item).2) := by
  unfold enqueue
  split
  · rw [List.append_nil]
    exact .of_same reader writer queue unmoved
  · rename_i running
    refine .queues joins mine further reader (by rw [← writer]; exact running) writer (by rw [← queue])
      ?_ ?_
    · rw [queuedIn_append, unmoved.1]
      rfl
    · rw [handedIn_append, unmoved.2]
      rfl

/-- A party that leaves moves no frame. -/
theorem of_leave (c : Connection) (p : Party) (unmoved : Unmoved es) : Flow c (c.leave p) a es := by
  obtain ⟨_, _, reader, writer, queue, _⟩ := leave_eq c p
  exact .of_same reader writer queue unmoved

/-- Registering a party leaves reader, writer and queue alone. -/
theorem rest_of_register? {purpose : Purpose} {verdict : Verdict} {id : CorrelationId} {r : Connection}
    (entered : (c.join purpose verdict).register? id c.nextTicket = some r) :
    r.nextTicket = c.nextTicket + 1 ∧ r.reader = c.reader ∧ r.writer = c.writer ∧
      r.queue = c.queue := by
  unfold register? at entered
  split at entered
  · obtain rfl := Option.some.inj entered
    exact ⟨rfl, rfl, rfl, rfl⟩
  · cases entered

/-- What each action that a connection takes does to the queue and to the two tasks. -/
theorem of_step (taken : c.step now a = some (c', es)) : Flow c c' a es := by
  cases Takes.of_step taken with
  | calls entered =>
    obtain ⟨further, reader, writer, queue⟩ := rest_of_register? entered
    exact of_enqueue [.registered c.nextTicket _] ⟨rfl, rfl⟩ trivial rfl further reader writer queue
  | sends _ => exact of_enqueue [] .nil trivial rfl rfl rfl rfl rfl
  | waits entered =>
    obtain ⟨_, reader, writer, queue⟩ := rest_of_register? entered
    exact .of_same reader writer queue ⟨rfl, rfl⟩
  | refuses _ _ => exact .of_same rfl rfl rfl ⟨rfl, rfl⟩
  | turnsAway _ => exact .of_same rfl rfl rfl ⟨rfl, rfl⟩
  | drops _ => exact of_leave c _ .nil
  | wakes _ _ => exact of_leave c _ ⟨rfl, rfl⟩
  | hears _ => exact .rests nofun Iff.rfl (fun _ _ data => data) rfl .nil
  | delivers _ _ _ => exact .rests nofun Iff.rfl (fun _ _ data => data) rfl ⟨rfl, rfl⟩
  | endsReader _ => exact of_endReader
  | begins idle front => exact .hands rfl idle rfl front rfl rfl
  | pings idle _ => exact .rests id (by simp [idle]) nofun rfl .nil
  | parts idle _ => exact .rests id (by simp [idle]) nofun rfl .nil
  | writes writing => exact .rests id (by simp [writing]) nofun rfl ⟨rfl, rfl⟩
  | pinged pinging => exact .rests id (by simp [pinging]) nofun rfl ⟨rfl, rfl⟩
  | fails writing _ => exact .rests id (by simp [writing]) nofun rfl .nil
  | endsWriter how => exact of_endWriter _ (.of_endsWriter how) how.running
  | cutsOff writing => exact of_endWriter [] .nil (by simp [writing])
  | closes => exact .of_same rfl rfl rfl .nil

/-- A frame that is queued is behind all others, and that of a party that has just joined. -/
theorem of_queued (flow : Flow c c' a es) {item : Outgoing} (told : Event.queued item ∈ es) :
    a.Joins ∧ item.ticket = c.nextTicket ∧ item ∈ c'.queue := by
  have some_queued : queuedIn es ≠ [] := List.ne_nil_of_mem (mem_queuedIn.2 told)
  cases flow with
  | rests _ _ _ _ unmoved => exact absurd unmoved.1 some_queued
  | @queues last joins mine _ _ _ _ queue queued _ =>
    have same : item ∈ [last] := queued ▸ mem_queuedIn.2 told
    rw [List.mem_singleton.1 same, queue]
    exact ⟨joins, mine, List.mem_append_right _ (List.mem_singleton_self _)⟩
  | hands _ _ _ _ unqueued _ => exact absurd unqueued some_queued
  | readerEnds _ _ _ unmoved => exact absurd unmoved.1 some_queued
  | writerEnds _ _ _ _ unmoved => exact absurd unmoved.1 some_queued

end Flow

/-! ## Frames go out in order -/

/-- What has been told until now says of the queue what is in it. -/
structure Queued (past : List Event) (c : Connection) : Prop where
  /-- While the writer runs, what was queued was handed over or waits. -/
  running : c.writer ≠ .ended → queuedIn past = handedIn past ++ c.queue
  ended : c.writer = .ended → c.queue = []
  /-- What is being written was handed over. -/
  writing : ∀ item began, c.writer = .data item began → item ∈ handedIn past
  in_order : handedIn past <+: queuedIn past
  tickets_nodup : ((queuedIn past).map Outgoing.ticket).Nodup
  tickets_lt : ∀ item ∈ queuedIn past, item.ticket < c.nextTicket

namespace Queued

variable {past es : List Event} {c c' : Connection}

/-- A connection that has just been opened has queued nothing. -/
theorem opened (slot generation : Nat) (options : Options) (now : Nat) :
    Queued [] (Connection.opened slot generation options now) where
  running := fun _ => rfl
  ended := fun _ => rfl
  writing := fun item began data => by
    rcases writer_opened slot generation options now with writer | writer <;>
      rw [writer] at data <;> cases data
  in_order := List.prefix_refl _
  tickets_nodup := List.nodup_nil
  tickets_lt := nofun

/-- What moves no frame leaves the queue as it is, or ends the writer. -/
theorem of_unmoved (h : Queued past c) (unmoved : Unmoved es) (further : c.nextTicket ≤ c'.nextTicket)
    (running : c'.writer ≠ .ended → c.writer ≠ .ended ∧ c'.queue = c.queue)
    (ended : c'.writer = .ended → c'.queue = [])
    (data : ∀ item began, c'.writer = .data item began → c.writer = .data item began) :
    Queued (past ++ es) c' := by
  have queued : queuedIn (past ++ es) = queuedIn past := by
    rw [queuedIn_append, unmoved.1, List.append_nil]
  have handed : handedIn (past ++ es) = handedIn past := by
    rw [handedIn_append, unmoved.2, List.append_nil]
  refine ⟨?_, ended, ?_, ?_, ?_, ?_⟩
  · intro runs
    obtain ⟨ran, queue⟩ := running runs
    rw [queued, handed, queue]
    exact h.running ran
  · rw [handed]
    exact fun item began writes => h.writing item began (data item began writes)
  · rw [queued, handed]
    exact h.in_order
  · rw [queued]
    exact h.tickets_nodup
  · rw [queued]
    exact fun item member => Nat.lt_of_lt_of_le (h.tickets_lt item member) further

/-- What happens to the frames keeps them in order. -/
theorem extend {a : Action} (h : Queued past c) (flow : Flow c c' a es)
    (further : c.nextTicket ≤ c'.nextTicket) :
    Queued (past ++ es) c' := by
  cases flow with
  | rests _ writer data queue unmoved =>
    refine h.of_unmoved unmoved further (fun runs => ⟨fun ended => runs (writer.2 ended), queue⟩) ?_ data
    rw [queue]
    exact fun ended => h.ended (writer.1 ended)
  | @queues item _ mine next _ running writer queue queued unhanded =>
    have handed : handedIn (past ++ es) = handedIn past := by
      rw [handedIn_append, unhanded, List.append_nil]
    have all : queuedIn (past ++ es) = queuedIn past ++ [item] := by
      rw [queuedIn_append, queued]
    refine ⟨?_, by rw [writer]; exact fun ended => absurd ended running, ?_, ?_, ?_, ?_⟩
    · intro _
      rw [all, handed, h.running running, queue, List.append_assoc]
    · rw [handed, writer]
      exact h.writing
    · rw [all, handed]
      exact h.in_order.trans (List.prefix_append _ _)
    -- The frame that is queued has the next ticket, and all others have earlier ones.
    · rw [all, List.map_append, List.nodup_append]
      refine ⟨h.tickets_nodup, List.nodup_singleton _, ?_⟩
      intro t member t' last same
      obtain ⟨older, older_member, rfl⟩ := List.mem_map.1 member
      rw [List.mem_singleton.1 last, mine] at same
      exact Nat.ne_of_lt (h.tickets_lt older older_member) same
    · rw [all]
      intro x member
      rcases List.mem_append.1 member with older | last
      · exact Nat.lt_of_lt_of_le (h.tickets_lt x older) further
      · rw [List.mem_singleton.1 last, mine, next]
        exact Nat.lt_succ_self _
  | @hands item _ _ idle writer queue unqueued handed =>
    have queued : queuedIn (past ++ es) = queuedIn past := by
      rw [queuedIn_append, unqueued, List.append_nil]
    have all : queuedIn past = handedIn (past ++ es) ++ c'.queue := by
      rw [h.running (by rw [idle]; nofun), handedIn_append, handed, queue, List.append_assoc,
        List.singleton_append]
    refine ⟨fun _ => queued.trans all, by rw [writer]; nofun, ?_, ?_, ?_, ?_⟩
    · rw [writer]
      rintro _ _ writes
      obtain ⟨rfl, rfl⟩ := Writer.data.inj writes
      rw [handedIn_append, handed]
      exact List.mem_append_right _ (List.mem_singleton_self _)
    · rw [queued, all]
      exact List.prefix_append _ _
    · rw [queued]
      exact h.tickets_nodup
    · rw [queued]
      exact fun x member => Nat.lt_of_lt_of_le (h.tickets_lt x member) further
  | readerEnds _ writer queue unmoved =>
    refine h.of_unmoved unmoved further ?_ ?_ ?_
    · rw [writer]
      exact fun runs => ⟨runs, queue⟩
    · rw [queue, writer]
      exact h.ended
    · rw [writer]
      exact fun _ _ data => data
  | writerEnds _ _ writer queue unmoved =>
    refine h.of_unmoved unmoved further (fun runs => absurd writer runs) (fun _ => queue) ?_
    rw [writer]
    nofun

/-- In every run frames are handed over in the order in which they were queued, each at most once. -/
theorem of_run {slot generation began now : Nat} {options : Options} {moments : List Moment}
    (run : Run (Connection.opened slot generation options began) began moments now c) :
    Queued (eventsOf moments) c := by
  induction run with
  | start => exact opened slot generation options began
  | act past taken ih =>
    rw [eventsOf_append, eventsOf_cons, eventsOf_nil, List.append_nil]
    exact ih.extend (.of_step taken) (Passage.of_step (Coherent.of_run past) taken).nextTicket_le
  | rest _ _ _ ih => exact ih

end Queued

end CallPool.Connection
