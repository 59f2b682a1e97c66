import CallPool.Proofs.Connection.Coherence

/-!
# What an action does to frames and verdicts

A frame that is queued stays on its way out until it is written or fails, and the party that queued
it awaits the verdict on it meanwhile. `Dispatch` lists what an action can do about that: it leaves
frames and verdicts as they are, lets a party join with or without a frame, lets one leave, writes
the frame in front, or fails some frames in front. `Dispatch.of_step` says that each action that a
connection takes does one of these things, as `Effect.of_step` says it of replies.
-/

set_option autoImplicit false

namespace CallPool.Connection

/-- The frames on their way out: the one that is being written, and those that are queued. -/
def outgoing (c : Connection) : List Outgoing :=
  match c.writer with
  | .data item _ => item :: c.queue
  | _ => c.queue

/-- A connection that is opened writes nothing yet, whether its writer can start or not. -/
theorem writer_opened (slot generation : Nat) (options : Options) (now : Nat) :
    (opened slot generation options now).writer = .idle ∨
      (opened slot generation options now).writer = .unstartable := by
  unfold opened
  split
  · exact .inl rfl
  · exact .inr rfl

/-- A connection that has just been opened has no frame on its way out. -/
@[simp] theorem outgoing_opened (slot generation : Nat) (options : Options) (now : Nat) :
    (opened slot generation options now).outgoing = [] := by
  rcases writer_opened slot generation options now with writer | writer <;>
    simp only [outgoing, writer] <;> rfl

/-- A party as far as its write goes. -/
structure Errand where
  ticket : Ticket
  purpose : Purpose
  verdict : Verdict

/-- A party as far as its write goes. -/
def Party.errand (p : Party) : Errand := ⟨p.ticket, p.purpose, p.verdict⟩

/-- The parties of a connection as far as their writes go. -/
def errands (c : Connection) : List Errand := c.parties.map Party.errand

/-- An errand that is decided, if it is one of some. -/
def Errand.judgeIf (ts : List Ticket) (verdict : Verdict) (e : Errand) : Errand :=
  if e.ticket ∈ ts then { e with verdict := verdict } else e

/-- A verdict does not change the ticket. -/
@[simp] theorem Errand.ticket_judgeIf (ts : List Ticket) (v : Verdict) (e : Errand) :
    (e.judgeIf ts v).ticket = e.ticket := by
  unfold judgeIf
  split <;> rfl

/-- A verdict does not change the purpose. -/
@[simp] theorem Errand.purpose_judgeIf (ts : List Ticket) (v : Verdict) (e : Errand) :
    (e.judgeIf ts v).purpose = e.purpose := by
  unfold judgeIf
  split <;> rfl

/-- Those whom a verdict concerns have it. -/
theorem Errand.judgeIf_of_mem {ts : List Ticket} {v : Verdict} {e : Errand} (h : e.ticket ∈ ts) :
    (e.judgeIf ts v).verdict = v := by
  simp [judgeIf, h]

/-- Those whom a verdict does not concern stay as they are. -/
theorem Errand.judgeIf_of_not_mem {ts : List Ticket} {v : Verdict} {e : Errand}
    (h : e.ticket ∉ ts) : e.judgeIf ts v = e := by
  simp [judgeIf, h]

/-! ## What changes no verdict -/

section Frame

variable (c : Connection)

/-- Giving up replies does not matter to the writes. -/
@[simp] theorem errands_abandon (ts : List Ticket) : (c.abandon ts).errands = c.errands := by
  unfold errands abandon
  rw [List.map_map]
  apply List.map_congr_left
  intro p _
  by_cases held : p.ticket ∈ ts
  · cases reply : p.reply <;> simp [held, Party.errand, Party.abandon, reply]
  · simp [held]

/-- A connection that is severed judges no write. -/
@[simp] theorem errands_sever : c.sever.errands = c.errands := errands_abandon c c.registry.tickets

/-- A response does not matter to the writes. -/
theorem errands_answer (t : Ticket) (response : Response) :
    (c.update t fun p => { p with reply := .delivered response }).errands = c.errands := by
  unfold errands update
  rw [List.map_map]
  apply List.map_congr_left
  intro p _
  by_cases mine : p.ticket = t <;> simp [Party.errand, mine]

/-- A party that joins brings its errand. -/
@[simp] theorem errands_join (purpose : Purpose) (verdict : Verdict) :
    (c.join purpose verdict).errands = c.errands ++ [⟨c.nextTicket, purpose, verdict⟩] := by
  simp [join, errands, Party.errand]

/-- A party that leaves takes its errand along. -/
theorem errands_leave (p : Party) :
    (c.leave p).errands = c.errands.filter fun e => e.ticket ≠ p.ticket := by
  have rest : (c.parties.filter fun q => q.ticket ≠ p.ticket).map Party.errand =
      c.errands.filter fun e => e.ticket ≠ p.ticket := by
    unfold errands
    rw [List.filter_map]
    rfl
  rw [← rest]
  unfold leave
  cases p.purpose.id? with
  | none => rfl
  | some id =>
    exact errands_abandon { c with parties := c.parties.filter fun q => q.ticket ≠ p.ticket } _

/-- A party that leaves takes no frame back. -/
theorem outgoing_leave (p : Party) : (c.leave p).outgoing = c.outgoing := by
  unfold leave
  cases p.purpose.id? <;> rfl

/-- A verdict on one write is given to the errand with its ticket. -/
@[simp] theorem errands_judge (t : Ticket) (v : Verdict) :
    (c.judge t v).errands = c.errands.map (Errand.judgeIf [t] v) := by
  unfold errands judge update
  rw [List.map_map, List.map_map]
  apply List.map_congr_left
  intro p _
  by_cases mine : p.ticket = t <;> simp [Party.errand, Errand.judgeIf, mine]

/-- A verdict on many writes is given to the errands with their tickets. -/
theorem errands_judgeAll (items : List Outgoing) (v : Verdict) :
    (c.judgeAll items v).errands =
      c.errands.map (Errand.judgeIf (items.map Outgoing.ticket) v) := by
  induction items generalizing c with
  | nil =>
    have unchanged : Errand.judgeIf [] v = fun e => e := by
      funext e
      simp [Errand.judgeIf]
    simp [judgeAll, unchanged]
  | cons item rest ih =>
    have first : c.judgeAll (item :: rest) v = (c.judge item.ticket v).judgeAll rest v := rfl
    rw [first, ih, errands_judge, List.map_map]
    apply List.map_congr_left
    intro e _
    by_cases mine : e.ticket = item.ticket
    · by_cases later : e.ticket ∈ rest.map Outgoing.ticket <;>
        simp_all [Errand.judgeIf]
    · by_cases later : e.ticket ∈ rest.map Outgoing.ticket <;>
        simp_all [Errand.judgeIf]

/-- The loss of a connection concerns neither its frames nor its writes. -/
theorem lose_frames : c.lose.1.errands = c.errands ∧ c.lose.1.outgoing = c.outgoing ∧
    c.lose.1.writer = c.writer ∧ ∀ item, .wrote item ∉ c.lose.2 := by
  unfold lose
  split
  · exact ⟨errands_sever c, rfl, rfl, by simp⟩
  · exact ⟨rfl, rfl, rfl, by simp⟩

/-- The end of the writer fails all frames that it leaves behind in the queue. -/
theorem endWriter_frames (fault : WriteFault) :
    (c.endWriter fault).1.errands =
      c.errands.map (Errand.judgeIf (c.queue.map Outgoing.ticket) (.failed fault)) ∧
    (c.endWriter fault).1.outgoing = [] ∧ (c.endWriter fault).1.writer = .ended ∧
    ∀ item, .wrote item ∉ (c.endWriter fault).2 := by
  have lost := lose_frames
    { c.judgeAll c.queue (.failed fault) with queue := [], writer := .ended }
  have judged := errands_judgeAll c c.queue (.failed fault)
  exact ⟨lost.1.trans judged, lost.2.1, lost.2.2.1, lost.2.2.2⟩

end Frame

/-! ## What an action does -/

/-- Some frames in front fail: one that is being written, for what the socket or the clock says of it,
or all of them, when the writer ends. -/
inductive Failing (c : Connection) (now : Nat) (c' : Connection) :
    Action → List Outgoing → WriteFault → Prop
  | broken {item : Outgoing} {began : Nat} {reason : String} (writing : c.writer = .data item began) :
      Failing c now c' (.failWrite reason) [item] (.described reason)
  | expired {item : Outgoing} {began : Nat} (writing : c.writer = .data item began)
      (due : began + c.options.writeWait.nanos ≤ now) :
      Failing c now c' .expireWrite [item] (.timedOut c.writeLimit)
  | closed {a : Action} (running : c.writer ≠ .ended) (idle : c.outgoing = c.queue)
      (ended : c'.writer = .ended) : Failing c now c' a c.outgoing .connectionClosed
  | stopped (running : c.writer ≠ .ended) (ended : c'.writer = .ended) :
      Failing c now c' .abortWriter c.outgoing .loopStopped

/-- A frame that is being written fails for what the socket or the clock says of it. -/
theorem Failing.of_spoils {c c' : Connection} {now began : Nat} {a : Action} {fault : WriteFault}
    {item : Outgoing} (writing : c.writer = .data item began) (how : Spoils c now a fault) :
    Failing c now c' a [item] fault := by
  cases how with
  | broken => exact .broken writing
  | expired since due =>
    rw [writing] at since
    obtain rfl := Option.some.inj since
    exact .expired writing due

/-- A writer that ends while it writes no frame fails all those that it leaves behind. -/
theorem Failing.of_endsWriter {c c' : Connection} {now : Nat} {a : Action} {front : List Event}
    {fault : WriteFault} (how : EndsWriter c now a front fault) (idle : c.outgoing = c.queue)
    (ended : c'.writer = .ended) : Failing c now c' a c.outgoing fault := by
  have running := how.running
  cases how with
  | parted _ => exact .closed running idle ended
  | spoiled _ _ => exact .closed running idle ended
  | forced _ _ => exact .stopped running ended

/-- What a party waits for that an action adds. -/
def Action.purpose? (a : Action) (now : Nat) : Option Purpose :=
  match a with
  | .call id _ limit => some (.call id limit now)
  | .send _ => some .send
  | .wait id => some (.wait id)
  | _ => none

/-- No frame is told to have been written just before the writer ends. -/
theorem EndsWriter.unwritten {c : Connection} {now : Nat} {a : Action} {front : List Event}
    {fault : WriteFault} (how : EndsWriter c now a front fault) (item : Outgoing) :
    .wrote item ∉ front := by
  cases how with
  | parted _ => simp
  | spoiled _ _ => simp
  | forced _ _ => simp

/-- What an action does to the frames on their way out, and to the verdicts on them. -/
inductive Dispatch (c : Connection) (now : Nat) (c' : Connection) : Action → List Event → Prop
  | rests {a : Action} {es : List Event} (errands : c'.errands = c.errands)
      (outgoing : c'.outgoing = c.outgoing) (unwritten : ∀ item, .wrote item ∉ es) :
      Dispatch c now c' a es
  /-- A party joins and queues a frame. -/
  | queues {a : Action} {es : List Event} {item : Outgoing} {purpose : Purpose}
      (mine : item.ticket = c.nextTicket) (adds : a.purpose? now = some purpose)
      (errands : c'.errands = c.errands ++ [⟨c.nextTicket, purpose, .awaited⟩])
      (outgoing : c'.outgoing = c.outgoing ++ [item]) (unwritten : ∀ item, .wrote item ∉ es) :
      Dispatch c now c' a es
  /-- A party joins without a frame: it has none, or the writer takes none any more. -/
  | joins {a : Action} {es : List Event} {purpose : Purpose} {verdict : Verdict}
      (adds : a.purpose? now = some purpose)
      (errands : c'.errands = c.errands ++ [⟨c.nextTicket, purpose, verdict⟩])
      (outgoing : c'.outgoing = c.outgoing) (unwritten : ∀ item, .wrote item ∉ es)
      (how : (∃ id, purpose = .wait id) ∧ verdict = .written ∨
        (∀ id, purpose ≠ .wait id) ∧ c.writer = .ended ∧ verdict = .failed .loopStopped) :
      Dispatch c now c' a es
  | leaves {a : Action} {es : List Event} {t : Ticket}
      (errands : c'.errands = c.errands.filter fun e => e.ticket ≠ t)
      (outgoing : c'.outgoing = c.outgoing) (unwritten : ∀ item, .wrote item ∉ es) :
      Dispatch c now c' a es
  | writes {item : Outgoing} (front : c.outgoing = item :: c'.outgoing)
      (errands : c'.errands = c.errands.map (Errand.judgeIf [item.ticket] .written)) :
      Dispatch c now c' .completeWrite [.wrote item]
  | fails {a : Action} {es : List Event} {items : List Outgoing} {fault : WriteFault}
      (failing : Failing c now c' a items fault) (front : c.outgoing = items ++ c'.outgoing)
      (errands : c'.errands =
        c.errands.map (Errand.judgeIf (items.map Outgoing.ticket) (.failed fault)))
      (unwritten : ∀ item, .wrote item ∉ es) :
      Dispatch c now c' a es

namespace Dispatch

variable {c c' : Connection} {now : Nat} {a : Action} {es : List Event}

/-- The end of the reader leaves errands and frames as they are. -/
theorem of_endReader : Dispatch c now c.endReader.1 a c.endReader.2 := by
  have lost := lose_frames { c with reader := .ended }
  exact .rests lost.1 lost.2.1 lost.2.2.2

/-- The writer ends while no frame is being written, and fails those that it leaves behind. -/
theorem of_endWriter {front : List Event} {fault : WriteFault} (how : EndsWriter c now a front fault) :
    Dispatch c now (c.endWriter fault).1 a (front ++ (c.endWriter fault).2) := by
  obtain ⟨errands, outgoing, ended, quiet⟩ := endWriter_frames c fault
  have idle : c.outgoing = c.queue := by
    unfold Connection.outgoing
    split
    · rename_i writing
      exact absurd writing (how.unwriting _ _)
    · rfl
  refine .fails (.of_endsWriter how idle ended) (by rw [outgoing, List.append_nil]) ?_ ?_
  · rw [errands, idle]
  · intro item told
    rcases List.mem_append.1 told with early | late
    · exact how.unwritten item early
    · exact quiet item late

/-- A writer that is stopped by force fails the frame that it was writing and all behind it. -/
theorem of_cutsOff {item : Outgoing} {began : Nat} (writing : c.writer = .data item began) :
    Dispatch c now ((c.judge item.ticket (.failed .loopStopped)).endWriter .loopStopped).1 .abortWriter
      ((c.judge item.ticket (.failed .loopStopped)).endWriter .loopStopped).2 := by
  have all : c.outgoing = item :: c.queue := by simp [Connection.outgoing, writing]
  obtain ⟨errands, outgoing, ended, quiet⟩ :=
    endWriter_frames (c.judge item.ticket (.failed .loopStopped)) .loopStopped
  refine .fails (.stopped (by simp [writing]) ended) (by rw [outgoing, List.append_nil]) ?_ quiet
  have together := errands_judgeAll c (item :: c.queue) (.failed .loopStopped)
  have apart := errands_judgeAll (c.judge item.ticket (.failed .loopStopped)) c.queue
    (.failed .loopStopped)
  rw [errands, all, ← together]
  exact apart.symm

/-- A party that joins queues its frame, unless the writer takes none any more. -/
theorem of_enqueue (h : Coherent c) {d : Connection} {item : Outgoing} {purpose : Purpose}
    (front : List Event) (mine : item.ticket = c.nextTicket) (adds : a.purpose? now = some purpose)
    (framed : ∀ id, purpose ≠ .wait id)
    (errands : d.errands = c.errands ++ [⟨c.nextTicket, purpose, .awaited⟩])
    (writer : d.writer = c.writer) (queue : d.queue = c.queue) (unwritten : ∀ x, .wrote x ∉ front) :
    Dispatch c now (d.enqueue item).1 a (front ++ (d.enqueue item).2) := by
  unfold enqueue
  split
  · rename_i ended
    have apart : ∀ e ∈ c.errands, e.ticket ∉ [c.nextTicket] := by
      intro e member same
      obtain ⟨p, p_member, rfl⟩ := List.mem_map.1 member
      have below := h.ticket_lt p.wait (List.mem_map_of_mem p_member)
      exact Nat.ne_of_lt below (List.mem_singleton.1 same)
    have judged : (d.judge item.ticket (.failed .loopStopped)).errands =
        c.errands ++ [⟨c.nextTicket, purpose, .failed .loopStopped⟩] := by
      rw [errands_judge, errands, mine, List.map_append]
      have kept : c.errands.map (Errand.judgeIf [c.nextTicket] (.failed .loopStopped)) = c.errands := by
        have each : ∀ e ∈ c.errands,
            Errand.judgeIf [c.nextTicket] (.failed .loopStopped) e = id e :=
          fun e member => Errand.judgeIf_of_not_mem (apart e member)
        rw [List.map_congr_left each, List.map_id]
      rw [kept]
      simp [Errand.judgeIf]
    refine .joins adds judged ?_ (by simpa using unwritten) (.inr ⟨framed, writer ▸ ended, rfl⟩)
    simp [update, outgoing, writer, queue]
  · refine .queues mine adds errands ?_ (by simpa using unwritten)
    unfold outgoing
    rw [← writer, ← queue]
    dsimp only
    split <;> simp

/-- A party that is registered brings its errand, and no frame yet. -/
theorem register?_frames {purpose : Purpose} {verdict : Verdict} {id : CorrelationId}
    {r : Connection} (entered : (c.join purpose verdict).register? id c.nextTicket = some r) :
    r.errands = c.errands ++ [⟨c.nextTicket, purpose, verdict⟩] ∧ r.writer = c.writer ∧
      r.queue = c.queue := by
  unfold register? at entered
  split at entered
  · obtain rfl := Option.some.inj entered
    refine ⟨?_, rfl, rfl⟩
    exact (errands_abandon (c.join purpose verdict) _).trans (errands_join c purpose verdict)
  · cases entered

/-- What each action that a connection takes does to frames and verdicts. -/
theorem of_step (h : Coherent c) (taken : c.step now a = some (c', es)) : Dispatch c now c' a es := by
  cases Takes.of_step taken with
  | calls entered =>
    obtain ⟨errands, writer, queue⟩ := register?_frames entered
    exact of_enqueue h [.registered c.nextTicket _] rfl rfl (by simp) errands writer queue (by simp)
  | sends _ =>
    exact of_enqueue h [] rfl rfl (by simp) (errands_join c .send .awaited) rfl rfl (by simp)
  | @waits id _ entered =>
    obtain ⟨errands, writer, queue⟩ := register?_frames entered
    refine .joins rfl errands ?_ (by simp) (.inl ⟨⟨id, rfl⟩, rfl⟩)
    simp [outgoing, writer, queue]
  | refuses _ _ => exact .rests rfl rfl (by simp)
  | turnsAway _ => exact .rests rfl rfl (by simp)
  | drops _ => exact .leaves (errands_leave c _) (outgoing_leave c _) (by simp)
  | wakes _ _ => exact .leaves (errands_leave c _) (outgoing_leave c _) (by simp)
  | hears _ => exact .rests rfl rfl (by simp)
  | delivers _ _ _ => exact .rests (errands_answer _ _ _) rfl (by simp)
  | endsReader _ => exact of_endReader
  | begins idle front => exact .rests rfl (by simp [outgoing, idle, front]) (by simp)
  | pings idle _ => exact .rests rfl (by simp [outgoing, idle]) (by simp)
  | parts idle _ => exact .rests rfl (by simp [outgoing, idle]) (by simp)
  | @writes item _ writing =>
    have front : c.outgoing = item :: c.queue := by simp [outgoing, writing]
    exact .writes front (errands_judge c item.ticket .written)
  | pinged pinging => exact .rests rfl (by simp [outgoing, pinging]) (by simp)
  | @fails _ _ item _ writing how =>
    have front : c.outgoing = item :: c.queue := by simp [outgoing, writing]
    exact .fails (.of_spoils writing how) front (errands_judge c item.ticket _) (by simp)
  | endsWriter how => exact of_endWriter how
  | cutsOff writing => exact of_cutsOff writing
  | closes => exact .rests (errands_sever c) rfl (by simp)

end Dispatch

end CallPool.Connection
