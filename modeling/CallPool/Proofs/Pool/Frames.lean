import CallPool.Proofs.Connection.Writes
import CallPool.Proofs.Pool.Relays

/-!
# The frames of a pool

A frame gets into the queue of a connection only with a call that the pool passes on to that very
connection (`Relaying.of_queued`), and a call is passed on once. So the frame of a call is handed to one
connection at most, and there the writer deals with it in order, answers for it, and forgets none.

Main statement: `each_frame_goes_out_once`.
-/

set_option autoImplicit false

namespace CallPool.Connection

/-- A frame that is queued tells that a party joins. -/
theorem tellsJoining_queued (item : Outgoing) : (Event.queued item).TellsJoining :=
  fun _ taken told => ((Flow.of_step taken).of_queued told).1

end CallPool.Connection

namespace CallPool.Pool

/-- A frame that is queued is that of a call that is passed on to its connection. -/
theorem Relaying.of_queued {p p' : Pool} {now : Nat} {a : Action} {es : List Event}
    (relaying : Relaying p now a es p') (coherent : Coherent p) {g : Nat} {item : Connection.Outgoing}
    (told : Event.connection g (.queued item) ∈ es) :
    Event.relayed p.nextTicket g item.ticket ∈ es := by
  obtain ⟨c, _, _, _, _, _, went, inside, relayed⟩ :=
    relaying.of_joining coherent (Connection.tellsJoining_queued item) told
  obtain ⟨_, mine, _⟩ := (Connection.Flow.of_step went).of_queued inside
  rw [mine]
  exact relayed

/-- What a run of a pool tells of the frames of its connections. -/
structure Framed (moments : List Moment) (now : Nat) (p : Pool) : Prop where
  /-- Each connection is orderly in what the pool tells of it. -/
  orderly : ∀ g c, p.connections[g]? = some c → ∃ slot own,
    eventsOf own = toldOf g (eventsOf moments) ∧ Connection.Orderly slot own now c
  /-- Each frame is that of a call that was passed on to its connection. -/
  passed : ∀ g item, Event.connection g (.queued item) ∈ eventsOf moments →
    ∃ t, Event.relayed t g item.ticket ∈ eventsOf moments
  /-- No call was passed on to another connection as well, or to the same one again. -/
  once : ∀ t g party g' party', Event.relayed t g party ∈ eventsOf moments →
    Event.relayed t g' party' ∈ eventsOf moments → g' = g ∧ party' = party

/-- In every run of a pool the frames of its connections are orderly. -/
theorem Framed.of_run {options : Options} {start p : Pool} {began now : Nat} {moments : List Moment}
    (made : Pool.new options = .ok start) (run : Run start began moments now p) : Framed moments now p := by
  refine ⟨?_, ?_, ?_⟩
  · intro g c found
    obtain ⟨slot, born, own, own_run, same⟩ := exists_connection_run made run found
    exact ⟨slot, own, same, .of_run own_run⟩
  · intro g item told
    obtain ⟨older, m, newer, rfl, seen⟩ := exists_moment_of_mem_eventsOf told
    obtain ⟨past, taken, _⟩ := run.at_moment
    have coherent := coherent_of_run made past
    have relayed := (Relaying.of_step coherent taken).of_queued coherent seen
    exact ⟨_, mem_eventsOf.2 ⟨m, by simp, relayed⟩⟩
  · intro t g party g' party' told told'
    have same : (⟨t, g', party'⟩ : Relay) = ⟨t, g, party⟩ :=
      (Relays.of_run made run).eq_of_ticket (mem_relayedIn.2 told') (mem_relayedIn.2 told) rfl
    obtain ⟨_, generation, mine⟩ := Relay.mk.inj same
    exact ⟨generation, mine⟩

/-- Whatever happens to a connection, in any order (calls and sends, losses, closings, writes that stall,
cancellations, a writer that is stopped by force): the frames that are handed to the socket are the first
of those that were queued, in the same order and each at most once; nobody is told that its frame was
written unless it was written as a whole; and each frame that was queued is on its way out, or was
written, or has failed for good and whoever queued it ends with that failure. When the writer has ended
nothing is on its way out, and nobody awaits a verdict. In a pool each frame is that of one call, which
is passed on to one connection, and never to another one. -/
theorem each_frame_goes_out_once :
    (∀ slot generation options began moments now c,
      Connection.Run (Connection.opened slot generation options began) began moments now c →
        Connection.Orderly slot moments now c) ∧
    ∀ options start began moments now p, Pool.new options = .ok start → Run start began moments now p →
      Framed moments now p :=
  ⟨fun _ _ _ _ _ _ _ run => .of_run run, fun _ _ _ _ _ _ made run => .of_run made run⟩

/-- Three frames are queued, of which the first is written and the second is being written when the
writer is stopped by force. -/
def stoppedWriter : List (Nat × Action) := [
  (0, .fill 0 none), (1, .dialSucceeds 1 false), (2, .send .ping), (2, .send .ping),
  (2, .call ⟨"a"⟩ .ping (Duration.ofSeconds 30)), (3, .connection 0 .beginData),
  (4, .connection 0 .completeWrite), (5, .connection 0 .beginData), (6, .connection 0 .abortWriter),
  (7, .connection 0 (.wake 0)), (7, .connection 0 (.wake 1))]

/-- The first sender is told that its frame was written; of the other two frames one was handed over
and one was not, and both have failed: the second sender has ended with that, and the call can. -/
theorem framed_of_stoppedWriter : ∃ start moments now p c slot own,
    Pool.new .default = .ok start ∧ Run start 0 moments now p ∧ Framed moments now p ∧
      p.connections[0]? = some c ∧ eventsOf own = toldOf 0 (eventsOf moments) ∧
      Connection.Orderly slot own now c ∧
      (Connection.queuedIn (eventsOf own)).map Connection.Outgoing.ticket = [0, 1, 2] ∧
      (Connection.handedIn (eventsOf own)).map Connection.Outgoing.ticket = [0, 1] ∧
      c.writer = .ended ∧ c.outgoing = [] := by
  have played : (Pool.new .default).toOption.bind (fun start =>
      (History.play step start stoppedWriter).map fun r => decide (
        (Connection.queuedIn (toldOf 0 (eventsOf r.1))).map Connection.Outgoing.ticket = [0, 1, 2] ∧
        (Connection.handedIn (toldOf 0 (eventsOf r.1))).map Connection.Outgoing.ticket = [0, 1] ∧
        (r.2.connections[0]?).map (fun c => c.writer) = some .ended)) = some true := by decide
  have ordered : History.inOrder 0 stoppedWriter = true := by decide
  obtain ⟨start, moments, p, made, run, computed⟩ := exists_run_of_script played ordered
  obtain ⟨queued, handed, stopped⟩ := of_decide_eq_true computed
  obtain ⟨c, found, ended⟩ := Option.map_eq_some_iff.1 stopped
  obtain ⟨slot, born, own, own_run, same⟩ := exists_connection_run made run found
  have orderly := each_frame_goes_out_once.1 _ _ _ _ _ _ _ own_run
  rw [← same] at queued handed
  exact ⟨start, moments, _, p, c, slot, own, made, run, each_frame_goes_out_once.2 _ _ _ _ _ _ made run,
    found, same, orderly, queued, handed, ended, (orderly.drained ended).1⟩

end CallPool.Pool
