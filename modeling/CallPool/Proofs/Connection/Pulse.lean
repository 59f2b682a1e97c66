import CallPool.Proofs.Connection.Notices

/-!
# What keeps a connection going

As long as nobody closes a connection or stops its tasks, its server does not end the stream and no ping
comes to nothing, an action does one of a few things to its reader and its writer: it leaves them alone,
lets the reader hear of the server, begins or ends a write, or finds that the server was silent for too
long (`Pulse`). Only the last of these ends the connection, so that a connection that goes on is alert: it
listens, and nothing has told its tasks to stop (`Alert.of_pulse`).
-/

set_option autoImplicit false

namespace CallPool.Connection

/-- Whether the reader takes a frame in. The frame that ends the stream does not count. -/
def Action.hears : Action → Bool
  | .receive .close => false
  | .receive .failure => false
  | .receive _ => true
  | _ => false

/-- Whether a ping is being written. -/
def Writer.pings : Writer → Bool
  | ping _ => true
  | _ => false

/-- Whether an action ends a live connection otherwise than by silence: it is closed or stopped by force,
its stream ends or cannot be read, or the ping that is being written comes to nothing. -/
def disturbs (c : Connection) : Action → Bool
  | .close => true
  | .abortReader => true
  | .abortWriter => true
  | .receive inbound => !(Action.receive inbound).hears
  | .failWrite _ => c.writer.pings
  | .expireWrite => c.writer.pings
  | _ => false

/-- One connection is like another as far as its tasks go. -/
structure SameTasks (c c' : Connection) : Prop where
  connected : c'.connected = c.connected
  options : c'.options = c.options
  reader : c'.reader = c.reader
  writer : c'.writer = c.writer
  nextPing : c'.nextPing = c.nextPing
  stopping : c'.stopping = c.stopping

namespace SameTasks

/-- A connection has the tasks that it has. -/
theorem refl (c : Connection) : SameTasks c c := ⟨rfl, rfl, rfl, rfl, rfl, rfl⟩

/-- What has the tasks of a connection that has those of another has those. -/
theorem trans {c c' c'' : Connection} (h : SameTasks c c') (h' : SameTasks c' c'') : SameTasks c c'' :=
  ⟨h'.connected.trans h.connected, h'.options.trans h.options, h'.reader.trans h.reader,
    h'.writer.trans h.writer, h'.nextPing.trans h.nextPing, h'.stopping.trans h.stopping⟩

/-- A party that joins leaves the tasks alone. -/
theorem join (c : Connection) (purpose : Purpose) (verdict : Verdict) :
    SameTasks c (c.join purpose verdict) :=
  ⟨rfl, rfl, rfl, rfl, rfl, rfl⟩

/-- Registering a party leaves the tasks alone. -/
theorem of_register? {c r : Connection} {purpose : Purpose} {verdict : Verdict} {id : CorrelationId}
    {t : Ticket} (entered : (c.join purpose verdict).register? id t = some r) : SameTasks c r := by
  unfold register? at entered
  split at entered
  · obtain rfl := Option.some.inj entered
    exact ⟨rfl, rfl, rfl, rfl, rfl, rfl⟩
  · cases entered

/-- Queuing a frame leaves the tasks alone. -/
theorem enqueue (c : Connection) (item : Outgoing) : SameTasks c (c.enqueue item).1 := by
  unfold Connection.enqueue
  split <;> exact ⟨rfl, rfl, rfl, rfl, rfl, rfl⟩

/-- A party that leaves leaves the tasks alone. -/
theorem leave (c : Connection) (p : Party) : SameTasks c (c.leave p) := by
  unfold Connection.leave
  cases p.purpose.id? <;> exact ⟨rfl, rfl, rfl, rfl, rfl, rfl⟩

end SameTasks

/-- A connection is live, its reader listens since an instant, and its tasks go on. -/
structure Alert (since : Nat) (c : Connection) : Prop where
  live : c.connected = true
  listening : c.reader = .listening since
  running : c.writer ≠ .ended
  staying : ∀ began, c.writer ≠ .closing began
  unstopped : c.stopping = false

/-- A connection that has just been opened is alert. -/
theorem Alert.opened (slot generation : Nat) (options : Options) (now : Nat) :
    Alert now (Connection.opened slot generation options now) := by
  rcases writer_opened slot generation options now with writer | writer
  · exact ⟨rfl, rfl, by rw [writer]; nofun, by rw [writer]; nofun, rfl⟩
  · exact ⟨rfl, rfl, by rw [writer]; nofun, by rw [writer]; nofun, rfl⟩

/-- What an action does to the tasks of a connection that nothing disturbs. -/
inductive Pulse (c : Connection) (now : Nat) (c' : Connection) : Action → List Event → Prop
  | aside {a : Action} {es : List Event} (same : SameTasks c c') (deaf : a.hears = false) :
      Pulse c now c' a es
  | hears {a : Action} {es : List Event} (heard : a.hears = true)
      (same : SameTasks { c with reader := .listening now } c') : Pulse c now c' a es
  | begins {item : Outgoing} {es : List Event} (idle : c.writer = .idle)
      (same : SameTasks { c with writer := .data item now } c') : Pulse c now c' .beginData es
  | pings (idle : c.writer = .idle) (due : c.nextPing ≤ now)
      (same : SameTasks { c with writer := .ping now, nextPing := c.pingAfter c.nextPing now } c') :
      Pulse c now c' .beginPing []
  | writes {a : Action} {es : List Event} {item : Outgoing} {began : Nat}
      (writing : c.writer = .data item began) (same : SameTasks { c with writer := .idle } c')
      (deaf : a.hears = false) : Pulse c now c' a es
  | pinged {began : Nat} (pinging : c.writer = .ping began)
      (same : SameTasks { c with writer := .idle } c') : Pulse c now c' .completeWrite [.pinged]
  | expires {since : Nat} (listening : c.reader = .listening since)
      (due : since + c.options.pongWait.nanos ≤ now) (dead : c'.connected = false)
      (ended : c'.reader = .ended) : Pulse c now c' .expireReader [.lost c.notice]

variable {c c' : Connection} {since now : Nat} {a : Action} {es : List Event}

/-- What spoils a write is no sign of life. -/
theorem Spoils.deaf {fault : WriteFault} (how : Spoils c now a fault) : a.hears = false := by
  cases how with
  | broken => rfl
  | expired _ _ => rfl

/-- What spoils a ping disturbs the connection. -/
theorem Spoils.disturbs {fault : WriteFault} {began : Nat} (how : Spoils c now a fault)
    (pinging : c.writer = .ping began) : c.disturbs a = true := by
  cases how with
  | broken => simp [Connection.disturbs, pinging, Writer.pings]
  | expired _ _ => simp [Connection.disturbs, pinging, Writer.pings]

/-- Each action that an alert connection takes, and that does not disturb it, is one of these. -/
theorem Pulse.of_step (alert : Alert since c) (undisturbed : c.disturbs a = false)
    (taken : c.step now a = some (c', es)) : Pulse c now c' a es := by
  have alive : c.connected ≠ false := by simp [alert.live]
  cases Takes.of_step taken with
  | calls entered => exact .aside ((SameTasks.of_register? entered).trans (.enqueue _ _)) rfl
  | sends _ => exact .aside ((SameTasks.join c .send .awaited).trans (.enqueue _ _)) rfl
  | waits entered => exact .aside (.of_register? entered) rfl
  | refuses dead _ => exact absurd dead alive
  | turnsAway dead => exact absurd dead alive
  | drops _ => exact .aside (.leave c _) rfl
  | wakes _ _ => exact .aside (.leave c _) rfl
  | hears _ => exact .hears (by simpa [disturbs] using undisturbed) (.refl _)
  | delivers _ _ _ =>
    exact .hears (by simpa [disturbs] using undisturbed) ⟨rfl, rfl, rfl, rfl, rfl, rfl⟩
  | endsReader how =>
    cases how with
    | hungUp gone => rcases gone with rfl | rfl <;> cases undisturbed
    | silence listening due =>
      obtain ⟨dead, ended, _⟩ := Flow.lose_rest { c with reader := .ended }
      have told : c.endReader.2 = [.lost c.notice] := by
        unfold endReader lose
        rw [if_pos alert.live]
        rfl
      rw [told]
      exact .expires listening due dead ended
    | told stopping =>
      rw [alert.unstopped] at stopping
      cases stopping
    | forced => cases undisturbed
  | begins idle _ => exact .begins idle ⟨rfl, rfl, rfl, rfl, rfl, rfl⟩
  | pings idle due => exact .pings idle due (.refl _)
  | parts _ stopping =>
    rw [alert.unstopped] at stopping
    cases stopping
  | writes writing => exact .writes writing ⟨rfl, rfl, rfl, rfl, rfl, rfl⟩ rfl
  | pinged pinging => exact .pinged pinging (.refl _)
  | fails writing how => exact .writes writing ⟨rfl, rfl, rfl, rfl, rfl, rfl⟩ how.deaf
  | endsWriter how =>
    cases how with
    | parted closing => exact absurd closing (alert.staying _)
    | spoiled busy how =>
      rcases busy with pinging | closing
      · rw [how.disturbs pinging] at undisturbed
        cases undisturbed
      · exact absurd closing (alert.staying _)
    | forced _ _ => cases undisturbed
  | cutsOff _ => cases undisturbed
  | closes => cases undisturbed

namespace Alert

/-- What leaves the tasks alone leaves a connection alert. -/
theorem congr (alert : Alert since c) (same : SameTasks c c') : Alert since c' where
  live := same.connected.trans alert.live
  listening := same.reader.trans alert.listening
  running := by rw [same.writer]; exact alert.running
  staying := by rw [same.writer]; exact alert.staying
  unstopped := same.stopping.trans alert.unstopped

/-- A sign of life leaves a connection alert, from then on. -/
theorem hear (alert : Alert since c) (now : Nat) : Alert now { c with reader := .listening now } :=
  ⟨alert.live, rfl, alert.running, alert.staying, alert.unstopped⟩

/-- A writer that goes on leaves a connection alert. -/
theorem write (alert : Alert since c) {w : Writer} {next : Nat}
    (same : SameTasks { c with writer := w, nextPing := next } c') (running : w ≠ .ended)
    (staying : ∀ began, w ≠ .closing began) : Alert since c' :=
  have during : Alert since { c with writer := w, nextPing := next } :=
    ⟨alert.live, alert.listening, running, staying, alert.unstopped⟩
  during.congr same

/-- A connection that lives on stays alert, and listens anew if it heard something. -/
theorem of_pulse (alert : Alert since c) (pulse : Pulse c now c' a es) (lives : c'.connected = true) :
    Alert (if a.hears then now else since) c' := by
  cases pulse with
  | aside same deaf =>
    rw [deaf]
    exact alert.congr same
  | hears heard same =>
    rw [heard]
    exact (alert.hear now).congr same
  | begins _ same => exact alert.write same nofun nofun
  | pings _ _ same => exact alert.write same nofun nofun
  | writes _ same deaf =>
    rw [deaf]
    exact alert.write same nofun nofun
  | pinged _ same => exact alert.write same nofun nofun
  | expires _ _ dead _ =>
    rw [dead] at lives
    cases lives

end Alert

end CallPool.Connection
