import CallPool.Proofs.Pool.Housing

/-!
# A pool that has been closed

Closing a pool empties its slots and its list of reconnectors and severs its connections. What was
under way then goes on: dials succeed or fail, rounds end, connections stop, calls come back, callers
are dropped, and the pool may be closed again. None of this puts anything back. For each action of a
closed pool tells only what winds it down (`Event.windsDown`), keeps the slots, and adds no reconnector
to the list; and since a live connection is in its slot, all connections stay dead
(`close_is_final`).
-/

set_option autoImplicit false

namespace CallPool.Pool

variable {p p' : Pool} {now : Nat} {es : List Event}

/-! ## What a closed pool tells -/

/-- Whether an event tells neither that a dial begins nor that one has filled its slot. -/
def Event.windsDown : Event → Bool
  | .dialed _ => false
  | .installed _ _ => false
  | .dialEnded _ (.ok ()) => false
  | _ => true

/-- Some events tell neither that a dial begins nor that one has filled its slot. -/
def WindsDown (es : List Event) : Prop := ∀ e ∈ es, e.windsDown = true

/-- Deeds in which no dial succeeds. -/
def Scope.failing : Scope :=
  ⟨fun _ => True, fun _ result => ∃ error, result = .error error, fun _ _ => True⟩

namespace WindsDown

/-- Where nothing is told everything winds down. -/
theorem nil : WindsDown [] := fun _ member => absurd member List.not_mem_nil

/-- A single event winds down if its kind does. -/
theorem single {e : Event} (kind : e.windsDown = true) : WindsDown [e] := by
  intro e' member
  rw [List.mem_singleton.1 member]
  exact kind

/-- What winds down behind what winds down does so. -/
theorem append {es es' : List Event} (first : WindsDown es) (second : WindsDown es') :
    WindsDown (es ++ es') := by
  intro e member
  rcases List.mem_append.1 member with early | late
  · exact first e early
  · exact second e late

/-- An event that winds down may stand in front. -/
theorem cons {e : Event} (kind : e.windsDown = true) (rest : WindsDown es) : WindsDown (e :: es) :=
  (single kind).append rest

/-- The end of a reconnector winds down. -/
theorem endReconnector (p : Pool) (r : Reconnector) (filled : Bool) :
    WindsDown (p.endReconnector r filled).2 := by
  intro e member
  rcases mem_endReconnector member with rfl | rfl
  · rfl
  · rfl

/-- The deeds of a closed pool begin no dial, and if no dial succeeds then none fills a slot. -/
theorem of_deed (deed : Deed .failing now p es p') (closed : p.closed = true) : WindsDown es := by
  have unopened : p.closed ≠ false := by simp [closed]
  have ended : ∀ {d result}, Scope.failing.Ends p d result → (Event.dialEnded d result).windsDown = true := by
    rintro d result ⟨_, ⟨error, rfl⟩, _⟩
    rfl
  cases deed with
  | refuses _ => exact single rfl
  | joins isOpen _ => exact absurd isOpen unopened
  | dials isOpen _ => exact absurd isOpen unopened
  | settles _ _ => exact single rfl
  | skips => exact nil
  | starts isOpen _ => exact absurd isOpen unopened
  | answers ends _ => exact cons (ended ends) (single rfl)
  | enters ends _ => exact single (ended ends)
  | abandons ends _ _ => exact single (ended ends)
  | fails _ _ _ => exact single rfl
  | fills ends _ _ _ => exact cons (ended ends) (endReconnector _ _ _)
  | givesUp _ _ => exact cons rfl (endReconnector _ _ _)
  | stops _ _ _ => exact endReconnector _ _ _
  | redials _ _ _ isOpen => exact absurd isOpen unopened

/-- In a closed pool the books are only wound down. -/
theorem of_deeds (deeds : Deeds .failing now p es p') (closed : p.closed = true) : WindsDown es := by
  induction deeds with
  | nil => exact nil
  | cons deed _ ih => exact (of_deed deed closed).append (ih ((Bookkeeping.of_deed deed).closed.trans closed))

/-- Whoever is told by a closed pool that a dial failed begins no dial at once. -/
theorem conclude {d : Dial} (closed : p.closed = true) (member : d ∈ p.dials) (error : Error) :
    WindsDown (p.conclude now d (.error error)).2 :=
  of_deeds (.conclude ⟨member, ⟨error, rfl⟩, fun _ _ _ _ _ => trivial⟩ fun _ _ _ _ => trivial) closed

/-- What a connection tells winds down. -/
theorem of_absorbs {g : Nat} {events : List Connection.Event} (absorbs : Absorbs p g events es p') :
    WindsDown es := by
  intro e member
  rcases absorbs.only e member with ⟨_, rfl⟩ | ⟨_, _, _, _, _, rfl⟩
  · rfl
  · rfl

/-- What a connection does winds down. -/
theorem stepConnection {g : Nat} {a : Connection.Action}
    (taken : p.stepConnection now g a = some (p', es)) : WindsDown es := by
  obtain ⟨_, _, _, _, _, absorbs⟩ := exists_of_stepConnection taken
  exact of_absorbs absorbs

/-- A caller that is dropped winds down. -/
theorem of_callDropped {t : Ticket} (dropped : CallDropped now p t es p') : WindsDown es := by
  cases dropped with
  | absent _ => exact nil
  | ended _ _ _ => exact nil
  | cancelled _ _ went => exact stepConnection went

end WindsDown

/-! ## What a closed pool refuses -/

/-- Whether an action asks the pool for connections or for a connection. -/
def Action.isRequest : Action → Bool
  | .connect => true
  | .call _ _ _ => true
  | .send _ => true
  | _ => false

/-- A closed pool answers each request at once, and does not change for it. -/
theorem eq_of_request {a : Action} (closed : p.closed = true) (asks : a.isRequest = true)
    (taken : p.step now a = some (p', es)) :
    es = [.finished p.nextTicket (.error .closed)] ∧ p' = { p with nextTicket := p.nextTicket + 1 } := by
  have relays : ∀ x, p.relay now x =
      ({ p with nextTicket := p.nextTicket + 1 }, [.finished p.nextTicket (.error .closed)]) := by
    intro x
    unfold relay takeTicket
    exact if_pos closed
  cases a with
  | connect =>
    have refused : p.connect now =
        ({ p with nextTicket := p.nextTicket + 1 }, [.finished p.nextTicket (.error .closed)]) := by
      unfold connect takeTicket
      exact if_pos closed
    obtain ⟨rfl, rfl⟩ := eq_of_taken taken
    rw [refused]
    exact ⟨rfl, rfl⟩
  | call id command limit =>
    obtain ⟨rfl, rfl⟩ := eq_of_taken taken
    rw [relays]
    exact ⟨rfl, rfl⟩
  | send command =>
    obtain ⟨rfl, rfl⟩ := eq_of_taken taken
    rw [relays]
    exact ⟨rfl, rfl⟩
  | _ => cases asks

/-- A closed pool refuses a connection, and closes it. -/
theorem install_of_closed (closed : p.closed = true) (slot g : Nat) (token : Option Token) :
    p.install slot g token =
      (p.modifyConnection g Connection.discard, .error .closed, [.discarded slot g]) := by
  unfold install
  rw [if_pos closed]

/-- A dial of a closed pool that succeeds is told so, and its connection is discarded. -/
theorem Opening.of_closed {d : Dial} {lost : Bool} {q : Pool} (opening : Opening p now d lost q es p')
    (closed : p.closed = true) : ∃ noticed,
      Absorbs { p with connections := p.connections ++ [(p.born now d lost).1] } p.connections.length
        (p.born now d lost).2 noticed q ∧
      es = [.opened d.slot p.connections.length] ++ noticed ++ [.discarded d.slot p.connections.length] ++
        ((q.modifyConnection p.connections.length Connection.discard).conclude now d (.error .closed)).2 ∧
      p' = ((q.modifyConnection p.connections.length Connection.discard).conclude now d
        (.error .closed)).1 := by
  obtain ⟨⟨noticed, absorbs, told⟩, reached⟩ := opening
  have closed_q : q.closed = true := by
    rw [absorbs.rest]
    exact closed
  rw [install_of_closed closed_q] at told reached
  exact ⟨noticed, absorbs, told, reached⟩

/-- The end of a dial is told. -/
theorem mem_conclude (p : Pool) (now : Nat) (d : Dial) (result : Except Error Unit) :
    Event.dialEnded d result ∈ (p.conclude now d result).2 := by
  unfold conclude
  dsimp only
  split
  · exact List.mem_cons_self
  · exact List.mem_cons_self
  · split
    · exact List.mem_cons_self
    · exact List.mem_singleton_self _

/-- An action of a closed pool. It begins no dial, unless it is asked for one dial and nothing else; it
fills no slot; and it is refused if it asks for a connection. -/
structure Barred (m : Moment) : Prop where
  undialed : ∀ d, Event.dialed d ∈ m.events → ∃ slot token, m.action = .fill slot token
  uninstalled : ∀ slot g, Event.installed slot g ∉ m.events
  /-- No dial ends well. -/
  unfilled : ∀ d result, Event.dialEnded d result ∈ m.events → ∃ error, result = .error error
  /-- A dial that succeeds is told that the pool is closed. -/
  late : ∀ t lost, m.action = .dialSucceeds t lost →
    ∃ d ∈ m.before.dials, d.ticket = t ∧ Event.dialEnded d (.error .closed) ∈ m.events
  refused : m.action.isRequest = true →
    m.events = [.finished m.before.nextTicket (.error .closed)] ∧
      m.after = { m.before with nextTicket := m.before.nextTicket + 1 }

namespace Barred

/-- A closed pool tells only what winds it down, unless it is asked for a dial. -/
theorem windsDown {a : Action} (closed : p.closed = true) (taken : p.step now a = some (p', es))
    (other : ∀ slot token, a ≠ .fill slot token) : WindsDown es := by
  cases Takes.of_step taken with
  | connects => exact .of_deeds (.connect trivial) closed
  | dials => exact absurd rfl (other _ _)
  | joins => exact .single rfl
  | chooses => exact .nil
  | refuses _ _ => exact .single rfl
  | passes _ _ _ absorbs => exact .cons rfl (.of_absorbs absorbs)
  | closes =>
    intro e member
    rw [mem_close member]
    rfl
  | @drops t _ => exact .of_callDropped (.of_cancel p now t)
  | acts _ went => exact .stepConnection went
  | hears _ _ => exact .of_deeds (.handleLoss _ _) closed
  | wakes member waking => exact .of_deed (waking.deed member) closed
  | opens member _ opening =>
    obtain ⟨noticed, absorbs, rfl, _⟩ := opening.of_closed closed
    refine (((WindsDown.single rfl).append (.of_absorbs absorbs)).append (.single rfl)).append (.conclude ?_ ?_ _)
    · rw [modifyConnection_rest, absorbs.rest]
      exact closed
    · rw [modifyConnection_rest, absorbs.rest]
      exact member
  | fails member _ _ => exact .conclude closed member _
  | finishes _ _ => exact .single rfl

/-- Whatever a closed pool does, it fills no slot and gives no connection away. -/
theorem of_step {a : Action} (closed : p.closed = true) (taken : p.step now a = some (p', es)) :
    Barred ⟨now, a, es, p, p'⟩ := by
  have tells : (∃ slot token, a = .fill slot token) ∧ (∃ d, es = [.dialed d]) ∨ WindsDown es := by
    by_cases asked : ∃ slot token, a = .fill slot token
    · obtain ⟨slot, token, rfl⟩ := asked
      obtain ⟨rfl, rfl⟩ := eq_of_taken taken
      exact .inl ⟨⟨slot, token, rfl⟩, _, rfl⟩
    · exact .inr (windsDown closed taken fun slot token same => asked ⟨slot, token, same⟩)
  refine ⟨?_, ?_, ?_, ?_, fun asks => eq_of_request closed asks taken⟩
  · intro d told
    rcases tells with ⟨asked, _⟩ | quiet
    · exact asked
    · cases quiet _ told
  · intro slot g told
    rcases tells with ⟨_, d, rfl⟩ | quiet
    · cases List.mem_singleton.1 told
    · cases quiet _ told
  · intro d result told
    rcases tells with ⟨_, d, rfl⟩ | quiet
    · cases List.mem_singleton.1 told
    · cases result with
      | ok _ => cases quiet _ told
      | error error => exact ⟨error, rfl⟩
  · rintro t lost rfl
    obtain ⟨d, q, found, opening⟩ := Opening.of_dialSucceeds taken
    obtain ⟨_, _, rfl, _⟩ := opening.of_closed closed
    refine ⟨d, List.mem_of_find?_eq_some found, by simpa using List.find?_some found, ?_⟩
    exact List.mem_append_right _ (mem_conclude _ now d _)

end Barred

/-! ## What a closed pool holds -/

/-- A pool that holds nothing any more. -/
structure Shut (p : Pool) : Prop where
  closed : p.closed = true
  slots : ∀ held ∈ p.slots, held = none
  liveCount : p.liveCount = 0
  pendingCount : p.pendingCount = 0
  reconnectingCount : p.reconnectingCount = 0
  disconnected : p.isConnected = false
  /-- No connection lives, of all that were ever opened. -/
  dead : ∀ c ∈ p.connections, c.connected = false

/-- The slots of a pool are empty, and none of them has a reconnector. -/
structure Cleared (p : Pool) : Prop where
  closed : p.closed = true
  slots : ∀ held ∈ p.slots, held = none
  reconnecting : p.reconnecting = []

/-- A closed pool starts no reconnector of its own. -/
theorem Works.reconnecting_eq_nil (works : Works now p es p') (closed : p.closed = true)
    (none_listed : p.reconnecting = []) : p'.reconnecting = [] := by
  induction works with
  | nil => exact none_listed
  | @cons p q _ _ _ first rest ih =>
    refine ih (by rw [first.watch.closed, closed]) ?_
    have ended : ∀ (q : Pool) (r : Reconnector) (filled : Bool), q.reconnecting = [] →
        (q.endReconnector r filled).1.reconnecting = [] := by
      intro q r filled empty
      rw [List.eq_nil_iff_forall_not_mem] at empty ⊢
      exact fun e member => empty e (mem_reconnecting_endReconnector.1 member).1
    cases first with
    | aside h => rw [h.reconnecting, none_listed]
    | dials _ => exact none_listed
    | ends _ _ => exact none_listed
    | starts isOpen _ =>
      rw [closed] at isOpen
      cases isOpen
    | joins => exact none_listed
    | redials _ _ _ isOpen =>
      rw [closed] at isOpen
      cases isOpen
    | fails _ _ _ => exact none_listed
    | fills _ _ _ _ => exact ended _ _ _ none_listed
    | givesUp _ _ => exact ended _ _ _ none_listed
    | stops _ _ _ => exact ended _ _ _ none_listed

namespace Cleared

/-- A pool that is closed is cleared. -/
theorem of_close (p : Pool) (now : Nat) : Cleared (p.close now).1 := by
  obtain ⟨closed, _, slots⟩ := closed_close p now
  refine ⟨closed, ?_, ?_⟩
  · rw [slots]
    intro held member
    obtain ⟨_, _, rfl⟩ := List.mem_map.1 member
    rfl
  · rw [close_rest]

/-- Work in a cleared pool leaves it cleared. -/
theorem of_works (h : Cleared p) (works : Works now p es p') : Cleared p' := by
  refine ⟨by rw [works.watch.closed, h.closed], ?_, works.reconnecting_eq_nil h.closed h.reconnecting⟩
  rw [works.watch.slots]
  exact h.slots

/-- A dial that succeeds too late leaves nothing behind. -/
theorem of_opening {d : Dial} {lost : Bool} {q : Pool} (h : Cleared p) (member : d ∈ p.dials)
    (opening : Opening p now d lost q es p') : Cleared p' := by
  obtain ⟨_, absorbs, _, rfl⟩ := opening.of_closed h.closed
  have opens := Aside.opens absorbs
  have discarded : Cleared (q.modifyConnection p.connections.length Connection.discard) := by
    rw [modifyConnection_rest]
    refine ⟨opens.watch.closed.trans h.closed, ?_, opens.reconnecting.trans h.reconnecting⟩
    rw [show q.slots = p.slots from opens.watch.slots]
    exact h.slots
  have d_member : d ∈ (q.modifyConnection p.connections.length Connection.discard).dials := by
    rw [modifyConnection_rest, absorbs.rest]
    exact member
  exact discarded.of_works (.conclude d_member (.error .closed) nofun)

/-- An action leaves a cleared pool cleared. -/
theorem of_step {a : Action} (h : Cleared p) (taken : p.step now a = some (p', es)) : Cleared p' := by
  cases Change.of_step taken with
  | works works => exact h.of_works works
  | closes => exact of_close p now
  | @drops t _ =>
    have aside := Aside.cancel p now t
    refine ⟨aside.watch.closed.trans h.closed, ?_, aside.reconnecting.trans h.reconnecting⟩
    rw [aside.watch.slots]
    exact h.slots
  | @hears n rest _ _ =>
    have heard : Cleared { p with notices := rest } := ⟨h.closed, h.slots, h.reconnecting⟩
    exact heard.of_works (.of_handled rfl)
  | opens member opening => exact h.of_opening member opening

/-- Only who closes a pool changes whether it is closed. -/
theorem closed_of_step {a : Action} (other : a ≠ .close) (taken : p.step now a = some (p', es)) :
    p'.closed = p.closed := by
  cases Change.of_step taken with
  | works works => exact works.watch.closed
  | closes => exact absurd rfl other
  | @drops t _ => exact (Watch.cancel p now t).closed
  | @hears n rest _ _ => exact (Bookkeeping.handleLoss { p with notices := rest } now n).closed
  | opens member opening =>
    obtain ⟨⟨_, absorbs, _⟩, _⟩ := id opening
    rw [(Bookkeeping.of_deeds (opening.concludes member)).closed, install_rest, absorbs.rest]

/-- A pool that holds nothing if it is closed goes on so. -/
theorem of_closed {began : Nat} {moments : List Moment} (tidy : p.closed = true → Cleared p)
    (run : Run p began moments now p') : p'.closed = true → Cleared p' := by
  induction run with
  | start => exact tidy
  | @act _ instant q q' a _ _ taken ih =>
    intro closed
    by_cases closes : a = .close
    · subst closes
      rw [← (eq_of_taken taken).1]
      exact of_close q instant
    · rw [closed_of_step closes taken] at closed
      exact (ih closed).of_step taken
  | rest _ _ _ ih => exact ih

/-- In every run a pool that is closed is cleared. -/
theorem of_run {options : Options} {start : Pool} {began : Nat} {moments : List Moment}
    (made : Pool.new options = .ok start) (run : Run start began moments now p) (closed : p.closed = true) :
    Cleared p := by
  refine of_closed (fun shut => ?_) run closed
  rw [(Fresh.of_new made).closed] at shut
  cases shut

/-- A cleared pool holds no connection. -/
theorem held_eq_nil (h : Cleared p) : p.held = [] := by
  unfold held
  rw [List.filterMap_eq_nil_iff]
  intro held member
  rw [h.slots held member]
  rfl

/-- Empty slots hold no live connection, and there is none beside them. -/
theorem shut {past : List Event} (h : Cleared p) (housed : Housed past p) : Shut p where
  closed := h.closed
  slots := h.slots
  liveCount := by
    unfold liveCount
    rw [h.held_eq_nil]
    rfl
  pendingCount := by
    unfold pendingCount
    rw [h.held_eq_nil]
    rfl
  reconnectingCount := by
    unfold reconnectingCount
    rw [h.reconnecting]
    rfl
  disconnected := by
    unfold isConnected
    rw [h.held_eq_nil]
    rfl
  dead := by
    intro c member
    obtain ⟨g, found⟩ := List.mem_iff_getElem?.1 member
    rw [Bool.eq_false_iff]
    intro live
    cases h.slots _ (List.mem_of_getElem? ((housed.resident g c found).home live))

/-- A pool that is cleared is so at the end of every run. -/
theorem along {began : Nat} {moments : List Moment} (h : Cleared p) (run : Run p began moments now p') :
    Cleared p' :=
  run.induct h fun _ _ _ _ _ taken ih => ih.of_step taken

end Cleared

/-! ## Closing is final -/

/-- Behind the action that closes it a pool holds nothing. -/
theorem Shut.of_run {options : Options} {start : Pool} {began : Nat} {older newer : List Moment} {m : Moment}
    (made : Pool.new options = .ok start) (run : Run start began (older ++ m :: newer) now p)
    (closes : m.action = .close) : Shut p := by
  obtain ⟨_, taken, _⟩ := run.at_moment
  rw [closes] at taken
  have cleared : Cleared m.after := by
    rw [← (eq_of_taken taken).1]
    exact .of_close m.before m.instant
  exact (cleared.along run.behind).shut (.of_run made run)

/-- Whatever was under way when a pool is closed (dials of rounds and of reconnectors, calls, notices,
reconnectors that sleep) and whatever happens from then on, in any order and with any number of further
closings: in every state from that action on all slots are empty, nothing is connected, pending or
reconnecting, and no connection lives; and no later action begins a dial (one dial that is asked for by
itself is begun, and fails), lets one end well, or puts a connection into a slot, and each one that asks
for connections or for a reply fails at once because the pool is closed. -/
theorem close_is_final {options : Options} {start : Pool} {began : Nat} {older newer : List Moment}
    {m : Moment} (made : Pool.new options = .ok start) (run : Run start began (older ++ m :: newer) now p)
    (closes : m.action = .close) :
    Shut p ∧ (∀ m' ∈ m :: newer, Shut m'.after) ∧ ∀ m' ∈ newer, Barred m' := by
  refine ⟨.of_run made run closes, ?_, ?_⟩
  · intro m' member
    rcases List.mem_cons.1 member with rfl | later
    · obtain ⟨_, _, _, upto, _⟩ := run.at_moment
      exact .of_run made upto closes
    · obtain ⟨front, back, rfl⟩ := List.append_of_mem later
      rw [← List.cons_append, ← List.append_assoc] at run
      obtain ⟨_, _, _, upto, _⟩ := run.at_moment
      rw [List.append_assoc, List.cons_append] at upto
      exact .of_run made upto closes
  · intro m' member
    obtain ⟨front, back, rfl⟩ := List.append_of_mem member
    rw [← List.cons_append, ← List.append_assoc] at run
    obtain ⟨past, taken, _⟩ := run.at_moment
    exact .of_step (Shut.of_run made past closes).closed taken

/-- A pool of three slots. -/
def threeSlots : Options := { Options.default with poolSize := 3 }

/-- A pool with a call on slot 0, a lost connection in slot 1 whose notice is queued, a connection round
that dials slot 1 and a reconnector that dials slot 2. It is closed, the dial of the round succeeds, it
is closed again, and then asked for connections and for replies. -/
def closedInFlight : List (Nat × Action) := [
  (0, .connect), (1, .dialSucceeds 1 false), (1, .dialSucceeds 2 false),
  (1, .dialFails 3 (.described "refused")), (2, .call ⟨"a"⟩ .ping (Duration.ofSeconds 30)),
  (3, .connection 1 (.receive .close)), (4, .connect), (5000000001, .wakeReconnector 4),
  (5000000002, .close), (5000000003, .dialSucceeds 7 false), (5000000004, .close),
  (5000000005, .connect), (5000000006, .call ⟨"b"⟩ .ping (Duration.ofSeconds 30))]

/-- The two dials, the call, the notice and the reconnector come to nothing. -/
theorem shut_of_closedInFlight : ∃ start older m newer now p, Pool.new threeSlots = .ok start ∧
    Run start 0 (older ++ m :: newer) now p ∧ m.action = .close ∧ m.before.dials.length = 2 ∧
      m.before.notices = [⟨1, 1⟩] ∧ m.before.pendingCount = 1 ∧ m.before.reconnectingCount = 1 ∧
      p.connections.length = 3 ∧ newer.length = 4 ∧ Shut p ∧ (∀ m' ∈ m :: newer, Shut m'.after) ∧
      ∀ m' ∈ newer, Barred m' := by
  have played : (Pool.new threeSlots).toOption.bind (fun start =>
      (History.play step start closedInFlight).map fun r => decide (r.1.length = 13 ∧
        (r.1[8]?.any fun m => match m.action with | .close => true | _ => false) = true ∧
        (r.1[8]?.map fun m => (m.before.dials.length, m.before.notices, m.before.pendingCount,
          m.before.reconnectingCount)) = some (2, [⟨1, 1⟩], 1, 1) ∧
        r.2.connections.length = 3)) = some true := by decide
  have ordered : History.inOrder 0 closedInFlight = true := by decide
  obtain ⟨start, moments, p, made, run, computed⟩ := exists_run_of_script played ordered
  obtain ⟨total, at_close, held, opened⟩ := of_decide_eq_true computed
  obtain ⟨m, there, counted⟩ := Option.map_eq_some_iff.1 held
  have closes : m.action = .close := by
    rw [there] at at_close
    cases action : m.action with
    | close => rfl
    | _ => simp [action] at at_close
  obtain ⟨dials, notices, pending, reconnecting⟩ : _ ∧ _ ∧ _ ∧ _ := by
    simpa only [Prod.mk.injEq] using counted
  have behind : (moments.drop 9).length = 4 := by
    rw [List.length_drop, total]
  have cut : moments = moments.take 8 ++ m :: moments.drop 9 := cut_at there
  rw [cut] at run
  exact ⟨start, _, m, _, _, p, made, run, closes, dials, notices, pending, reconnecting, opened, behind,
    close_is_final made run closes⟩

end CallPool.Pool
