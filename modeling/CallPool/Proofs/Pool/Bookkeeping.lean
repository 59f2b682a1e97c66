import CallPool.Proofs.Pool.Deeds

/-!
# What the deeds leave alone

The deeds of a pool change its books and nothing else: no connection, no slot, no notice, and no call
that was passed on. `Bookkeeping` says so of a change, and `Bookkeeping.of_deeds` of every chain of deeds,
so that a theorem about connections and calls has to look at the other changes only. Of these some
change nothing but a connection (`modifyConnection_rest`, `force_rest`).
-/

set_option autoImplicit false

namespace CallPool.Pool

/-- Whether an event only tells of dials, rounds and reconnectors, or ends a caller without a reply. -/
def Event.isBookkeeping : Event → Bool
  | .dialed _ => true
  | .dialEnded _ _ => true
  | .recovering _ => true
  | .gaveUp _ => true
  | .recovered _ _ => true
  | .finished _ (.ok (.reply _)) => false
  | .finished _ _ => true
  | _ => false

/-- A pool changes nothing but its books, and tells of nothing else. -/
structure Bookkeeping (p : Pool) (es : List Event) (p' : Pool) : Prop where
  options : p'.options = p.options
  slots : p'.slots = p.slots
  connections : p'.connections = p.connections
  cursor : p'.cursor = p.cursor
  notices : p'.notices = p.notices
  supervised : p'.supervised = p.supervised
  closed : p'.closed = p.closed
  relays : p'.relays = p.relays
  closings : p'.closings = p.closings
  nextTicket_le : p.nextTicket ≤ p'.nextTicket
  quiet : ∀ e ∈ es, e.isBookkeeping = true

namespace Bookkeeping

variable {p p' p'' : Pool} {es es' : List Event} {now slot : Nat}

/-- Nothing changes. -/
theorem refl (p : Pool) : Bookkeeping p [] p :=
  ⟨rfl, rfl, rfl, rfl, rfl, rfl, rfl, rfl, rfl, Nat.le_refl _, by simp⟩

/-- Two changes of the books are one. -/
theorem trans (first : Bookkeeping p es p') (second : Bookkeeping p' es' p'') :
    Bookkeeping p (es ++ es') p'' where
  options := second.options.trans first.options
  slots := second.slots.trans first.slots
  connections := second.connections.trans first.connections
  cursor := second.cursor.trans first.cursor
  notices := second.notices.trans first.notices
  supervised := second.supervised.trans first.supervised
  closed := second.closed.trans first.closed
  relays := second.relays.trans first.relays
  closings := second.closings.trans first.closings
  nextTicket_le := Nat.le_trans first.nextTicket_le second.nextTicket_le
  quiet := by
    intro e member
    rcases List.mem_append.1 member with earlier | later
    · exact first.quiet e earlier
    · exact second.quiet e later

/-- Besides, one more thing may be told of the books. -/
theorem cons {e : Event} (h : Bookkeeping p es p') (kind : e.isBookkeeping = true) :
    Bookkeeping p (e :: es) p' :=
  { h with
    quiet := by
      intro e' member
      rcases List.mem_cons.1 member with rfl | member
      · exact kind
      · exact h.quiet e' member }

/-- Nothing is told of a connection. -/
theorem connection_not_mem (h : Bookkeeping p es p') (g : Nat) (e : Connection.Event) :
    Event.connection g e ∉ es := by
  intro member
  have kind := h.quiet _ member
  cases kind

/-- No call is passed on. -/
theorem relayed_not_mem (h : Bookkeeping p es p') (t : Ticket) (g : Nat) (party : Ticket) :
    Event.relayed t g party ∉ es := by
  intro member
  have kind := h.quiet _ member
  cases kind

/-- Nobody gets a reply. -/
theorem reply_not_mem (h : Bookkeeping p es p') (t : Ticket) (response : Response) :
    Event.finished t (.ok (.reply response)) ∉ es := by
  intro member
  have kind := h.quiet _ member
  cases kind

/-- Any change of the dials, rounds and reconnectors, and of the slots that have one. -/
theorem books (p : Pool) (dials : List Dial) (rounds : List Round) (reconnectors : List Reconnector)
    (reconnecting : List (Nat × Token)) (nextToken : Token) :
    Bookkeeping p [] { p with
      dials := dials
      rounds := rounds
      reconnectors := reconnectors
      reconnecting := reconnecting
      nextToken := nextToken } :=
  ⟨rfl, rfl, rfl, rfl, rfl, rfl, rfl, rfl, rfl, Nat.le_refl _, by simp⟩

/-- A ticket is given. -/
theorem takeTicket (p : Pool) : Bookkeeping p [] p.takeTicket.2 :=
  ⟨rfl, rfl, rfl, rfl, rfl, rfl, rfl, rfl, rfl, Nat.le_succ _, by simp⟩

/-- A slot is released. -/
theorem release (p : Pool) (slot : Nat) (token : Option Token) :
    Bookkeeping p [] (p.release slot token) := by
  cases token with
  | none => exact refl p
  | some token => exact books p _ _ _ _ _

/-- A dial begins. -/
theorem dial (p : Pool) (now slot : Nat) (owner : Owner) :
    Bookkeeping p (p.dial now slot owner).2 (p.dial now slot owner).1 :=
  ⟨rfl, rfl, rfl, rfl, rfl, rfl, rfl, rfl, rfl, Nat.le_succ _, by simp [Pool.dial, Event.isBookkeeping]⟩

/-- A reconnector starts. -/
theorem addReconnector (p : Pool) (now slot : Nat) (token : Token) (schedule : Backoff)
    (owned orphaned : Bool) :
    Bookkeeping p (p.addReconnector now slot token schedule owned orphaned).2
      (p.addReconnector now slot token schedule owned orphaned).1 :=
  ⟨rfl, rfl, rfl, rfl, rfl, rfl, rfl, rfl, rfl, Nat.le_succ _,
    by simp [Pool.addReconnector, Event.isBookkeeping]⟩

/-- A reconnector ends. -/
theorem endReconnector (p : Pool) (r : Reconnector) (filled : Bool) :
    Bookkeeping p (p.endReconnector r filled).2 (p.endReconnector r filled).1 := by
  have quiet : ∀ e ∈ (p.endReconnector r filled).2, e.isBookkeeping = true := by
    intro e member
    rcases mem_endReconnector member with rfl | rfl <;> rfl
  rw [endReconnector_rest] at *
  exact { books p _ _ _ _ _ with quiet := quiet }

/-- Every deed changes the books, and nothing else. -/
theorem of_deed {scope : Scope} (deed : Deed scope now p es p') : Bookkeeping p es p' := by
  have dropped : ∀ t : Ticket, Bookkeeping p [] (p.dropDial t) := fun t => books p _ _ _ _ _
  cases deed with
  | refuses _ => exact (takeTicket p).cons rfl
  | joins _ _ => exact (takeTicket p).trans (books _ _ _ _ _ _)
  | dials _ _ => exact dial p now _ _
  | settles _ _ => exact (books p _ _ _ _ _).cons rfl
  | skips => exact books p _ _ _ _ _
  | starts isOpen free =>
    rw [recover_of_free isOpen free]
    exact (books p _ _ _ _ _).trans (addReconnector _ now _ _ _ true false)
  | @answers d result t _ _ _ =>
    have kind : (Event.finished t (result.map fun _ => .done)).isBookkeeping = true := by
      cases result <;> rfl
    exact ((dropped d.ticket).cons kind).cons rfl
  | enters _ _ => exact (books p _ _ _ _ _).cons rfl
  | abandons _ _ _ => exact (dropped _).cons rfl
  | fails _ _ _ => exact (books p _ _ _ _ _).cons rfl
  | @fills d r _ _ _ _ => exact ((dropped d.ticket).trans (endReconnector _ r true)).cons rfl
  | givesUp _ _ => exact (endReconnector p _ false).cons rfl
  | stops _ _ _ => exact endReconnector p _ false
  | redials _ _ _ _ => exact (books p _ _ _ _ _).trans (dial _ now _ _)

/-- Deeds change the books, and nothing else. -/
theorem of_deeds (deeds : Deeds .any now p es p') : Bookkeeping p es p' := by
  induction deeds with
  | nil p => exact refl p
  | cons deed _ ih => exact (of_deed deed).trans ih

/-- The pool starts a reconnector for a slot. -/
theorem recover (p : Pool) (now slot : Nat) :
    Bookkeeping p (p.recover now slot).2 (p.recover now slot).1 :=
  of_deeds (.recover p slot)

/-- The pool starts reconnectors for some slots. -/
theorem recoverAll (p : Pool) (now : Nat) (slots : List Nat) :
    Bookkeeping p (p.recoverAll now slots).2 (p.recoverAll now slots).1 :=
  of_deeds (.recoverAll p slots)

/-- A round settles, if all its dials have ended. -/
theorem settleRound (p : Pool) (now : Nat) (t : Ticket) :
    Bookkeeping p (p.settleRound now t).2 (p.settleRound now t).1 :=
  of_deeds (.settleRound trivial p)

/-- The owner of a dial that is under way is told how it ended. -/
theorem conclude {d : Dial} (member : d ∈ p.dials) (now : Nat) (result : Except Error Unit) :
    Bookkeeping p (p.conclude now d result).2 (p.conclude now d result).1 :=
  of_deeds (.conclude (.any member result) fun _ _ _ _ => trivial)

/-- The supervisor has heard of a loss. -/
theorem handleLoss (p : Pool) (now : Nat) (n : Notice) :
    Bookkeeping p (p.handleLoss now n).2 (p.handleLoss now n).1 :=
  of_deeds (.handleLoss p n)

end Bookkeeping

/-! ## What changes a connection only -/

/-- A slot is live exactly if it holds a connection that is. -/
theorem isLive_iff {p : Pool} {s : Nat} : p.isLive s = true ↔
    ∃ g c, p.slots[s]? = some (some g) ∧ p.connections[g]? = some c ∧ c.connected = true := by
  unfold isLive slotConnection?
  cases p.slots[s]? with
  | none => simp
  | some held =>
    cases held with
    | none => simp
    | some g => simp [Option.any_eq_true]

/-- Modifying a connection changes nothing but the connections. -/
theorem modifyConnection_rest (p : Pool) (g : Nat) (f : Connection → Connection) :
    p.modifyConnection g f = { p with connections := (p.modifyConnection g f).connections } := by
  unfold modifyConnection
  split
  · rfl
  · rfl

/-- Stopping connections by force changes nothing but the connections. -/
theorem force_rest (p : Pool) (generations : List Nat) :
    p.force generations = { p with connections := (p.force generations).connections } := by
  unfold force
  induction generations generalizing p with
  | nil => rfl
  | cons g rest ih =>
    rw [List.foldl_cons, ih, modifyConnection_rest]

end CallPool.Pool
