import CallPool.Proofs.Pool.Housing

/-!
# What becomes of a connection that a dial opens

A dial that succeeds opens a connection. Is that still live when it is to be installed, the pool open
and its slot not live, then the slot holds it from then on; is the slot live, then it is closed and the
dial has succeeded all the same; and otherwise it is closed and the dial has failed. `Arrival` says
this with all that matters to the owner of the dial, who is told next, and `Landing.of_dialSucceeds`
that there is nothing else. A dial that fails changes nothing before its owner is told, so that
`Ending.of_step` covers every end of a dial.
-/

set_option autoImplicit false

namespace CallPool.Pool

/-- What becomes of the connection that a dial opens, from the pool `p` to the pool `r` that is about to
tell the owner of the dial. -/
inductive Arrival (p : Pool) (d : Dial) (lost : Bool) (r : Pool) (front : List Event) :
    Except Error Unit → Prop
  | placed {c : Connection} (sound : lost = false) (isOpen : p.closed = false)
      (inside : d.slot < p.slots.length) (vacant : p.isLive d.slot = false)
      (installed : Event.installed d.slot p.connections.length ∈ front)
      (slots : r.slots = p.slots.set d.slot (some p.connections.length))
      (found : r.connections[p.connections.length]? = some c) (live : c.connected = true)
      (others : ∀ g : Nat, g < p.connections.length → p.slots[d.slot]? ≠ some (some g) →
        r.connections[g]? = p.connections[g]?) : Arrival p d lost r front (.ok ())
  | spare {c : Connection} (sound : lost = false) (isOpen : p.closed = false)
      (occupied : p.isLive d.slot = true)
      (discarded : Event.discarded d.slot p.connections.length ∈ front) (slots : r.slots = p.slots)
      (found : r.connections[p.connections.length]? = some c) (dead : c.connected = false)
      (others : ∀ g : Nat, g < p.connections.length → r.connections[g]? = p.connections[g]?) :
      Arrival p d lost r front (.ok ())
  | refused {c : Connection} {error : Error}
      (why : lost = true ∨ p.closed = true ∨ p.slots.length ≤ d.slot)
      (discarded : Event.discarded d.slot p.connections.length ∈ front) (slots : r.slots = p.slots)
      (found : r.connections[p.connections.length]? = some c) (dead : c.connected = false)
      (others : ∀ g : Nat, g < p.connections.length → r.connections[g]? = p.connections[g]?) :
      Arrival p d lost r front (.error error)

/-- Whether an event tells of a connection, or of its coming into the pool. -/
def Event.isArrival : Event → Bool
  | .opened _ _ => true
  | .installed _ _ => true
  | .discarded _ _ => true
  | .connection _ _ => true
  | _ => false

/-- A dial has opened a connection, and its owner is about to be told. -/
structure Landing (p : Pool) (d : Dial) (lost : Bool) (r : Pool) (front : List Event)
    (result : Except Error Unit) : Prop where
  opened : Event.opened d.slot p.connections.length ∈ front
  quiet : ∀ e ∈ front, e.isArrival = true
  rest : r = { p with
    connections := r.connections
    slots := r.slots
    notices := r.notices
    relays := r.relays
    reconnecting := r.reconnecting }
  /-- The token of the dial releases its slot, if the dial succeeds. -/
  released : r.reconnecting =
    if result.isOk then (p.release d.slot (p.tokenOfDial? d)).reconnecting else p.reconnecting
  arrival : Arrival p d lost r front result

section

variable {p q : Pool} {now : Nat} {d : Dial} {lost : Bool}

/-- A connection that is opened is live, unless it is lost on the way. -/
theorem connected_born (p : Pool) (now : Nat) (d : Dial) (lost : Bool) :
    (p.born now d lost).1.connected = !lost := by
  cases lost <;> rfl

/-- A connection that changes leaves the others as they are. -/
theorem connections_modifyConnection {c : Connection} {g : Nat} (found : q.connections[g]? = some c)
    (f : Connection → Connection) : (q.modifyConnection g f).connections[g]? = some (f c) ∧
      ∀ g' : Nat, g' ≠ g → (q.modifyConnection g f).connections[g']? = q.connections[g']? := by
  unfold modifyConnection
  rw [found]
  exact ⟨connections_setConnection found, fun g' other => connections_setConnection_ne other⟩

/-- A slot holds a connection that has been opened. -/
theorem lt_of_held {s g : Nat} (seated : Seated p) (held : p.slots[s]? = some (some g)) :
    g < p.connections.length := by
  obtain ⟨c, found, _⟩ := seated.seated s g held
  exact (List.getElem?_eq_some_iff.1 found).1

/-- A pool that a dial has opened a connection in. -/
structure Opened (p : Pool) (now : Nat) (d : Dial) (lost : Bool) (q : Pool) : Prop where
  closed : q.closed = p.closed
  slots : q.slots = p.slots
  connections : q.connections = p.connections ++ [(p.born now d lost).1]

namespace Opened

/-- The connection that is opened is the last one. -/
theorem newcomer (h : Opened p now d lost q) :
    q.connections[p.connections.length]? = some (p.born now d lost).1 := by
  rw [h.connections]
  simp

/-- The other connections stay as they were. -/
theorem older (h : Opened p now d lost q) {g : Nat} (below : g < p.connections.length) :
    q.connections[g]? = p.connections[g]? := by
  rw [h.connections, List.getElem?_append_left below]

/-- The connection that is opened is sound, unless it is lost on the way. -/
theorem isSound (h : Opened p now d lost q) :
    (q.connections[p.connections.length]?.any fun c => c.connected) = !lost := by
  rw [h.newcomer, Option.any_some, connected_born]

/-- A connection that is opened does not change which slots are live. -/
theorem isLive_eq (h : Opened p now d lost q) (seated : Seated p) (s : Nat) :
    q.isLive s = p.isLive s := by
  rw [Bool.eq_iff_iff, isLive_iff, isLive_iff, h.slots]
  constructor
  · rintro ⟨g, c, held, there, alive⟩
    rw [h.older (lt_of_held seated held)] at there
    exact ⟨g, c, held, there, alive⟩
  · rintro ⟨g, c, held, there, alive⟩
    rw [← h.older (lt_of_held seated held)] at there
    exact ⟨g, c, held, there, alive⟩

/-- The connection that is opened can be discarded, which leaves the others as they are. -/
theorem discard (h : Opened p now d lost q) :
    (q.modifyConnection p.connections.length Connection.discard).slots = p.slots ∧
      (q.modifyConnection p.connections.length Connection.discard).connections[p.connections.length]? =
        some (p.born now d lost).1.discard ∧
      ∀ g : Nat, g < p.connections.length →
        (q.modifyConnection p.connections.length Connection.discard).connections[g]? =
          p.connections[g]? := by
  obtain ⟨gone, stays⟩ := connections_modifyConnection h.newcomer Connection.discard
  refine ⟨?_, gone, fun g below => ?_⟩
  · rw [modifyConnection_rest]
    exact h.slots
  · rw [stays g (Nat.ne_of_lt below), h.older below]

/-- When the slot of the dial is vacated, no other connection changes. -/
theorem vacate (h : Opened p now d lost q) (seated : Seated p) {u : Pool}
    (vacates : u = q ∨ ∃ old, q.slots[d.slot]? = some (some old) ∧
      u = q.modifyConnection old Connection.sever) :
    u.connections[p.connections.length]? = some (p.born now d lost).1 ∧
      ∀ g : Nat, g < p.connections.length → p.slots[d.slot]? ≠ some (some g) →
        u.connections[g]? = p.connections[g]? := by
  rcases vacates with rfl | ⟨old, held, rfl⟩
  · exact ⟨h.newcomer, fun g below _ => h.older below⟩
  · rw [h.slots] at held
    have below := lt_of_held seated held
    obtain ⟨c, found, _⟩ := seated.seated _ old held
    obtain ⟨_, apart⟩ := connections_modifyConnection ((h.older below).trans found) Connection.sever
    refine ⟨(apart _ (Nat.ne_of_gt below)).trans h.newcomer, fun g g_below other => ?_⟩
    rw [apart g fun same => other (same ▸ held)]
    exact h.older g_below

end Opened

/-- What becomes of a connection, once it has been opened, is known from its installation. -/
theorem Arrival.of_installation {r : Pool} {placed : List Event} {token : Option Token}
    {result : Except Error Unit} (front : List Event) (seated : Seated p) (opened : Opened p now d lost q)
    (installation : Installation q d.slot p.connections.length token r result placed) :
    Arrival p d lost r (front ++ placed) result := by
  obtain ⟨without_slots, gone, without_others⟩ := opened.discard
  have dead := Connection.connected_discard (p.born now d lost).1
  have told : ∀ e : Event, e ∈ front ++ [e] := fun e => by simp
  have faultless : (q.connections[p.connections.length]?.any fun c => c.connected) = true →
      lost = false := by
    rw [opened.isSound]
    simp
  cases installation with
  | refused why =>
    refine .refused ?_ (told _) without_slots gone dead without_others
    rcases why with shut | unsound | outside
    · exact .inr (.inl (opened.closed ▸ shut))
    · rw [opened.isSound] at unsound
      exact .inl (by simpa using unsound)
    · exact .inr (.inr (opened.slots ▸ outside))
  | served isOpen sound live =>
    rw [opened.isLive_eq seated] at live
    rw [release_rest]
    exact .spare (faultless sound) (opened.closed ▸ isOpen) live (told _) without_slots gone dead
      without_others
  | @placed u isOpen sound inside vacant vacates =>
    rw [opened.isLive_eq seated] at vacant
    obtain ⟨newcomer, others⟩ := opened.vacate seated vacates
    have alive : (p.born now d lost).1.connected = true := by
      rw [connected_born, faultless sound]
      rfl
    exact .placed (faultless sound) (opened.closed ▸ isOpen) (opened.slots ▸ inside) vacant (told _)
      (congrArg (List.set · _ _) opened.slots) newcomer alive others

/-- A dial that succeeds has landed when its owner is about to be told. -/
theorem Landing.of_opening {p' q : Pool} {es : List Event} (seated : Seated p)
    (opening : Opening p now d lost q es p') :
    ∃ r front result, Landing p d lost r front result ∧ p' = (r.conclude now d result).1 ∧
      es = front ++ (r.conclude now d result).2 := by
  obtain ⟨⟨noticed, absorbs, rfl⟩, rfl⟩ := opening
  have token : q.tokenOfDial? d = p.tokenOfDial? d := by
    rw [absorbs.rest]
    rfl
  have installation := Installation.of_install q d.slot p.connections.length (q.tokenOfDial? d)
  have opened : Opened p now d lost q := ⟨by rw [absorbs.rest], absorbs.slots, absorbs.connections⟩
  have arrival := Arrival.of_installation ([.opened d.slot p.connections.length] ++ noticed) seated opened
    installation
  refine ⟨_, _, _, ⟨?_, ?_, ?_, ?_, arrival⟩, rfl, rfl⟩
  · simp
  · intro e member
    rw [List.mem_append, List.mem_append] at member
    rcases member with (opened | noticed) | placed
    · rw [List.mem_singleton.1 opened]
      rfl
    · rcases absorbs.only e noticed with ⟨x, rfl⟩ | ⟨_, _, _, _, finished, _⟩
      · rfl
      · exact absurd finished finished_not_mem_born
    · rcases mem_install placed with rfl | rfl
      · rfl
      · rfl
  · rw [install_rest, absorbs.rest]
  · have released : ∀ x : Pool, x.reconnecting = p.reconnecting → (x.release d.slot
        (q.tokenOfDial? d)).reconnecting = (p.release d.slot (p.tokenOfDial? d)).reconnecting := by
      intro x same
      rw [token]
      cases p.tokenOfDial? d with
      | none => exact same
      | some t => exact congrArg (List.filter _) same
    have same : q.reconnecting = p.reconnecting := by rw [absorbs.rest]
    have without : (q.modifyConnection p.connections.length Connection.discard).reconnecting =
        p.reconnecting := by
      rw [modifyConnection_rest]
      exact same
    generalize q.install d.slot p.connections.length (q.tokenOfDial? d) = installed at installation ⊢
    obtain ⟨r, result, placed⟩ := installed
    cases installation with
    | refused => exact without
    | served _ _ _ => exact released _ without
    | placed => exact released q same

/-! ## The end of a dial -/

/-- A dial has ended, and its owner is about to be told. -/
inductive Ending (p : Pool) (d : Dial) : Action → Pool → List Event → Except Error Unit → Prop
  | lands {lost : Bool} {r : Pool} {front : List Event} {result : Except Error Unit}
      (landing : Landing p d lost r front result) :
      Ending p d (.dialSucceeds d.ticket lost) r front result
  | fails {a : Action} {error : Error} (ends : a.ends? = some d.ticket)
      (other : ∀ t lost, a ≠ .dialSucceeds t lost) : Ending p d a p [] (.error error)

namespace Ending

variable {r : Pool} {a : Action} {front : List Event} {result : Except Error Unit}

/-- An action that ends a dial tells its owner, and does nothing else to the books. -/
theorem of_step {p' : Pool} {t : Ticket} {es : List Event} (seated : Seated p) (ends : a.ends? = some t)
    (taken : p.step now a = some (p', es)) : ∃ d r front result,
      d ∈ p.dials ∧ d.ticket = t ∧ Ending p d a r front result ∧
        p' = (r.conclude now d result).1 ∧ es = front ++ (r.conclude now d result).2 := by
  cases Takes.of_step taken with
  | @opens d lost _ _ _ member _ opening =>
    obtain rfl := Option.some.inj ends
    obtain ⟨r, front, result, landing, same, told⟩ := Landing.of_opening seated opening
    exact ⟨d, r, front, result, member, rfl, .lands landing, same, told⟩
  | @fails _ d _ member own other =>
    obtain rfl := Option.some.inj (own.symm.trans ends)
    exact ⟨d, p, [], _, member, rfl, .fails own other, rfl, rfl⟩
  | refuses asks _ => exact absurd (ends.symm.trans (ends?_of_passed asks)) nofun
  | passes asks _ _ _ => exact absurd (ends.symm.trans (ends?_of_passed asks)) nofun
  | _ => cases ends

/-- Before the owner is told, an ending changes connections, slots, notices, relays and entries only. -/
theorem rest (h : Ending p d a r front result) : r = { p with
    connections := r.connections
    slots := r.slots
    notices := r.notices
    relays := r.relays
    reconnecting := r.reconnecting } := by
  cases h with
  | lands landing => exact landing.rest
  | fails _ _ => rfl

/-- Before the owner is told, an ending tells of connections only. -/
theorem quiet (h : Ending p d a r front result) : ∀ e ∈ front, e.isArrival = true := by
  cases h with
  | lands landing => exact landing.quiet
  | fails _ _ => exact List.forall_mem_nil _

/-- In an open pool, a dial for one of its slots succeeds exactly if it opens a connection that is not
lost on the way. -/
theorem isOk_iff (h : Ending p d a r front result) (isOpen : p.closed = false)
    (inside : d.slot < p.slots.length) :
    result.isOk = true ↔ a = .dialSucceeds d.ticket false := by
  cases h with
  | fails _ other => exact ⟨nofun, fun same => absurd same (other _ _)⟩
  | lands landing =>
    cases landing.arrival with
    | placed sound _ _ _ _ _ _ _ _ => exact ⟨fun _ => by rw [sound], fun _ => rfl⟩
    | spare sound _ _ _ _ _ _ _ => exact ⟨fun _ => by rw [sound], fun _ => rfl⟩
    | refused why _ _ _ _ _ =>
      refine ⟨nofun, fun same => ?_⟩
      obtain ⟨_, rfl⟩ := Action.dialSucceeds.inj same
      rcases why with lost | closed | outside
      · cases lost
      · rw [isOpen] at closed
        cases closed
      · exact absurd outside (Nat.not_le_of_lt inside)

end Ending

end

end CallPool.Pool
