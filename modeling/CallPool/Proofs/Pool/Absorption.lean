import CallPool.Proofs.Connection.Effect
import CallPool.Proofs.Pool.Bookkeeping

/-!
# What a pool takes in from its connections

What a connection does reaches its pool as events. The pool tells of each of them, queues the
notice of a loss for its supervisor, and ends the caller of a party that has ended. Nothing else of
the pool changes (`Absorbs`).
-/

set_option autoImplicit false

namespace CallPool.Pool

/-- What an event tells of a connection. -/
def Event.on? (g : Nat) : Event → Option Connection.Event
  | .connection generation e => if generation = g then some e else none
  | _ => none

/-- What some events tell of a connection, in order. -/
def toldOf (g : Nat) (es : List Event) : List Connection.Event := es.filterMap (Event.on? g)

/-- What is told of a connection in one list behind another is what is told in both, in order. -/
@[simp] theorem toldOf_append (g : Nat) (es es' : List Event) :
    toldOf g (es ++ es') = toldOf g es ++ toldOf g es' := by
  simp [toldOf]

/-- An event is told of a connection if the pool passes it on. -/
@[simp] theorem mem_toldOf {g : Nat} {e : Connection.Event} {es : List Event} :
    e ∈ toldOf g es ↔ Event.connection g e ∈ es := by
  unfold toldOf
  rw [List.mem_filterMap]
  constructor
  · rintro ⟨e', member, on⟩
    cases e' <;> simp only [Event.on?, reduceCtorEq, Option.ite_none_right_eq_some, Option.some.injEq] at on
    obtain ⟨rfl, rfl⟩ := on
    exact member
  · intro member
    exact ⟨_, member, by simp [Event.on?]⟩

/-- Where nothing of a connection is passed on nothing is told of it. -/
theorem toldOf_eq_nil {g : Nat} {es : List Event} (h : ∀ e, Event.connection g e ∉ es) :
    toldOf g es = [] := by
  rw [List.eq_nil_iff_forall_not_mem]
  intro e member
  exact h e (mem_toldOf.1 member)

/-- The notices that the supervisor of a pool gets from some events. -/
def noticesOf (p : Pool) (events : List Connection.Event) : List Notice :=
  if p.supervised then events.filterMap Connection.Event.notice? else []

/-- A pool takes in what a connection does. -/
structure Absorbs (p : Pool) (g : Nat) (events : List Connection.Event) (es : List Event)
    (p' : Pool) : Prop where
  /-- Only the notices and the relays change. -/
  rest : p' = { p with notices := p'.notices, relays := p'.relays }
  /-- All events are told of, and nothing of another connection. -/
  told : toldOf g es = events
  quiet : ∀ g', g' ≠ g → toldOf g' es = []
  /-- The notices go to the supervisor, if it runs. -/
  notices : p'.notices = p.notices ++ p.noticesOf events
  /-- No call is passed on, and one that is over belongs to a party that has ended. -/
  relays : ∀ r ∈ p'.relays, r ∈ p.relays
  relays_kept : ∀ r ∈ p.relays, r ∈ p'.relays ∨ ∃ q ∈ p.relays, q.ticket = r.ticket ∧
    q.generation = g ∧ ∃ outcome, Connection.Event.finished q.party outcome ∈ events
  /-- Besides, callers are told what became of their parties. -/
  only : ∀ e ∈ es, (∃ x, e = .connection g x) ∨ ∃ r ∈ p.relays, r.generation = g ∧
    ∃ outcome, Connection.Event.finished r.party outcome ∈ events ∧
      e = .finished r.ticket (outcomeOf outcome)

namespace Absorbs

variable {p p' : Pool} {g : Nat} {events : List Connection.Event} {es : List Event}

/-- What a connection tells does not change the options. -/
theorem options (h : Absorbs p g events es p') : p'.options = p.options := by rw [h.rest]

/-- What a connection tells does not change the slots. -/
theorem slots (h : Absorbs p g events es p') : p'.slots = p.slots := by rw [h.rest]

/-- What a connection tells does not change the connections. -/
theorem connections (h : Absorbs p g events es p') : p'.connections = p.connections := by rw [h.rest]

/-- What a connection tells does not stop the supervisor. -/
theorem supervised (h : Absorbs p g events es p') : p'.supervised = p.supervised := by rw [h.rest]

/-- What a connection tells takes no ticket. -/
theorem nextTicket (h : Absorbs p g events es p') : p'.nextTicket = p.nextTicket := by rw [h.rest]

/-- An event that is no notice is passed on, and changes nothing. -/
theorem of_seen {e : Connection.Event} (unnoticed : e.notice? = none) :
    Absorbs p g [e] [.connection g e] p where
  rest := rfl
  told := by simp [toldOf, Event.on?]
  quiet := by
    intro g' different
    simp [toldOf, Event.on?, Ne.symm different]
  notices := by simp [noticesOf, unnoticed]
  relays := fun _ member => member
  relays_kept := fun _ member => .inl member
  only := by simp

/-- Whatever a connection tells is taken in. -/
theorem absorb (p : Pool) (g : Nat) (e : Connection.Event) :
    Absorbs p g [e] (p.absorb g e).2 (p.absorb g e).1 := by
  have seen : Absorbs p g [e] [.connection g e] { p with notices := p.notices ++ p.noticesOf [e] } := by
    refine ⟨rfl, by simp [toldOf, Event.on?], ?_, rfl, fun _ member => member,
      fun _ member => .inl member, by simp⟩
    intro g' different
    simp [toldOf, Event.on?, Ne.symm different]
  unfold Pool.absorb
  dsimp only
  split
  · rename_i notice
    unfold noticesOf at seen
    by_cases supervised : p.supervised = true
    · rw [if_pos supervised] at seen ⊢
      exact seen
    · rw [if_neg supervised, List.append_nil] at seen
      rw [if_neg supervised]
      exact seen
  · rename_i party outcome
    split
    · rename_i r found
      have member : r ∈ p.relays := List.mem_of_find?_eq_some found
      have mine : r.generation = g ∧ r.party = party := by simpa using List.find?_some found
      obtain ⟨rfl, rfl⟩ := mine
      refine ⟨rfl, by simp [toldOf, Event.on?], ?_, by simp [noticesOf, Connection.Event.notice?], ?_, ?_, ?_⟩
      · intro g' different
        simp [toldOf, Event.on?, Ne.symm different]
      · exact fun _ kept => (List.mem_filter.1 kept).1
      · intro q there
        by_cases same : q.ticket = r.ticket
        · exact .inr ⟨r, member, same.symm, rfl, outcome, List.mem_singleton_self _⟩
        · exact .inl (List.mem_filter.2 ⟨there, by simpa using same⟩)
      · intro e told
        rcases List.mem_cons.1 told with rfl | told
        · exact .inl ⟨_, rfl⟩
        · rw [List.mem_singleton.1 told]
          exact .inr ⟨r, member, rfl, outcome, List.mem_singleton_self _, rfl⟩
    · exact of_seen rfl
  · rename_i unlost _
    refine of_seen ?_
    cases e with
    | lost notice => exact absurd rfl (unlost notice)
    | _ => rfl

/-- What is taken in at two times is taken in. -/
theorem trans {p'' : Pool} {events' : List Connection.Event} {es' : List Event}
    (first : Absorbs p g events es p') (second : Absorbs p' g events' es' p'') :
    Absorbs p g (events ++ events') (es ++ es') p'' where
  rest := by rw [second.rest, first.rest]
  told := by rw [toldOf_append, first.told, second.told]
  quiet := by
    intro g' different
    rw [toldOf_append, first.quiet g' different, second.quiet g' different, List.append_nil]
  notices := by
    rw [second.notices, first.notices, List.append_assoc]
    unfold noticesOf
    rw [first.supervised]
    cases p.supervised <;> simp
  relays := fun r member => first.relays r (second.relays r member)
  relays_kept := by
    intro r member
    rcases first.relays_kept r member with there | ⟨q, q_member, same, mine, outcome, told⟩
    · rcases second.relays_kept r there with still | ⟨q, q_member, same, mine, outcome, told⟩
      · exact .inl still
      · exact .inr ⟨q, first.relays q q_member, same, mine, outcome, List.mem_append_right _ told⟩
    · exact .inr ⟨q, q_member, same, mine, outcome, List.mem_append_left _ told⟩
  only := by
    intro e member
    rcases List.mem_append.1 member with earlier | later
    · rcases first.only e earlier with seen | ⟨r, r_member, mine, outcome, told, same⟩
      · exact .inl seen
      · exact .inr ⟨r, r_member, mine, outcome, List.mem_append_left _ told, same⟩
    · rcases second.only e later with seen | ⟨r, r_member, mine, outcome, told, same⟩
      · exact .inl seen
      · exact .inr ⟨r, first.relays r r_member, mine, outcome, List.mem_append_right _ told, same⟩

/-- All that a connection tells is taken in. -/
theorem absorbAll (p : Pool) (g : Nat) (events : List Connection.Event) :
    Absorbs p g events (p.absorbAll g events).2 (p.absorbAll g events).1 := by
  induction events generalizing p with
  | nil => exact ⟨rfl, rfl, fun _ _ => rfl, by simp [Pool.absorbAll, noticesOf], fun _ member => member,
      fun _ member => .inl member, by simp [Pool.absorbAll]⟩
  | cons e rest ih => exact (absorb p g e).trans (ih (p.absorb g e).1)

/-- Where no party ends, the pool tells of the events and of nothing else. -/
theorem eq_map (h : Absorbs p g events es p') (unfinished : ∀ t outcome, .finished t outcome ∉ events) :
    es = events.map (Event.connection g) := by
  have only : ∀ e ∈ es, ∃ x, e = Event.connection g x := by
    intro e member
    rcases h.only e member with seen | ⟨_, _, _, _, ended, _⟩
    · exact seen
    · exact absurd ended (unfinished _ _)
  rw [← h.told]
  clear h
  induction es with
  | nil => rfl
  | cons e rest ih =>
    obtain ⟨x, rfl⟩ := only e List.mem_cons_self
    have rest_eq := ih fun e member => only e (List.mem_cons_of_mem _ member)
    have told : toldOf g (Event.connection g x :: rest) = x :: toldOf g rest := by
      simp [toldOf, Event.on?]
    rw [told, List.map_cons, ← rest_eq]

end Absorbs

/-- A connection that is replaced is the new one. -/
theorem connections_setConnection {p : Pool} {g : Nat} {c c' : Connection}
    (found : p.connections[g]? = some c) : (p.setConnection g c').connections[g]? = some c' := by
  obtain ⟨inside, _⟩ := List.getElem?_eq_some_iff.1 found
  simp [setConnection, inside]

/-- When a connection is replaced the others stay. -/
theorem connections_setConnection_ne {p : Pool} {g g' : Nat} {c' : Connection} (different : g' ≠ g) :
    (p.setConnection g c').connections[g']? = p.connections[g']? := by
  simp [setConnection, List.getElem?_set_ne (Ne.symm different)]

/-- A connection takes an action, and the pool takes in what it does. -/
theorem exists_of_stepConnection {p p' : Pool} {now g : Nat} {a : Connection.Action}
    {es : List Event} (taken : p.stepConnection now g a = some (p', es)) :
    ∃ c c' events, p.connections[g]? = some c ∧ c.step now a = some (c', events) ∧
      Absorbs (p.setConnection g c') g events es p' := by
  unfold stepConnection at taken
  cases found : p.connections[g]? with
  | none => simp [found] at taken
  | some c =>
    simp only [found, Option.bind_eq_bind, Option.bind_some] at taken
    cases went : c.step now a with
    | none => simp [went] at taken
    | some r =>
      obtain ⟨c', events⟩ := r
      simp only [went, Option.bind_some, Option.some.injEq] at taken
      have absorbs := Absorbs.absorbAll (p.setConnection g c') g events
      rw [taken] at absorbs
      exact ⟨c, c', events, rfl, went, absorbs⟩

/-- The connection that a dial opens, and what it does if it is lost at once. -/
def born (p : Pool) (now : Nat) (d : Dial) (lost : Bool) : Connection × List Connection.Event :=
  if lost then (Connection.opened d.slot p.connections.length p.options now).endReader
  else (Connection.opened d.slot p.connections.length p.options now, [])

/-- A connection that is opened has nobody who could end. -/
theorem finished_not_mem_born {p : Pool} {now : Nat} {d : Dial} {lost : Bool} {t : Ticket}
    {outcome : Connection.Outcome} : Connection.Event.finished t outcome ∉ (p.born now d lost).2 := by
  unfold born Connection.endReader Connection.lose
  split
  · split <;> simp
  · simp

/-- A dial that succeeds: the pool takes in what the new connection does at once, puts the connection
into its slot if it can, and tells the owner of the dial. -/
structure Opening (p : Pool) (now : Nat) (d : Dial) (lost : Bool) (q : Pool) (es : List Event)
    (p' : Pool) : Prop where
  noticed : ∃ noticed, Absorbs { p with connections := p.connections ++ [(p.born now d lost).1] }
    p.connections.length (p.born now d lost).2 noticed q ∧
      es = [.opened d.slot p.connections.length] ++ noticed ++
        (q.install d.slot p.connections.length (q.tokenOfDial? d)).2.2 ++
        ((q.install d.slot p.connections.length (q.tokenOfDial? d)).1.conclude now d
          (q.install d.slot p.connections.length (q.tokenOfDial? d)).2.1).2
  reached : p' = ((q.install d.slot p.connections.length (q.tokenOfDial? d)).1.conclude now d
    (q.install d.slot p.connections.length (q.tokenOfDial? d)).2.1).1

/-- A dial that succeeds is under way, and opens a connection. -/
theorem Opening.of_dialSucceeds {p p' : Pool} {now : Nat} {t : Ticket} {lost : Bool}
    {es : List Event} (taken : p.dialSucceeds now t lost = some (p', es)) :
    ∃ d q, p.dials.find? (fun d => d.ticket = t) = some d ∧ Opening p now d lost q es p' := by
  unfold dialSucceeds at taken
  cases found : p.dials.find? fun d => d.ticket = t with
  | none => simp [found] at taken
  | some d =>
    simp only [found, Option.bind_eq_bind, Option.bind_some, Option.some.injEq, Prod.mk.injEq] at taken
    obtain ⟨rfl, rfl⟩ := taken
    exact ⟨d, _, rfl, ⟨_, Absorbs.absorbAll _ _ _, rfl⟩, rfl⟩

end CallPool.Pool
