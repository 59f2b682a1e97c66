import CallPool.Proofs.Pool.Projection

/-!
# What leaves dials and reconnectors alone

Much of what a pool does concerns neither its dials nor its reconnectors: its connections act, calls
are passed on, callers end. `Aside` says so of a change, and says with `Watch` that the pool is
watched over as before: the slots hold what they held, and no notice gets lost.
-/

set_option autoImplicit false

namespace CallPool.Pool

/-- Whether an event tells nothing of a dial or a reconnector. -/
def Event.isAside : Event → Bool
  | .dialed _ => false
  | .dialEnded _ _ => false
  | .recovering _ => false
  | .gaveUp _ => false
  | .recovered _ _ => false
  | _ => true

/-- A change after which a pool is watched over as before: no notice is lost, and the supervisor gets
those of all losses and no others. -/
structure Watch (p : Pool) (es : List Event) (p' : Pool) : Prop where
  slots : p'.slots = p.slots
  supervised : p'.supervised = p.supervised
  closed : p'.closed = p.closed
  kept : ∀ n ∈ p.notices, n ∈ p'.notices
  heard : ∀ g n, Event.connection g (.lost n) ∈ es → p.supervised = true → n ∈ p'.notices
  queued : ∀ n ∈ p'.notices, n ∈ p.notices ∨ ∃ g, Event.connection g (.lost n) ∈ es

namespace Watch

variable {p p' p'' : Pool} {es es' : List Event}

/-- A pool is watched over as before if its slots, supervisor, flag and notices stay, and no connection
tells anything. -/
theorem of_same (slots : p'.slots = p.slots) (supervised : p'.supervised = p.supervised)
    (closed : p'.closed = p.closed) (notices : p'.notices = p.notices)
    (quiet : ∀ g e, Event.connection g e ∉ es) : Watch p es p' := by
  refine ⟨slots, supervised, closed, ?_, fun g n told => absurd told (quiet g _), ?_⟩
  · rw [notices]
    exact fun _ member => member
  · rw [notices]
    exact fun _ member => .inl member

/-- A change of the books leaves a pool watched over as before. -/
theorem of_books (books : Bookkeeping p es p') : Watch p es p' :=
  of_same books.slots books.supervised books.closed books.notices books.connection_not_mem

/-- A pool that is watched over as before after two changes is so after both. -/
theorem trans (first : Watch p es p') (second : Watch p' es' p'') : Watch p (es ++ es') p'' := by
  refine ⟨second.slots.trans first.slots, second.supervised.trans first.supervised,
    second.closed.trans first.closed, fun n member => second.kept n (first.kept n member), ?_, ?_⟩
  · intro g n told supervised
    rcases List.mem_append.1 told with early | late
    · exact second.kept n (first.heard g n early supervised)
    · exact second.heard g n late (by rw [first.supervised]; exact supervised)
  · intro n member
    rcases second.queued n member with there | ⟨g, told⟩
    · rcases first.queued n there with older | ⟨g, told⟩
      · exact .inl older
      · exact .inr ⟨g, List.mem_append_left _ told⟩
    · exact .inr ⟨g, List.mem_append_right _ told⟩

/-- What a connection tells leaves a pool watched over, for its notice is queued. -/
theorem of_absorbs {g : Nat} {events : List Connection.Event} (h : Absorbs p g events es p') :
    Watch p es p' := by
  refine ⟨h.slots, h.supervised, by rw [h.rest], ?_, ?_, ?_⟩
  · intro n member
    rw [h.notices]
    exact List.mem_append_left _ member
  · intro g' n told supervised
    rw [h.notices]
    have there := mem_toldOf.2 told
    by_cases same : g' = g
    · rw [same, h.told] at there
      apply List.mem_append_right
      unfold noticesOf
      rw [if_pos supervised]
      exact List.mem_filterMap.2 ⟨_, there, rfl⟩
    · rw [h.quiet g' same] at there
      cases there
  · intro n member
    rw [h.notices] at member
    rcases List.mem_append.1 member with older | newest
    · exact .inl older
    · unfold noticesOf at newest
      split at newest
      · obtain ⟨e, listed, notice⟩ := List.mem_filterMap.1 newest
        have lost : e = .lost n := by
          cases e with
          | lost n' => rw [Option.some.inj notice]
          | _ => cases notice
        rw [← h.told, lost] at listed
        exact .inr ⟨g, mem_toldOf.1 listed⟩
      · cases newest

end Watch

/-- A change of something else: it concerns neither dials nor reconnectors, nor what is in the slots,
and the supervisor gets the notices that there are. -/
structure Aside (p : Pool) (es : List Event) (p' : Pool) : Prop where
  rest : p' = { p with
    connections := p'.connections
    cursor := p'.cursor
    nextToken := p'.nextToken
    notices := p'.notices
    rounds := p'.rounds
    relays := p'.relays
    closings := p'.closings
    nextTicket := p'.nextTicket }
  nextTicket_le : p.nextTicket ≤ p'.nextTicket
  nextToken_le : p.nextToken ≤ p'.nextToken
  quiet : ∀ e ∈ es, e.isAside = true
  watch : Watch p es p'

namespace Aside

variable {now : Nat} {p p' p'' : Pool} {es es' : List Event}

/-- What is aside leaves the dials alone. -/
theorem dials (h : Aside p es p') : p'.dials = p.dials := by rw [h.rest]

/-- What is aside leaves the reconnectors alone. -/
theorem reconnectors (h : Aside p es p') : p'.reconnectors = p.reconnectors := by rw [h.rest]

/-- What is aside leaves the entries alone. -/
theorem reconnecting (h : Aside p es p') : p'.reconnecting = p.reconnecting := by rw [h.rest]

/-- What is aside leaves the options alone. -/
theorem options (h : Aside p es p') : p'.options = p.options := by rw [h.rest]

/-- Where nothing is told of connections, the notices may stay as they are. -/
theorem of_rest (rest : p' = { p with
      connections := p'.connections
      cursor := p'.cursor
      rounds := p'.rounds
      relays := p'.relays
      closings := p'.closings
      nextTicket := p'.nextTicket }) (nextTicket_le : p.nextTicket ≤ p'.nextTicket)
    (quiet : ∀ e ∈ es, e.isAside = true) (untold : ∀ g e, Event.connection g e ∉ es) :
    Aside p es p' := by
  have notices : p'.notices = p.notices := by rw [rest]
  have nextToken : p'.nextToken = p.nextToken := by rw [rest]
  refine ⟨?_, nextTicket_le, Nat.le_of_eq nextToken.symm, quiet, .of_same ?_ ?_ ?_ notices untold⟩
  · rw [notices, nextToken]
    exact rest
  · rw [rest]
  · rw [rest]
  · rw [rest]

/-- A change of which nothing is told is aside if dials, reconnectors and notices stay. -/
theorem of_silent (rest : p' = { p with
      connections := p'.connections
      cursor := p'.cursor
      rounds := p'.rounds
      relays := p'.relays
      closings := p'.closings }) : Aside p [] p' := by
  have nextTicket : p'.nextTicket = p.nextTicket := by rw [rest]
  apply of_rest _ (Nat.le_of_eq nextTicket.symm) (by simp) (by simp)
  rw [nextTicket]
  exact rest

/-- What is aside twice is aside. -/
theorem trans (first : Aside p es p') (second : Aside p' es' p'') : Aside p (es ++ es') p'' := by
  refine ⟨?_, Nat.le_trans first.nextTicket_le second.nextTicket_le,
    Nat.le_trans first.nextToken_le second.nextToken_le, ?_, first.watch.trans second.watch⟩
  · have rest := second.rest
    rw [first.rest] at rest
    exact rest
  · intro e member
    rcases List.mem_append.1 member with early | late
    · exact first.quiet e early
    · exact second.quiet e late

/-- The end of a caller is aside. -/
theorem finished (p : Pool) (t : Ticket) (outcome : Outcome) : Aside p [.finished t outcome] p :=
  of_rest rfl (Nat.le_refl _) (by simp [Event.isAside]) (by simp)

/-- Taking a ticket is aside. -/
theorem takeTicket (p : Pool) : Aside p [] p.takeTicket.2 :=
  of_rest rfl (Nat.le_succ _) (by simp) (by simp)

/-- Taking a token is aside. -/
theorem takeToken (p : Pool) : Aside p [] { p with nextToken := p.nextToken + 1 } :=
  ⟨rfl, Nat.le_refl _, Nat.le_succ _, by simp, .of_same rfl rfl rfl rfl (by simp)⟩

/-- Replacing a connection is aside. -/
theorem setConnection (p : Pool) (g : Nat) (c : Connection) : Aside p [] (p.setConnection g c) :=
  of_silent rfl

/-- Stopping connections by force is aside. -/
theorem force (p : Pool) (generations : List Nat) : Aside p [] (p.force generations) := by
  rw [force_rest]
  exact of_silent rfl

/-- What a connection tells is aside. -/
theorem of_absorbs {g : Nat} {events : List Connection.Event} (h : Absorbs p g events es p') :
    Aside p es p' := by
  have rest := h.rest
  refine ⟨?_, Nat.le_of_eq h.nextTicket.symm, Nat.le_of_eq (by rw [rest]), ?_, .of_absorbs h⟩
  · rw [rest]
  · intro e member
    rcases h.only e member with ⟨x, rfl⟩ | ⟨_, _, _, _, _, rfl⟩
    · rfl
    · rfl

/-- What a connection does is aside. -/
theorem stepConnection {g : Nat} {a : Connection.Action}
    (taken : p.stepConnection now g a = some (p', es)) : Aside p es p' := by
  obtain ⟨_, c', _, _, _, absorbs⟩ := exists_of_stepConnection taken
  exact (setConnection p g c').trans (of_absorbs absorbs)

/-- A command is passed on to a connection. -/
theorem passes {g : Nat} {c c' : Connection} {events : List Connection.Event}
    (absorbs : Absorbs ((p.passing g c).setConnection g c') g events es p') :
    Aside p (.relayed p.nextTicket g c.nextTicket :: es) p' := by
  have noted : Aside p [.relayed p.nextTicket g c.nextTicket] ((p.passing g c).setConnection g c') :=
    of_rest rfl (Nat.le_succ _) (by simp [Event.isAside]) (by simp)
  exact noted.trans (of_absorbs absorbs)

/-- A command is refused. -/
theorem refuses (p : Pool) (outcome : Outcome) :
    Aside p [.finished p.nextTicket outcome] p.takeTicket.2 :=
  (takeTicket p).trans (finished _ _ _)

/-- The connections that a caller waits for have ended, or are stopped by force. -/
theorem finishes {g : Closing} {q : Pool} (stopped : q = p ∨ q = p.force g.generations) :
    Aside p [.finished g.ticket (.ok .done)]
      { q with closings := q.closings.filter fun q => q.ticket ≠ g.ticket } := by
  have forgot : Aside q [.finished g.ticket (.ok .done)]
      { q with closings := q.closings.filter fun q => q.ticket ≠ g.ticket } :=
    of_rest rfl (Nat.le_refl _) (by simp [Event.isAside]) (by simp)
  rcases stopped with rfl | rfl
  · exact forgot
  · exact (force p g.generations).trans forgot

/-- The call of a caller is dropped. -/
theorem of_callDropped {t : Ticket} (dropped : CallDropped now p t es p') : Aside p es p' := by
  have forgot : Aside p [] (p.forgetCall t) := of_silent rfl
  cases dropped with
  | absent _ => exact of_silent rfl
  | ended _ _ _ => exact forgot
  | cancelled _ _ went => exact forgot.trans (stepConnection went)

/-- A caller is dropped with its shutdown and its call. -/
theorem cancel (p : Pool) (now : Nat) (t : Ticket) :
    Aside (p.dropWork t) (p.cancel now t).2 (p.cancel now t).1 := by
  have closing : Aside (p.dropWork t) [] ((p.dropWork t).dropClosing t) := by
    rw [dropClosing_rest]
    exact of_silent rfl
  exact closing.trans (of_callDropped (.of_cancel p now t))

/-- A dial opens a connection, and the pool takes in what that does at once. -/
theorem opens {d : Dial} {lost : Bool} {noticed : List Event}
    (absorbs : Absorbs { p with connections := p.connections ++ [(p.born now d lost).1] }
      p.connections.length (p.born now d lost).2 noticed p') :
    Aside p ([.opened d.slot p.connections.length] ++ noticed) p' := by
  have opened : Aside p [.opened d.slot p.connections.length]
      { p with connections := p.connections ++ [(p.born now d lost).1] } :=
    of_rest rfl (Nat.le_refl _) (by simp [Event.isAside]) (by simp)
  exact opened.trans (of_absorbs absorbs)

end Aside

end CallPool.Pool
