import CallPool.Proofs.Connection.Silence
import CallPool.Proofs.Pool.Taking

/-!
# The runs of the connections in the run of a pool

Seen from one of its connections, a run of a pool is a run of that connection: what the pool tells
of the connection is what the connection tells (`Follows.of_run`). Whatever holds of all runs of a
connection thus holds of each connection of a pool, whatever the pool and the other connections do
meanwhile. In one action a pool does to a connection what it was asked to do, or closes it, stops
its tasks, or drops a party (`Follows.of_step`).
-/

set_option autoImplicit false

namespace CallPool.Pool

/-! ## What becomes of a connection -/

/-- What becomes of the connection with a generation from one instant to another, and what is told
of it. -/
inductive Course (options : Options) (g : Nat) (may : Connection.Action → Prop) (began now : Nat) :
    Option Connection → List Connection.Event → Option Connection → Prop
  /-- There still is none. -/
  | absent : Course options g may began now none [] none
  | opens {slot born : Nat} {moments : List Connection.Moment} {c : Connection}
      (run : Connection.Run (Connection.opened slot g options born) born moments now c)
      (allowed : ∀ m ∈ moments, may m.action) :
      Course options g may began now none (eventsOf moments) (some c)
  | goesOn {c c' : Connection} {moments : List Connection.Moment}
      (run : Connection.Run c began moments now c') (allowed : ∀ m ∈ moments, may m.action) :
      Course options g may began now (some c) (eventsOf moments) (some c')

namespace Course

variable {options : Options} {g began middle now : Nat} {may may' : Connection.Action → Prop}
  {x y z : Option Connection} {es es' : List Connection.Event}

/-- Nothing becomes of a connection at one instant. -/
theorem refl (now : Nat) (x : Option Connection) : Course options g may now now x [] x := by
  cases x with
  | none => exact .absent
  | some c => exact .goesOn .start (by simp)

/-- What becomes of a connection in two stretches becomes of it in both together. -/
theorem trans (first : Course options g may began middle x es y)
    (second : Course options g may middle now y es' z) :
    Course options g may began now x (es ++ es') z := by
  cases first with
  | absent =>
    cases second with
    | absent => exact .absent
    | opens run allowed => exact .opens run allowed
  | opens run allowed =>
    cases second with
    | goesOn run' allowed' =>
      rw [← eventsOf_append]
      refine .opens (run.append run') fun m member => ?_
      exact (List.mem_append.1 member).elim (allowed m) (allowed' m)
  | goesOn run allowed =>
    cases second with
    | goesOn run' allowed' =>
      rw [← eventsOf_append]
      refine .goesOn (run.append run') fun m member => ?_
      exact (List.mem_append.1 member).elim (allowed m) (allowed' m)

/-- What a connection may do is no less if it may do more. -/
theorem mono (looser : ∀ a, may a → may' a) (h : Course options g may began now x es y) :
    Course options g may' began now x es y := by
  cases h with
  | absent => exact .absent
  | opens run allowed => exact .opens run fun m member => looser _ (allowed m member)
  | goesOn run allowed => exact .goesOn run fun m member => looser _ (allowed m member)

/-- A connection to which nothing happens is as it was. -/
theorem idle (x : Option Connection) (forward : now < middle) :
    Course options g may now middle x [] x := by
  cases x with
  | none => exact .absent
  | some c => exact .goesOn (.rest .start forward trivial) (by simp)

/-- What a connection does silently becomes of it. -/
theorem of_silently {c c' : Connection} (h : Connection.Silently now c c')
    (allowed : ∀ a : Connection.Action, a.IsSelfMade → may a) :
    Course options g may now now (some c) [] (some c') := by
  obtain ⟨moments, run, quiet, own⟩ := h
  rw [← quiet]
  exact .goesOn run fun m member => allowed _ (own m member)

end Course

/-- What becomes of all connections of a pool, and what is told of them. -/
structure Follows (may : Nat → Connection.Action → Prop) (p : Pool) (began : Nat) (es : List Event)
    (now : Nat) (p' : Pool) : Prop where
  options : p'.options = p.options
  course : ∀ g, Course p.options g (may g) began now p.connections[g]? (toldOf g es) p'.connections[g]?

namespace Follows

variable {may may' : Nat → Connection.Action → Prop} {p p' p'' : Pool} {began middle now g : Nat}
  {es es' : List Event}

/-- A change that leaves connections and options, and tells of none, is followed. -/
theorem of_same (options : p'.options = p.options) (connections : p'.connections = p.connections)
    (quiet : ∀ g e, Event.connection g e ∉ es) : Follows may p now es now p' where
  options := options
  course := by
    intro g
    rw [connections, toldOf_eq_nil (quiet g)]
    exact Course.refl now _

/-- A change of the books is followed. -/
theorem of_books (h : Bookkeeping p es p') : Follows may p now es now p' :=
  of_same h.options h.connections h.connection_not_mem

/-- What is followed in two stretches is followed in both together. -/
theorem trans (first : Follows may p began es middle p') (second : Follows may p' middle es' now p'') :
    Follows may p began (es ++ es') now p'' where
  options := second.options.trans first.options
  course := by
    intro g
    rw [toldOf_append]
    have later := second.course g
    rw [first.options] at later
    exact (first.course g).trans later

/-- What the connections may do is no less if they may do more. -/
theorem mono (looser : ∀ g a, may g a → may' g a) (h : Follows may p began es now p') :
    Follows may' p began es now p' :=
  ⟨h.options, fun g => (h.course g).mono (looser g)⟩

/-- A pool to which nothing happens is followed. -/
theorem idle (p : Pool) (forward : now < middle) : Follows may p now [] middle p :=
  ⟨rfl, fun _ => Course.idle _ forward⟩

/-- A connection that is replaced by what has become of it is followed. -/
theorem setConnection {c c' : Connection} {moments : List Connection.Moment}
    (found : p.connections[g]? = some c) (run : Connection.Run c now moments now c')
    (allowed : ∀ m ∈ moments, may g m.action) (told : toldOf g es = eventsOf moments)
    (quiet : ∀ g', g' ≠ g → toldOf g' es = []) : Follows may p now es now (p.setConnection g c') where
  options := rfl
  course := by
    intro g'
    by_cases same : g' = g
    · subst same
      rw [connections_setConnection found, found, told]
      exact .goesOn run allowed
    · rw [connections_setConnection_ne same, quiet g' same]
      exact Course.refl now _

/-- A connection that does something silently is followed. -/
theorem modifyConnection {f : Connection → Connection}
    (silent : ∀ c, Connection.Silently now c (f c))
    (allowed : ∀ g (a : Connection.Action), a.IsSelfMade → may g a) (p : Pool) (g : Nat) :
    Follows may p now [] now (p.modifyConnection g f) := by
  unfold Pool.modifyConnection
  cases found : p.connections[g]? with
  | none => exact of_same rfl rfl (by simp)
  | some c =>
    obtain ⟨moments, run, quiet, own⟩ := silent c
    exact setConnection found run (fun m member => allowed g _ (own m member)) quiet.symm
      (by simp [toldOf])

/-- Connections that are stopped by force are followed. -/
theorem force (allowed : ∀ g (a : Connection.Action), a.IsSelfMade → may g a) (p : Pool)
    (generations : List Nat) : Follows may p now [] now (p.force generations) := by
  unfold Pool.force
  induction generations generalizing p with
  | nil => exact of_same rfl rfl (by simp)
  | cons g rest ih =>
    exact (modifyConnection (Connection.Silently.discard now) allowed p g).trans (ih _)

end Follows

/-! ## What the actions of a pool do to its connections -/

variable {p p' : Pool} {now g : Nat} {es : List Event}

/-- What a pool does to a connection when it takes an action: what it was asked for, or what it does
by itself. -/
def Action.Causes (a : Action) (g : Nat) (x : Connection.Action) : Prop :=
  x.IsSelfMade ∨ a = .connection g x ∧ startsParty x = false ∨ a.passed? = some x

namespace Follows

variable {may : Nat → Connection.Action → Prop}

/-- A connection acts, and the pool takes in what it tells. -/
theorem acts {a : Connection.Action} {c c' : Connection} {events : List Connection.Event}
    (found : p.connections[g]? = some c) (went : c.step now a = some (c', events))
    (absorbs : Absorbs (p.setConnection g c') g events es p') (allowed : may g a) :
    Follows may p now es now p' := by
  have run : Connection.Run c now [⟨now, a, events, c, c'⟩] now c' := .act .start went
  have goes : Follows may p now es now (p.setConnection g c') :=
    setConnection found run (by simpa using allowed) (by simpa using absorbs.told) absorbs.quiet
  refine ⟨absorbs.options, ?_⟩
  rw [absorbs.connections]
  exact goes.course

/-- A connection of a pool takes an action. -/
theorem stepConnection {a : Connection.Action} (taken : p.stepConnection now g a = some (p', es))
    (allowed : may g a) : Follows may p now es now p' := by
  obtain ⟨c, c', events, found, went, absorbs⟩ := exists_of_stepConnection taken
  exact acts found went absorbs allowed

/-- A connection that is installed or discarded is followed. -/
theorem install (allowed : ∀ g (a : Connection.Action), a.IsSelfMade → may g a) (p : Pool)
    (slot generation : Nat) (token : Option Token) :
    Follows may p now (p.install slot generation token).2.2 now
      (p.install slot generation token).1 := by
  have installation := Installation.of_install p slot generation token
  generalize p.install slot generation token = x at installation ⊢
  obtain ⟨q, result, es⟩ := x
  dsimp only at installation ⊢
  have without : Follows may p now [] now (p.modifyConnection generation Connection.discard) :=
    modifyConnection (Connection.Silently.discard now) allowed p generation
  have untold : ∀ q : Pool, Follows may q now [.discarded slot generation] now q :=
    fun q => of_same rfl rfl (by simp)
  cases installation with
  | refused _ => exact without.trans (untold _)
  | served _ _ _ => exact (without.trans (of_books (.release _ slot token))).trans (untold _)
  | @placed u _ _ _ _ vacates =>
    have severed : Follows may p now [] now u := by
      rcases vacates with rfl | ⟨old, _, rfl⟩
      · exact of_same rfl rfl (by simp)
      · exact modifyConnection (Connection.Silently.sever now) allowed p old
    have options : u.options = p.options := by
      rcases vacates with rfl | ⟨old, _, rfl⟩
      · rfl
      · rw [modifyConnection_rest]
    exact severed.trans (of_same options.symm rfl (by simp))

/-- A connection that is opened is followed from its beginning. -/
theorem opens (allowed : ∀ g (a : Connection.Action), a.IsSelfMade → may g a) {q : Pool} {d : Dial}
    {lost : Bool} (absorbs : Absorbs { p with connections := p.connections ++ [(p.born now d lost).1] }
      p.connections.length (p.born now d lost).2 es q) : Follows may p now es now q := by
  refine ⟨absorbs.options, ?_⟩
  intro g
  rw [absorbs.connections]
  by_cases fresh : g = p.connections.length
  · have before : p.connections[g]? = none := by simp [fresh]
    have after : (p.connections ++ [(p.born now d lost).1])[g]? = some (p.born now d lost).1 := by
      simp [fresh]
    rw [before, after, fresh, absorbs.told]
    cases lost with
    | false => exact .opens .start (by simp)
    | true =>
      have run : Connection.Run (Connection.opened d.slot p.connections.length p.options now) now
          [⟨now, .abortReader, (p.born now d true).2,
            Connection.opened d.slot p.connections.length p.options now, (p.born now d true).1⟩] now
          (p.born now d true).1 := .act .start rfl
      have told : Course p.options p.connections.length (may p.connections.length) now now none
          ((p.born now d true).2 ++ []) (some (p.born now d true).1) :=
        .opens run (by simpa using allowed _ .abortReader trivial)
      rw [List.append_nil] at told
      exact told
  · have same : (p.connections ++ [(p.born now d lost).1])[g]? = p.connections[g]? := by
      rw [List.getElem?_append]
      split
      · rfl
      · rw [List.getElem?_eq_none (by simp; omega), List.getElem?_eq_none (by omega)]
    rw [same, absorbs.quiet g fresh]
    exact Course.refl now _

/-- A dial opens a connection, which is installed or discarded. -/
theorem of_opening {q : Pool} {d : Dial} {lost : Bool} (member : d ∈ p.dials)
    (allowed : ∀ g (a : Connection.Action), a.IsSelfMade → may g a)
    (opening : Opening p now d lost q es p') : Follows may p now es now p' := by
  have concludes := opening.concludes member
  obtain ⟨⟨noticed, absorbs, rfl⟩, reached⟩ := opening
  have announced : Follows may p now [.opened d.slot p.connections.length] now p :=
    of_same rfl rfl (by simp)
  exact ((announced.trans (opens allowed absorbs)).trans (install allowed q _ _ _)).trans
    (of_books (.of_deeds concludes))

/-- A command is passed on to a connection. -/
theorem passes {a : Connection.Action} {c c' : Connection} {events : List Connection.Event}
    (found : p.connections[g]? = some c) (went : c.step now a = some (c', events))
    (absorbs : Absorbs ((p.passing g c).setConnection g c') g events es p') (allowed : may g a) :
    Follows may p now (.relayed p.nextTicket g c.nextTicket :: es) now p' := by
  have noted : Follows may p now [.relayed p.nextTicket g c.nextTicket] now (p.passing g c) :=
    of_same rfl rfl (by simp)
  exact noted.trans (acts found went absorbs allowed)

/-- A pool that is closed severs the connections in its slots. -/
theorem close (allowed : ∀ g (a : Connection.Action), a.IsSelfMade → may g a) (p : Pool) :
    Follows may p now (p.close now).2 now (p.close now).1 := by
  have severed : Follows may p now [] now { p with
      connections := p.connections.mapIdx fun i c => if i ∈ p.slots.filterMap id then c.sever else c } := by
    refine ⟨rfl, fun g => ?_⟩
    rw [List.getElem?_mapIdx]
    cases p.connections[g]? with
    | none => exact .absent
    | some c =>
      refine .of_silently ?_ (allowed g)
      dsimp only
      split
      · exact .sever now c
      · exact .refl now c
  have rest := close_rest p now
  refine severed.trans (of_same (by rw [rest]) (by rw [rest]) fun g e told => ?_)
  cases mem_close told

/-- The call of a caller that is dropped is dropped with it. -/
theorem of_callDropped {t : Ticket} (allowed : ∀ g (a : Connection.Action), a.IsSelfMade → may g a)
    (dropped : CallDropped now p t es p') : Follows may p now es now p' := by
  have forgot : Follows may p now [] now (p.forgetCall t) := of_same rfl rfl (by simp)
  cases dropped with
  | absent _ => exact of_same rfl rfl (by simp)
  | ended _ _ _ => exact forgot
  | cancelled _ _ went => exact forgot.trans (stepConnection went (allowed _ (.cancel _) trivial))

/-- What is dropped of the work for a caller is followed. -/
theorem dropAll (allowed : ∀ g (a : Connection.Action), a.IsSelfMade → may g a) (p : Pool)
    (now : Nat) (t : Ticket) : Follows may p now [] now ((p.dropWork t).dropClosing t) := by
  have books : Follows may p now [] now (p.dropWork t) := of_books (.books p _ _ _ _ _)
  refine books.trans ?_
  unfold Pool.dropClosing
  split
  · rename_i closing _
    exact (force allowed _ closing.generations).trans (of_same rfl rfl (by simp))
  · exact of_same rfl rfl (by simp)

/-- A caller that is dropped is followed. -/
theorem cancel (allowed : ∀ g (a : Connection.Action), a.IsSelfMade → may g a) (p : Pool)
    (now : Nat) (t : Ticket) : Follows may p now (p.cancel now t).2 now (p.cancel now t).1 := by
  exact (dropAll allowed p now t).trans (of_callDropped allowed (.of_cancel p now t))

/-- What an action of a pool does to its connections. -/
theorem of_step {a : Action} (taken : p.step now a = some (p', es)) :
    Follows a.Causes p now es now p' := by
  have own : ∀ g (x : Connection.Action), x.IsSelfMade → a.Causes g x := fun _ _ own => .inl own
  cases Takes.of_step taken with
  | connects => exact of_books (.of_deeds (.connect trivial))
  | dials => exact of_books ((Bookkeeping.takeTicket p).trans (.dial _ now _ _))
  | joins => exact of_books (.addReconnector p now _ _ _ false _)
  | chooses => exact of_same rfl rfl (by simp)
  | refuses _ _ => exact of_same rfl rfl (by simp)
  | passes asks found went absorbs => exact passes found went absorbs (.inr (.inr asks))
  | closes => exact close own p
  | drops _ => exact cancel own p now _
  | acts other went => exact stepConnection went (.inr (.inl ⟨rfl, other⟩))
  | @hears n rest _ _ =>
    have heard : Follows Action.supervise.Causes p now [] now { p with notices := rest } :=
      of_same rfl rfl (by simp)
    exact heard.trans (of_books (.of_deeds (.handleLoss _ n)))
  | wakes member waking => exact of_books (.of_deeds (.single (waking.deed member)))
  | opens member _ opening => exact of_opening member own opening
  | fails member _ _ => exact of_books (.conclude member now _)
  | @finishes g _ _ stopped =>
    rcases stopped with rfl | rfl
    · exact of_same rfl rfl (by simp)
    · exact (force own p g.generations).trans (of_same rfl rfl (by simp))

/-- In the run of a pool each connection runs, and what is told of it is what it tells. -/
theorem of_run {moments : List Moment} {began : Nat} (run : Run p began moments now p') :
    Follows (fun _ _ => True) p began (eventsOf moments) now p' := by
  induction run with
  | start => exact of_same rfl rfl (by simp)
  | act _ taken ih =>
    rw [eventsOf_append, eventsOf_cons, eventsOf_nil, List.append_nil]
    exact ih.trans ((of_step taken).mono fun _ _ _ => trivial)
  | rest _ forward _ ih =>
    have later := ih.trans (idle _ forward)
    rw [List.append_nil] at later
    exact later

end Follows

end CallPool.Pool
