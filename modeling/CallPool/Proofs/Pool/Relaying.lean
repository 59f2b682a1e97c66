import CallPool.Proofs.Pool.Projection

/-!
# How a pool passes calls on

A call goes to one connection, where a party waits for it. The pool remembers the two until the
caller is dropped or the party ends. One action passes at most one call on, with the next ticket and
as the next party of its connection, and adds no party otherwise. A call stays under way as long as
its party is there (`Relaying.of_step`).
-/

set_option autoImplicit false

namespace CallPool.Pool

/-- The call that an event tells was passed on. -/
def Event.relay? : Event → Option Relay
  | .relayed t g party => some ⟨t, g, party⟩
  | _ => none

/-- The calls that some events tell were passed on, in order. -/
def relayedIn (es : List Event) : List Relay := es.filterMap Event.relay?

/-- The calls that are passed on in one list behind another are those of both, in order. -/
@[simp] theorem relayedIn_append (es es' : List Event) :
    relayedIn (es ++ es') = relayedIn es ++ relayedIn es' := by
  simp [relayedIn]

/-- A call is passed on if that is told. -/
theorem mem_relayedIn {r : Relay} {es : List Event} :
    r ∈ relayedIn es ↔ Event.relayed r.ticket r.generation r.party ∈ es := by
  unfold relayedIn
  rw [List.mem_filterMap]
  constructor
  · rintro ⟨e, member, same⟩
    cases e <;> simp only [Event.relay?, reduceCtorEq, Option.some.injEq] at same
    subst same
    exact member
  · intro member
    exact ⟨_, member, rfl⟩

/-- Where nothing is told of a call none is passed on. -/
theorem relayedIn_eq_nil {es : List Event} (h : ∀ t g party, Event.relayed t g party ∉ es) :
    relayedIn es = [] := by
  rw [List.eq_nil_iff_forall_not_mem]
  intro r member
  exact h _ _ _ (mem_relayedIn.1 member)

/-- Nobody waits for the reply to a call any more. -/
def Gone (p : Pool) (r : Relay) : Prop :=
  ∀ c, p.connections[r.generation]? = some c → ∀ w ∈ c.waits, w.ticket ≠ r.party

/-- All connections of a pool are coherent. -/
def Coherent (p : Pool) : Prop :=
  ∀ (g : Nat) (c : Connection), p.connections[g]? = some c → Connection.Coherent c

/-- Whatever a pool does, its connections stay coherent. -/
theorem Coherent.of_follows {may : Nat → Connection.Action → Prop} {p p' : Pool} {began now : Nat}
    {es : List Event} (coherent : Coherent p) (follows : Follows may p began es now p') : Coherent p' := by
  intro g c found
  have course := follows.course g
  rw [found] at course
  generalize before : p.connections[g]? = x at course
  generalize toldOf g es = told at course
  cases course with
  | opens run _ => exact .of_run run
  | goesOn run _ => exact (coherent g _ before).along run

/-- Callers that get a reply in some events are among those of some calls, and their parties got it. -/
def RepliesFrom (relays : List Relay) (es : List Event) : Prop :=
  ∀ t response, Event.finished t (.ok (.reply response)) ∈ es → ∃ r ∈ relays, r.ticket = t ∧
    Event.connection r.generation (.finished r.party (.ok (.reply response))) ∈ es

/-- What a pool takes in from a connection gives a caller what its party got. -/
theorem Absorbs.repliesFrom {p p' : Pool} {g : Nat} {events : List Connection.Event}
    {es : List Event} (absorbs : Absorbs p g events es p') : RepliesFrom p.relays es := by
  intro t response told
  rcases absorbs.only _ told with ⟨_, same⟩ | ⟨r, member, mine, outcome, finished, same⟩
  · cases same
  · obtain ⟨rfl, got⟩ := Event.finished.inj same
    obtain rfl : outcome = .ok (.reply response) := by
      cases outcome with
      | error e => cases got
      | ok answer =>
        cases answer with
        | written => cases got
        | reply response' =>
          unfold outcomeOf Response.accepted at got
          by_cases refused : response'.isError = true
          · simp [refused, Except.map] at got
          · simp only [refused, Except.map] at got
            cases got
            rfl
    refine ⟨r, member, rfl, ?_⟩
    rw [mine, ← mem_toldOf, absorbs.told]
    exact finished

/-- What an action does to the calls that a pool passed on. -/
inductive Relaying (p : Pool) (now : Nat) (a : Action) (es : List Event) (p' : Pool) : Prop
  /-- It passes none on, and no party is new. A call that is over has no party left. -/
  | stays (follows : Follows (fun _ x => ¬ x.Joins) p now es now p')
      (nextTicket_le : p.nextTicket ≤ p'.nextTicket) (relays : ∀ r ∈ p'.relays, r ∈ p.relays)
      (kept : ∀ r ∈ p.relays, r ∈ p'.relays ∨ ∃ q ∈ p.relays, q.ticket = r.ticket ∧ Gone p' q)
      (unrelayed : ∀ t g party, Event.relayed t g party ∉ es) (replies : RepliesFrom p.relays es)
  /-- It passes one on, with the next ticket, to a connection, as the next party there. -/
  | passes {g : Nat} {c c' : Connection} {x : Connection.Action} {events : List Connection.Event}
      {rest : List Event} (asked : a.passed? = some x) (found : p.connections[g]? = some c)
      (went : c.step now x = some (c', events))
      (absorbs : Absorbs ((p.passing g c).setConnection g c') g events rest p')
      (told : es = .relayed p.nextTicket g c.nextTicket :: rest)

namespace Relaying

variable {p p' : Pool} {now : Nat} {a : Action} {es : List Event}

/-- A change that leaves the calls, and brings no reply, is one that they allow. -/
theorem of_same (follows : Follows (fun _ x => ¬ x.Joins) p now es now p')
    (nextTicket_le : p.nextTicket ≤ p'.nextTicket) (relays : p'.relays = p.relays)
    (unrelayed : ∀ t g party, Event.relayed t g party ∉ es)
    (unreplied : ∀ t response, Event.finished t (.ok (.reply response)) ∉ es) :
    Relaying p now a es p' := by
  refine .stays follows nextTicket_le ?_ ?_ unrelayed ?_
  · rw [relays]
    exact fun _ member => member
  · rw [relays]
    exact fun _ member => .inl member
  · exact fun t response told => absurd told (unreplied t response)

/-- What a connection does of its own ends the calls whose parties it ends. -/
theorem of_stepConnection {q : Pool} {g : Nat} {x : Connection.Action} (coherent : Coherent q)
    (taken : q.stepConnection now g x = some (p', es))
    (follows : Follows (fun _ x => ¬ x.Joins) p now es now p') (nextTicket : q.nextTicket = p.nextTicket)
    (relays : ∀ r ∈ q.relays, r ∈ p.relays)
    (kept : ∀ r ∈ p.relays, r ∈ q.relays ∨ ∃ q ∈ p.relays, q.ticket = r.ticket ∧ Gone p' q) :
    Relaying p now a es p' := by
  obtain ⟨c, c', events, found, went, absorbs⟩ := exists_of_stepConnection taken
  refine .stays follows (Nat.le_of_eq (absorbs.nextTicket.trans nextTicket).symm) ?_ ?_ ?_ ?_
  · exact fun r member => relays r (absorbs.relays r member)
  · intro r member
    rcases kept r member with there | left
    · rcases absorbs.relays_kept r there with still | ⟨q, q_member, same, mine, outcome, told⟩
      · exact .inl still
      · refine .inr ⟨q, relays q q_member, same, ?_⟩
        intro d found'
        rw [mine, absorbs.connections, connections_setConnection found] at found'
        obtain rfl := Option.some.inj found'
        exact ((Connection.Passage.of_step (coherent g c found) went).gone _ (.inl ⟨outcome, told⟩)).2
    · exact .inr left
  · intro t g party told
    rcases absorbs.only _ told with ⟨_, same⟩ | ⟨_, _, _, _, _, same⟩ <;> cases same
  · intro t response told
    obtain ⟨r, member, found⟩ := absorbs.repliesFrom t response told
    exact ⟨r, relays r member, found⟩

/-- No call has part in a change of the books. -/
theorem of_books (h : Bookkeeping p es p') : Relaying p now a es p' :=
  of_same (.of_books h) h.nextTicket_le h.relays h.relayed_not_mem h.reply_not_mem

/-- No call has part in the opening of a connection. -/
theorem of_opening {q : Pool} {d : Dial} {lost : Bool} (member : d ∈ p.dials)
    (opening : Opening p now d lost q es p')
    (follows : Follows (fun _ x => ¬ x.Joins) p now es now p') : Relaying p now a es p' := by
  have books := Bookkeeping.of_deeds (opening.concludes member)
  obtain ⟨⟨noticed, absorbs, rfl⟩, reached⟩ := opening
  have relays : p'.relays = q.relays := by rw [books.relays, install_rest]
  refine .stays follows ?_ ?_ ?_ ?_ ?_
  · refine Nat.le_trans (Nat.le_of_eq ?_) books.nextTicket_le
    rw [install_rest, absorbs.nextTicket]
  · rw [relays]
    exact absorbs.relays
  · rw [relays]
    intro r member
    rcases absorbs.relays_kept r member with there | ⟨_, _, _, _, outcome, told⟩
    · exact .inl there
    · exact absurd told finished_not_mem_born
  · intro t g party told
    rw [List.mem_append, List.mem_append, List.mem_append] at told
    rcases told with ((opened | noticed) | placed) | concluded
    · cases List.mem_singleton.1 opened
    · rcases absorbs.only _ noticed with ⟨_, same⟩ | ⟨_, _, _, _, _, same⟩ <;> cases same
    · rcases mem_install placed with same | same <;> cases same
    · exact books.relayed_not_mem t g party concluded
  · intro t response told
    rw [List.mem_append, List.mem_append, List.mem_append] at told
    rcases told with ((opened | noticed) | placed) | concluded
    · cases List.mem_singleton.1 opened
    · rcases absorbs.only _ noticed with ⟨_, same⟩ | ⟨_, _, _, _, ended, _⟩
      · cases same
      · exact absurd ended finished_not_mem_born
    · rcases mem_install placed with same | same <;> cases same
    · exact absurd concluded (books.reply_not_mem t response)

/-- A caller that is dropped is forgotten with its call, whose party is dropped. -/
theorem of_cancel {t : Ticket} (coherent : Coherent p)
    (follows : Follows (fun _ x => ¬ x.Joins) p now (p.cancel now t).2 now (p.cancel now t).1) :
    Relaying p now (.cancel t) (p.cancel now t).2 (p.cancel now t).1 := by
  have coherent := coherent.of_follows (Follows.dropAll (fun _ _ own => own) p now t)
  have rest := dropClosing_rest (p.dropWork t) t
  have dropped := CallDropped.of_cancel p now t
  generalize (p.dropWork t).dropClosing t = q at coherent rest dropped
  generalize p.cancel now t = reached at dropped follows ⊢
  obtain ⟨p', es⟩ := reached
  have nextTicket : q.nextTicket = p.nextTicket := by
    rw [rest]
    rfl
  have relays : q.relays = p.relays := by
    rw [rest]
    rfl
  have stayed : ∀ r ∈ (q.forgetCall t).relays, r ∈ p.relays := by
    intro r member
    rw [← relays]
    exact (List.mem_filter.1 member).1
  have kept : ∀ r ∈ q.relays, r.ticket = t → Gone p' r →
      ∀ r ∈ p.relays, r ∈ (q.forgetCall t).relays ∨ ∃ q ∈ p.relays, q.ticket = r.ticket ∧ Gone p' q := by
    intro r member mine gone r' member'
    rw [relays] at member
    by_cases mine' : r'.ticket = t
    · exact .inr ⟨r, member, mine.trans mine'.symm, gone⟩
    · refine .inl (List.mem_filter.2 ⟨?_, by simpa using mine'⟩)
      rw [relays]
      exact member'
  cases dropped with
  | absent _ => exact of_same follows (Nat.le_of_eq nextTicket.symm) relays (by simp) (by simp)
  | @ended r member mine went =>
    refine .stays follows (Nat.le_of_eq nextTicket.symm) stayed (kept r member mine ?_) (by simp)
      (fun _ _ told => nomatch told)
    intro c there w w_member same
    have unknown : c.party? r.party = none := by
      cases party : c.party? r.party with
      | none => rfl
      | some party =>
        unfold stepConnection at went
        simp [show (q.forgetCall t).connections[r.generation]? = some c from there, Connection.step,
          party] at went
    obtain ⟨party, party_member, rfl⟩ := List.mem_map.1 w_member
    exact List.find?_eq_none.1 unknown party party_member (decide_eq_true same)
  | @cancelled r _ _ member mine went =>
    have coherent : Coherent (q.forgetCall t) := coherent
    refine of_stepConnection coherent went follows nextTicket stayed (kept r member mine ?_)
    obtain ⟨c, c', events, found, left, absorbs⟩ := exists_of_stepConnection went
    intro d there
    rw [absorbs.connections, connections_setConnection found] at there
    obtain rfl := Option.some.inj there
    exact ((Connection.Passage.of_step (coherent r.generation c found) left).gone _ (.inr rfl)).2

/-- What an action does to the calls. -/
theorem of_step (coherent : Coherent p) (taken : p.step now a = some (p', es)) :
    Relaying p now a es p' := by
  have follows := Follows.of_step taken
  have quiet : a.passed? = none → Follows (fun _ x => ¬ x.Joins) p now es now p' := by
    intro unasked
    refine follows.mono fun g x causes => ?_
    rcases causes with own | ⟨_, starts⟩ | asked
    · intro joins
      cases x <;> first | exact own | exact joins
    · intro joins
      cases x <;> first | exact joins | cases starts
    · rw [unasked] at asked
      cases asked
  cases Takes.of_step taken with
  | connects => exact of_books (.of_deeds (.connect trivial))
  | dials => exact of_books ((Bookkeeping.takeTicket p).trans (.dial _ now _ _))
  | joins => exact of_books (.addReconnector p now _ _ _ false _)
  | chooses => exact of_same (quiet rfl) (Nat.le_refl _) rfl (by simp) (by simp)
  | refuses _ _ => exact of_same (.of_same rfl rfl (by simp)) (Nat.le_succ _) rfl (by simp) (by simp)
  | passes asks found went absorbs => exact .passes asks found went absorbs rfl
  | closes =>
    have rest := close_rest p now
    refine of_same (quiet rfl) (by rw [rest]; exact Nat.le_succ _) (by rw [rest]) ?_ ?_
    · intro t g party told
      cases mem_close told
    · intro t response told
      cases mem_close told
  | drops _ => exact of_cancel coherent (quiet rfl)
  | acts _ went =>
    exact of_stepConnection coherent went (quiet rfl) rfl (fun _ member => member) fun _ member => .inl member
  | @hears n rest _ _ =>
    have books := Bookkeeping.handleLoss { p with notices := rest } now n
    exact of_same (quiet rfl) books.nextTicket_le books.relays books.relayed_not_mem books.reply_not_mem
  | wakes member waking => exact of_books (.of_deeds (.single (waking.deed member)))
  | opens member _ opening => exact of_opening member opening (quiet rfl)
  | fails member _ _ => exact of_books (.conclude member now _)
  | finishes _ stopped =>
    have follows := quiet rfl
    rcases stopped with rfl | rfl
    · exact of_same follows (Nat.le_refl _) rfl (by simp) (by simp)
    · rw [force_rest] at follows ⊢
      exact of_same follows (Nat.le_refl _) rfl (by simp) (by simp)

/-- One call is passed on. -/
theorem relayedIn_of_passes {g : Nat} {c c' : Connection} {events : List Connection.Event}
    {rest : List Event} (absorbs : Absorbs ((p.passing g c).setConnection g c') g events rest p')
    (told : es = .relayed p.nextTicket g c.nextTicket :: rest) :
    relayedIn es = [⟨p.nextTicket, g, c.nextTicket⟩] := by
  have others : relayedIn rest = [] := by
    refine relayedIn_eq_nil fun t g party member => ?_
    rcases absorbs.only _ member with ⟨_, same⟩ | ⟨_, _, _, _, _, same⟩ <;> cases same
  rw [told]
  exact congrArg (List.cons _) others

/-- A call that is passed on in an action takes the next ticket, and is the next party of its
connection. -/
theorem of_mem_relayedIn (relaying : Relaying p now a es p') {r : Relay} (member : r ∈ relayedIn es) :
    relayedIn es = [r] ∧ r.ticket = p.nextTicket ∧ r.ticket < p'.nextTicket ∧
      ∃ c c', p.connections[r.generation]? = some c ∧ r.party = c.nextTicket ∧
        p'.connections[r.generation]? = some c' ∧ c.nextTicket < c'.nextTicket := by
  cases relaying with
  | stays _ _ _ _ unrelayed _ =>
    rw [relayedIn_eq_nil unrelayed] at member
    cases member
  | @passes g c c' x events rest asked found went absorbs told =>
    rw [relayedIn_of_passes absorbs told] at member ⊢
    obtain rfl := List.mem_singleton.1 member
    have joins : x.Joins := by
      cases a <;> simp only [Action.passed?, Option.some.injEq, reduceCtorEq] at asked
      · subst asked; trivial
      · subst asked; trivial
    refine ⟨rfl, rfl, ?_, c, c', found, rfl, ?_, ?_⟩
    · rw [absorbs.nextTicket]
      exact Nat.lt_succ_self _
    · rw [absorbs.connections]
      exact connections_setConnection found
    · rw [Connection.nextTicket_of_joins joins went]
      exact Nat.lt_succ_self _

/-- An action passes on one call at most: where the older calls are told apart, and the new one from them,
all are. -/
theorem nodup_map (relaying : Relaying p now a es p') {β : Type} (f : Relay → β) {older : List Relay}
    (once : (older.map f).Nodup) (apart : ∀ r ∈ relayedIn es, ∀ q ∈ older, f q ≠ f r) :
    ((older ++ relayedIn es).map f).Nodup := by
  rw [List.map_append, List.nodup_append]
  refine ⟨once, ?_, ?_⟩
  · cases new : relayedIn es with
    | nil => exact List.nodup_nil
    | cons r rest =>
      rw [← new, (relaying.of_mem_relayedIn (r := r) (by simp [new])).1]
      exact List.nodup_singleton _
  · intro x x_member y y_member
    obtain ⟨q, q_member, rfl⟩ := List.mem_map.1 x_member
    obtain ⟨r, r_member, rfl⟩ := List.mem_map.1 y_member
    exact apart r r_member q q_member

/-- No action gives a ticket back. -/
theorem nextTicket_le (relaying : Relaying p now a es p') : p.nextTicket ≤ p'.nextTicket := by
  cases relaying with
  | stays _ further _ _ _ _ => exact further
  | passes _ _ _ absorbs _ =>
    rw [absorbs.nextTicket]
    exact Nat.le_succ _

/-- A call that waits did so before, or has been passed on. -/
theorem mem_relays (relaying : Relaying p now a es p') {r : Relay} (member : r ∈ p'.relays) :
    r ∈ p.relays ∨ r ∈ relayedIn es := by
  cases relaying with
  | stays _ _ relays _ _ _ => exact .inl (relays r member)
  | passes _ _ _ absorbs told =>
    rcases List.mem_append.1 (absorbs.relays r member) with older | new
    · exact .inl older
    · rw [List.mem_singleton.1 new, told]
      exact .inr List.mem_cons_self

/-- Each party was there before, or is that of a call that is passed on now. -/
theorem exists_ticket (relaying : Relaying p now a es p') (coherent : Coherent p) {g : Nat}
    {c' : Connection} (found' : p'.connections[g]? = some c') {w' : Connection.Wait}
    (member : w' ∈ c'.waits) :
    (∃ c, p.connections[g]? = some c ∧ ∃ w ∈ c.waits, w.ticket = w'.ticket) ∨
      ∃ r ∈ relayedIn es, r.generation = g ∧ r.party = w'.ticket := by
  cases relaying with
  | stays follows _ _ _ _ _ =>
    have course := follows.course g
    rw [found'] at course
    generalize before : p.connections[g]? = x at course
    generalize toldOf g es = told at course
    cases course with
    | opens run nobody =>
      obtain ⟨⟨w, w_member, _⟩, _⟩ :=
        Connection.ticket_of_run run (.opened _ _ _ _) nobody w' member
      cases w_member
    | @goesOn c _ _ run nobody =>
      obtain ⟨there, _⟩ := Connection.ticket_of_run run (coherent g c before) nobody w' member
      exact .inl ⟨c, rfl, there⟩
  | @passes g' c c'' x events rest asked found went absorbs told =>
    by_cases here : g = g'
    · subst here
      rw [absorbs.connections, connections_setConnection (p := p.passing g c) found] at found'
      obtain rfl := Option.some.inj found'
      have passage := Connection.Passage.of_step (coherent g c found) went
      rcases passage.origin w' member with ⟨w, w_member, same, _⟩ | ⟨new, _⟩
      · exact .inl ⟨c, found, w, w_member, same.symm⟩
      · refine .inr ⟨⟨p.nextTicket, g, c.nextTicket⟩, ?_, rfl, new.symm⟩
        rw [told]
        exact List.mem_cons_self
    · rw [absorbs.connections, connections_setConnection_ne here] at found'
      exact .inl ⟨c', found', w', member, rfl⟩

/-- A call stays under way until nobody waits for its reply any more. -/
theorem kept (relaying : Relaying p now a es p') (coherent : Coherent p) {r : Relay}
    (member : r ∈ p.relays ∨ r ∈ relayedIn es) :
    r ∈ p'.relays ∨ ∃ q, (q ∈ p.relays ∨ q ∈ relayedIn es) ∧ q.ticket = r.ticket ∧ Gone p' q := by
  cases relaying with
  | stays _ _ _ kept unrelayed _ =>
    rw [relayedIn_eq_nil unrelayed] at member
    rcases kept r (member.resolve_right List.not_mem_nil) with there | ⟨q, q_member, same, gone⟩
    · exact .inl there
    · exact .inr ⟨q, .inl q_member, same, gone⟩
  | @passes g c c' x events rest asked found went absorbs told =>
    have passed : ∀ q, q ∈ p.relays ∨ q ∈ relayedIn es ↔ q ∈ (p.passing g c).relays := by
      intro q
      rw [relayedIn_of_passes absorbs told]
      exact List.mem_append.symm
    rcases absorbs.relays_kept r ((passed r).1 member) with there | ⟨q, q_member, same, mine, outcome, ended⟩
    · exact .inl there
    · refine .inr ⟨q, (passed q).2 q_member, same, ?_⟩
      intro d found'
      rw [mine, absorbs.connections, connections_setConnection (p := p.passing g c) found] at found'
      obtain rfl := Option.some.inj found'
      have passage := Connection.Passage.of_step (coherent g c found) went
      exact (passage.gone _ (.inl ⟨outcome, ended⟩)).2

/-- A caller gets a reply when the party of its call ends with it. -/
theorem repliesFrom (relaying : Relaying p now a es p') :
    RepliesFrom (p.relays ++ relayedIn es) es := by
  intro t response told
  cases relaying with
  | stays _ _ _ _ _ replies =>
    obtain ⟨r, member, found⟩ := replies t response told
    exact ⟨r, List.mem_append_left _ member, found⟩
  | passes _ _ _ absorbs tells =>
    rw [relayedIn_of_passes absorbs tells]
    rw [tells] at told ⊢
    obtain ⟨r, member, same, finished⟩ :=
      absorbs.repliesFrom t response ((List.mem_cons.1 told).resolve_left nofun)
    exact ⟨r, member, same, List.mem_cons_of_mem _ finished⟩

/-- What only a party that joins makes a connection tell comes of a call that is passed on to it. -/
theorem of_joining (relaying : Relaying p now a es p') (coherent : Coherent p) {g : Nat}
    {e : Connection.Event} (joining : e.TellsJoining) (told : Event.connection g e ∈ es) :
    ∃ c c' x events, a.passed? = some x ∧ Connection.Coherent c ∧ c.step now x = some (c', events) ∧
      e ∈ events ∧ Event.relayed p.nextTicket g c.nextTicket ∈ es := by
  cases relaying with
  | stays follows _ _ _ _ _ =>
    have told' : e ∈ toldOf g es := mem_toldOf.2 told
    have course := follows.course g
    generalize before : p.connections[g]? = x at course
    generalize p'.connections[g]? = x' at course
    generalize toldOf g es = told at course told'
    cases course with
    | absent => cases told'
    | opens run nobody =>
      obtain ⟨m, member, joins⟩ := joining.exists_joins run (.opened _ _ _ _) told'
      exact absurd joins (nobody m member)
    | goesOn run nobody =>
      obtain ⟨m, member, joins⟩ := joining.exists_joins run (coherent g _ before) told'
      exact absurd joins (nobody m member)
  | @passes g' c c' x events rest asked found went absorbs tells =>
    have inside : Event.connection g e ∈ rest := by
      rw [tells] at told
      exact (List.mem_cons.1 told).resolve_left nofun
    obtain rfl : g = g' := by
      rcases absorbs.only _ inside with ⟨_, same⟩ | ⟨_, _, _, _, _, same⟩
      · exact (Event.connection.inj same).1
      · cases same
    -- What is told of connection `g` is what it tells itself, so that its party is the one passed on.
    rw [← mem_toldOf, absorbs.told] at inside
    exact ⟨c, c', x, events, asked, coherent g c found, went, inside, by rw [tells]; exact List.mem_cons_self⟩

/-- A party that is registered belongs to a call that is passed on. -/
theorem of_registered (relaying : Relaying p now a es p') (coherent : Coherent p) {g : Nat}
    {party : Ticket} {id : CorrelationId} (told : Event.connection g (.registered party id) ∈ es) :
    (∃ command limit, a = .call id command limit) ∧ Event.relayed p.nextTicket g party ∈ es := by
  obtain ⟨c, c', x, events, asked, coherent', went, inside, relayed⟩ :=
    relaying.of_joining coherent (Connection.tellsJoining_registered party id) told
  obtain ⟨rfl, _, starts, _⟩ := (Connection.Passage.of_step coherent' went).registered party id inside
  refine ⟨?_, relayed⟩
  rcases starts with ⟨command, limit, rfl⟩ | rfl
  · cases a <;> simp only [Action.passed?, Option.some.injEq, reduceCtorEq] at asked
    obtain ⟨rfl, rfl, rfl⟩ := Connection.Action.call.inj asked
    exact ⟨_, _, rfl⟩
  · cases a <;> simp only [Action.passed?, Option.some.injEq, reduceCtorEq] at asked

end Relaying

end CallPool.Pool
