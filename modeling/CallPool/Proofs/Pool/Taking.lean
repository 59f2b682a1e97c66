import CallPool.Proofs.Pool.Absorption
import CallPool.Proofs.Pool.Choice
import CallPool.Proofs.Pool.Installation

/-!
# What a pool does when it takes an action

`Pool.step` is read once, here. `Takes` has one case for each thing that an action can do to a pool, with
what it needs: deeds, a call that is refused or passed on, an action of a connection, a dial that ends,
and so on. `Takes.of_step` says that there are no others. Whatever is to be shown of every action of a
pool is shown by these cases.
-/

set_option autoImplicit false

namespace CallPool.Pool

variable {p p' : Pool} {now : Nat} {a : Action} {es : List Event}

/-- What is some pool and some events is that pool and those events. -/
theorem eq_of_taken {r : Pool × List Event} (taken : some r = some (p', es)) : r.1 = p' ∧ r.2 = es := by
  obtain rfl := Option.some.inj taken
  exact ⟨rfl, rfl⟩

/-! ## Calls -/

/-- What a pool asks a connection for when it passes something on. -/
def Action.passed? : Action → Option Connection.Action
  | .call id command limit => some (.call id command limit)
  | .send command => some (.send command)
  | _ => none

/-- The pool that passes a call on to a connection, before the connection takes it. -/
def passing (p : Pool) (g : Nat) (c : Connection) : Pool :=
  { p with
    nextTicket := p.nextTicket + 1
    cursor := p.cursor + 1
    relays := p.relays ++ [⟨p.nextTicket, g, c.nextTicket⟩] }

/-- What a pool does that is asked to pass a command on. -/
inductive Routing (p : Pool) (now : Nat) (x : Connection.Action) (es : List Event) (p' : Pool) : Prop
  | shut (closed : p.closed = true) (reached : p' = { p with nextTicket := p.nextTicket + 1 })
      (told : es = [.finished p.nextTicket (.error .closed)])
  | unserved (isOpen : p.closed = false) (dead : ∀ s, p.isLive s = false)
      (reached : p' = { p with nextTicket := p.nextTicket + 1 })
      (told : es = [.finished p.nextTicket (.error .noConnectionAvailable)])
  /-- It passes the command on to the connection whose turn it is among those that are least busy. -/
  | served {g : Nat} {c c' : Connection} {events : List Connection.Event} {rest : List Event}
      (isOpen : p.closed = false) (fewest : p.LeastBusy g)
      (turn : p.tied[p.cursor.toNat % p.tied.length]? = some g) (found : p.connections[g]? = some c)
      (went : c.step now x = some (c', events))
      (absorbs : Absorbs ((p.passing g c).setConnection g c') g events rest p')
      (told : es = .relayed p.nextTicket g c.nextTicket :: rest)

/-- A command is passed on exactly if a slot of the pool is live. -/
theorem Routing.of_relay {x : Connection.Action}
    (takes : ∀ c : Connection, ∃ r, c.step now x = some r) (taken : p.relay now x = (p', es)) :
    Routing p now x es p' := by
  unfold relay takeTicket at taken
  dsimp only at taken
  split at taken
  · rename_i closed
    obtain ⟨rfl, rfl⟩ := Prod.mk.inj taken
    exact .shut closed rfl rfl
  · rename_i isOpen
    have isOpen : p.closed = false := by simpa using isOpen
    split at taken
    · rename_i nobody
      have dead := choose?_eq_none_iff.1 nobody
      obtain ⟨rfl, rfl⟩ := Prod.mk.inj taken
      exact .unserved isOpen dead rfl rfl
    · rename_i g q chosen
      obtain ⟨fewest, turn, rfl⟩ := of_choose? chosen
      have fewest : p.LeastBusy g := fewest
      obtain ⟨c, ⟨_, found, _⟩, _⟩ := id fewest
      dsimp only at taken
      rw [found] at taken
      dsimp only at taken
      obtain ⟨⟨c', events⟩, went⟩ := takes c
      split at taken
      · rename_i passed
        have found' : (p.passing g c).connections[g]? = some c := found
        have passed : (p.passing g c).stepConnection now g x = none := passed
        unfold stepConnection at passed
        simp [found', went] at passed
      · rename_i q rest passed
        have passed : (p.passing g c).stepConnection now g x = some (q, rest) := passed
        obtain ⟨rfl, rfl⟩ := Prod.mk.inj taken
        obtain ⟨d, d', events', found', went', absorbs⟩ := exists_of_stepConnection passed
        obtain rfl : c = d := Option.some.inj (found.symm.trans found')
        exact .served isOpen fewest turn found went' absorbs rfl

/-- A pool that is asked to pass a command on does that, and any connection would take the command. -/
theorem relay_of_passed {a : Action} {x : Connection.Action} (asks : a.passed? = some x) (p : Pool)
    (now : Nat) : p.step now a = some (p.relay now x) ∧
      ∀ c : Connection, ∃ r, c.step now x = some r := by
  cases a <;> simp only [Action.passed?, Option.some.injEq, reduceCtorEq] at asks
  · subst asks
    exact ⟨rfl, fun c => ⟨_, rfl⟩⟩
  · subst asks
    exact ⟨rfl, fun c => ⟨_, rfl⟩⟩

/-- A command is refused, or passed on to a connection that takes it. -/
theorem passed_cases {x : Connection.Action} (asks : a.passed? = some x)
    (taken : p.step now a = some (p', es)) :
    (∃ error, (error = .closed ∨ error = .noConnectionAvailable) ∧ p' = p.takeTicket.2 ∧
      es = [.finished p.nextTicket (.error error)]) ∨
    ∃ g c c' events rest, p.connections[g]? = some c ∧ c.step now x = some (c', events) ∧
      Absorbs ((p.passing g c).setConnection g c') g events rest p' ∧
      es = .relayed p.nextTicket g c.nextTicket :: rest := by
  obtain ⟨relays, takes⟩ := relay_of_passed asks p now
  cases Routing.of_relay takes (Option.some.inj (relays.symm.trans taken)) with
  | shut _ reached told => exact .inl ⟨_, .inl rfl, reached, told⟩
  | unserved _ _ reached told => exact .inl ⟨_, .inr rfl, reached, told⟩
  | served _ _ _ found went absorbs told => exact .inr ⟨_, _, _, _, _, found, went, absorbs, told⟩

/-! ## A caller that is dropped -/

/-- A pool without the dials, rounds and reconnectors of a caller. -/
def dropWork (p : Pool) (t : Ticket) : Pool :=
  { p with
    dials := p.dials.filter fun d => !d.isFor t
    rounds := p.rounds.filter fun r => r.ticket ≠ t
    reconnectors := p.reconnectors.filter fun r => r.ticket ≠ t }

/-- A pool in which a caller does not wait for connections to end any more: they are stopped by
force. -/
def dropClosing (p : Pool) (t : Ticket) : Pool :=
  match p.closings.find? fun g => g.ticket = t with
  | some g => { p.force g.generations with closings := p.closings.filter fun q => q.ticket ≠ t }
  | none => p

/-- Nothing changes then but the connections, and who waits for them to end. -/
theorem dropClosing_rest (p : Pool) (t : Ticket) : p.dropClosing t = { p with
    connections := (p.dropClosing t).connections
    closings := (p.dropClosing t).closings } := by
  unfold dropClosing
  split
  · rw [force_rest]
  · rfl

/-- A pool in which the call of a caller is dropped. -/
def dropCall (p : Pool) (now : Nat) (t : Ticket) : Pool × List Event :=
  match p.relays.find? fun r => r.ticket = t with
  | some r =>
    let p := { p with relays := p.relays.filter fun q => q.ticket ≠ t }
    (p.stepConnection now r.generation (.cancel r.party)).getD (p, [])
  | none => (p, [])

/-- A pool that has forgotten the call of a caller. -/
def forgetCall (p : Pool) (t : Ticket) : Pool :=
  { p with relays := p.relays.filter fun q => q.ticket ≠ t }

/-- What becomes of the call of a caller that is dropped. -/
inductive CallDropped (now : Nat) (p : Pool) (t : Ticket) : List Event → Pool → Prop
  /-- It has no call under way. -/
  | absent (none_listed : ∀ r ∈ p.relays, r.ticket ≠ t) : CallDropped now p t [] p
  /-- Its party has ended already. -/
  | ended {r : Relay} (member : r ∈ p.relays) (mine : r.ticket = t)
      (went : (p.forgetCall t).stepConnection now r.generation (.cancel r.party) = none) :
      CallDropped now p t [] (p.forgetCall t)
  /-- Its party is dropped. -/
  | cancelled {r : Relay} {es : List Event} {p' : Pool} (member : r ∈ p.relays) (mine : r.ticket = t)
      (went : (p.forgetCall t).stepConnection now r.generation (.cancel r.party) = some (p', es)) :
      CallDropped now p t es p'

/-- The call of a caller that is dropped is forgotten, with its party. -/
theorem CallDropped.of_dropCall (p : Pool) (now : Nat) (t : Ticket) :
    CallDropped now p t (p.dropCall now t).2 (p.dropCall now t).1 := by
  unfold dropCall
  cases found : p.relays.find? fun r => r.ticket = t with
  | none => exact .absent fun r member mine => List.find?_eq_none.1 found r member (decide_eq_true mine)
  | some r =>
    have member : r ∈ p.relays := List.mem_of_find?_eq_some found
    have mine : r.ticket = t := by simpa using List.find?_some found
    change CallDropped now p t
      (((p.forgetCall t).stepConnection now r.generation (.cancel r.party)).getD (p.forgetCall t, [])).2
      (((p.forgetCall t).stepConnection now r.generation (.cancel r.party)).getD (p.forgetCall t, [])).1
    cases went : (p.forgetCall t).stepConnection now r.generation (.cancel r.party) with
    | none => exact .ended member mine went
    | some reached => exact .cancelled member mine went

/-- A caller that is dropped loses its work and its shutdown, and then its call. -/
theorem CallDropped.of_cancel (p : Pool) (now : Nat) (t : Ticket) :
    CallDropped now ((p.dropWork t).dropClosing t) t (p.cancel now t).2 (p.cancel now t).1 :=
  of_dropCall _ now t

/-! ## A pool that is closed -/

/-- What a pool is that has been closed. -/
theorem close_rest (p : Pool) (now : Nat) : (p.close now).1 = { p with
    closed := true
    supervised := false
    notices := []
    slots := p.slots.map fun _ => none
    reconnecting := []
    reconnectors := p.reconnectors.filter fun r => !r.owned
    dials := p.dials.filter fun d =>
      !((p.reconnectors.filter fun r => r.owned).map fun r => r.ticket).any fun s => d.owner = .reconnector s
    connections := p.connections.mapIdx fun i c => if i ∈ p.slots.filterMap id then c.sever else c
    closings := (p.close now).1.closings
    nextTicket := p.nextTicket + 1 } := by
  unfold close takeTicket
  dsimp only
  split
  · rfl
  · rfl

/-- All that is told of a pool that is closed is that its caller ends. -/
theorem mem_close {e : Event} (member : e ∈ (p.close now).2) : e = .finished p.nextTicket (.ok .done) := by
  unfold close takeTicket at member
  dsimp only at member
  split at member
  · exact List.mem_singleton.1 member
  · cases member

/-- Who closes a pool may have to wait for its connections to end, and nobody else has to. -/
theorem mem_closings_close {g : Closing} (member : g ∈ (p.close now).1.closings) :
    g ∈ p.closings ∨ g.ticket = p.nextTicket := by
  unfold close takeTicket at member
  dsimp only at member
  split at member
  · exact .inl member
  · rcases List.mem_append.1 member with older | last
    · exact .inl older
    · exact .inr (congrArg Closing.ticket (List.mem_singleton.1 last))

/-! ## Dials and reconnectors -/

/-- The dial that an action ends. -/
def Action.ends? : Action → Option Ticket
  | .dialSucceeds t _ => some t
  | .dialFails t _ => some t
  | .dialExpires t => some t
  | _ => none

/-- Who passes a command on ends no dial. -/
theorem ends?_of_passed {x : Connection.Action} (asks : a.passed? = some x) : a.ends? = none := by
  cases a <;> first | rfl | cases asks

/-- What a reconnector does that has slept enough, or never had an attempt. -/
inductive Waking (now : Nat) (p : Pool) (r : Reconnector) : List Event → Pool → Prop
  | givesUp (spent : r.phase = .spent) : Waking now p r (p.giveUp r).2 (p.giveUp r).1
  | stops {due : Nat} (asleep : r.phase = .sleeping due) (why : r.orphaned = true ∨ p.closed = true) :
      Waking now p r (p.endReconnector r false).2 (p.endReconnector r false).1
  | redials {due : Nat} (asleep : r.phase = .sleeping due) (ready : due ≤ now) (isOpen : p.closed = false) :
      Waking now p r ((p.setReconnector r.ticket r.dialing).dial now r.slot (.reconnector r.ticket)).2
        ((p.setReconnector r.ticket r.dialing).dial now r.slot (.reconnector r.ticket)).1

/-- Whatever a reconnector does that wakes up is a deed. -/
theorem Waking.deed {scope : Scope} {r : Reconnector} (waking : Waking now p r es p')
    (member : r ∈ p.reconnectors) : Deed scope now p es p' := by
  cases waking with
  | givesUp spent => exact .givesUp member spent
  | stops asleep why => exact .stops member asleep why
  | redials asleep ready isOpen => exact .redials member asleep ready isOpen

/-- Who wakes up is a reconnector. -/
theorem Waking.of_wakeReconnector {t : Ticket} (taken : p.wakeReconnector now t = some (p', es)) :
    ∃ r ∈ p.reconnectors, r.ticket = t ∧ Waking now p r es p' := by
  unfold wakeReconnector at taken
  cases found : p.reconnectors.find? fun r => r.ticket = t with
  | none => simp [found] at taken
  | some r =>
    obtain rfl : r.ticket = t := by simpa using List.find?_some found
    refine ⟨r, List.mem_of_find?_eq_some found, rfl, ?_⟩
    simp only [found, Option.bind_eq_bind, Option.bind_some] at taken
    split at taken
    · cases taken
    · rename_i spent
      obtain ⟨rfl, rfl⟩ := eq_of_taken taken
      exact .givesUp spent
    · rename_i due asleep
      split at taken
      · rename_i ready
        split at taken
        · rename_i why
          obtain ⟨rfl, rfl⟩ := eq_of_taken taken
          exact .stops asleep (by simpa using why)
        · rename_i free
          have isOpen : p.closed = false := by
            rw [Bool.or_eq_true, not_or] at free
            exact Bool.eq_false_iff.2 free.2
          obtain ⟨rfl, rfl⟩ := eq_of_taken taken
          exact .redials asleep ready isOpen
      · cases taken

/-- A dial that does not succeed is under way, and its owner is told of the error. -/
theorem exists_of_dialEnds {t : Ticket} {error : Dial → Error}
    (taken : p.dialEnds now t error = some (p', es)) :
    ∃ d ∈ p.dials, d.ticket = t ∧ p.conclude now d (.error (error d)) = (p', es) := by
  unfold dialEnds at taken
  cases found : p.dials.find? fun d => d.ticket = t with
  | none => simp [found] at taken
  | some d =>
    simp only [found, Option.bind_eq_bind, Option.bind_some] at taken
    exact ⟨d, List.mem_of_find?_eq_some found, by simpa using List.find?_some found, Option.some.inj taken⟩

/-- When a dial has opened a connection that is installed or discarded, its owner is told. -/
theorem Opening.concludes {q : Pool} {d : Dial} {lost : Bool} (opening : Opening p now d lost q es p')
    (member : d ∈ p.dials) :
    Deeds .any now (q.install d.slot p.connections.length (q.tokenOfDial? d)).1
      ((q.install d.slot p.connections.length (q.tokenOfDial? d)).1.conclude now d
        (q.install d.slot p.connections.length (q.tokenOfDial? d)).2.1).2 p' := by
  obtain ⟨⟨_, absorbs, -⟩, rfl⟩ := opening
  refine .conclude (.any ?_ _) fun _ _ _ _ => trivial
  rw [install_rest, absorbs.rest]
  exact member

/-! ## Every action -/

/-- What an action does to a pool, with what is told of it. -/
inductive Takes (now : Nat) (p : Pool) : Action → List Event → Pool → Prop
  /-- A caller asks for a connection round. -/
  | connects : Takes now p .connect (p.connect now).2 (p.connect now).1
  /-- A caller dials a slot. -/
  | dials {slot : Nat} {token : Option Token} :
      Takes now p (.fill slot token) (p.takeTicket.2.dial now slot (.caller p.nextTicket token)).2
        (p.takeTicket.2.dial now slot (.caller p.nextTicket token)).1
  /-- A caller runs a reconnector of its own. -/
  | joins {slot : Nat} {token : Token} {schedule : Backoff} {orphaned : Bool} :
      Takes now p (.reconnect slot token schedule orphaned)
        (p.addReconnector now slot token schedule false orphaned).2
        (p.addReconnector now slot token schedule false orphaned).1
  /-- A caller chooses a connection, which at most moves the cursor. -/
  | chooses {cursor : UInt64} : Takes now p .choose [] { p with cursor := cursor }
  /-- A command is refused, as the pool is closed or no slot is live. -/
  | refuses {a : Action} {x : Connection.Action} {error : Error} (asks : a.passed? = some x)
      (degraded : error = .closed ∨ error = .noConnectionAvailable) :
      Takes now p a [.finished p.nextTicket (.error error)] p.takeTicket.2
  /-- A command is passed on to a connection. -/
  | passes {a : Action} {x : Connection.Action} {g : Nat} {c c' : Connection}
      {events : List Connection.Event} {rest : List Event} {p' : Pool} (asks : a.passed? = some x)
      (found : p.connections[g]? = some c) (went : c.step now x = some (c', events))
      (absorbs : Absorbs ((p.passing g c).setConnection g c') g events rest p') :
      Takes now p a (.relayed p.nextTicket g c.nextTicket :: rest) p'
  | closes : Takes now p .close (p.close now).2 (p.close now).1
  /-- A caller is dropped, which is no reconnector of the pool. -/
  | drops {t : Ticket} (unowned : p.owns t = false) :
      Takes now p (.cancel t) (p.cancel now t).2 (p.cancel now t).1
  /-- A connection takes an action. -/
  | acts {g : Nat} {x : Connection.Action} {es : List Event} {p' : Pool} (other : startsParty x = false)
      (went : p.stepConnection now g x = some (p', es)) : Takes now p (.connection g x) es p'
  /-- The supervisor takes the oldest notice. -/
  | hears {n : Notice} {rest : List Notice} (supervised : p.supervised = true)
      (notices : p.notices = n :: rest) :
      Takes now p .supervise ({ p with notices := rest }.handleLoss now n).2
        ({ p with notices := rest }.handleLoss now n).1
  /-- A reconnector wakes up. -/
  | wakes {r : Reconnector} {es : List Event} {p' : Pool} (member : r ∈ p.reconnectors)
      (waking : Waking now p r es p') : Takes now p (.wakeReconnector r.ticket) es p'
  /-- A dial opens a connection. -/
  | opens {d : Dial} {lost : Bool} {q : Pool} {es : List Event} {p' : Pool} (member : d ∈ p.dials)
      (found : p.dials.find? (fun e => e.ticket = d.ticket) = some d)
      (opening : Opening p now d lost q es p') : Takes now p (.dialSucceeds d.ticket lost) es p'
  /-- A dial fails, or takes too long. -/
  | fails {a : Action} {d : Dial} {error : Error} (member : d ∈ p.dials) (ends : a.ends? = some d.ticket)
      (other : ∀ t lost, a ≠ .dialSucceeds t lost) :
      Takes now p a (p.conclude now d (.error error)).2 (p.conclude now d (.error error)).1
  /-- The connections that a caller waits for have ended, or are stopped by force. -/
  | finishes {g : Closing} {q : Pool} (member : g ∈ p.closings)
      (stopped : q = p ∨ q = p.force g.generations) :
      Takes now p (.finishClose g.ticket) [.finished g.ticket (.ok .done)]
        { q with closings := q.closings.filter fun q => q.ticket ≠ g.ticket }

namespace Takes

/-- A command is refused, or passed on to a connection that takes it. -/
theorem of_passed {x : Connection.Action} (asks : a.passed? = some x)
    (taken : p.step now a = some (p', es)) : Takes now p a es p' := by
  rcases passed_cases asks taken with
    ⟨error, degraded, rfl, rfl⟩ | ⟨g, c, c', events, rest, found, went, absorbs, rfl⟩
  · exact .refuses asks degraded
  · exact .passes asks found went absorbs

/-- A dial that does not succeed fails. -/
theorem of_dialEnds {t : Ticket} {error : Dial → Error} (ends : a.ends? = some t)
    (other : ∀ t lost, a ≠ .dialSucceeds t lost) (taken : p.dialEnds now t error = some (p', es)) :
    Takes now p a es p' := by
  obtain ⟨d, member, rfl, same⟩ := exists_of_dialEnds taken
  have fails : Takes now p a (p.conclude now d (.error (error d))).2 _ := .fails member ends other
  rw [same] at fails
  exact fails

/-- The connections that a caller waits for have ended, or are stopped by force. -/
theorem of_finishClose {t : Ticket} (taken : p.finishClose now t = some (p', es)) :
    Takes now p (.finishClose t) es p' := by
  unfold finishClose at taken
  cases found : p.closings.find? fun g => g.ticket = t with
  | none => simp [found] at taken
  | some g =>
    have member : g ∈ p.closings := List.mem_of_find?_eq_some found
    obtain rfl : g.ticket = t := by simpa using List.find?_some found
    simp only [found, Option.bind_eq_bind, Option.bind_some] at taken
    split at taken
    · obtain ⟨rfl, rfl⟩ := eq_of_taken taken
      cases p.allEnded g.generations with
      | true => exact .finishes member (.inl rfl)
      | false => exact .finishes member (.inr rfl)
    · cases taken

/-- An action does one of these things to a pool. -/
theorem of_step (taken : p.step now a = some (p', es)) : Takes now p a es p' := by
  cases a with
  | connect =>
    obtain ⟨rfl, rfl⟩ := eq_of_taken taken
    exact .connects
  | fill slot token =>
    obtain ⟨rfl, rfl⟩ := eq_of_taken taken
    exact .dials
  | reconnect slot token schedule orphaned =>
    obtain ⟨rfl, rfl⟩ := eq_of_taken taken
    exact .joins
  | choose =>
    obtain ⟨rfl, rfl⟩ := eq_of_taken taken
    cases chosen : p.choose? with
    | none => exact .chooses
    | some r =>
      obtain ⟨-, -, moved⟩ := of_choose? chosen
      rw [Option.map_some, Option.getD_some, moved]
      exact .chooses
  | call id command limit => exact of_passed rfl taken
  | send command => exact of_passed rfl taken
  | close =>
    obtain ⟨rfl, rfl⟩ := eq_of_taken taken
    exact .closes
  | cancel t =>
    simp only [step] at taken
    split at taken
    · cases taken
    · rename_i unowned
      obtain ⟨rfl, rfl⟩ := eq_of_taken taken
      exact .drops (Bool.eq_false_iff.2 unowned)
  | connection g x =>
    simp only [step] at taken
    split at taken
    · cases taken
    · rename_i other
      exact .acts (Bool.eq_false_iff.2 other) taken
  | supervise =>
    simp only [step] at taken
    split at taken
    · rename_i supervised notices
      obtain ⟨rfl, rfl⟩ := eq_of_taken taken
      exact .hears supervised notices
    · cases taken
  | wakeReconnector t =>
    obtain ⟨r, member, rfl, waking⟩ := Waking.of_wakeReconnector taken
    exact .wakes member waking
  | dialSucceeds t lost =>
    obtain ⟨d, q, found, opening⟩ := Opening.of_dialSucceeds taken
    obtain rfl : d.ticket = t := by simpa using List.find?_some found
    exact .opens (List.mem_of_find?_eq_some found) found opening
  | dialFails t fault => exact of_dialEnds rfl nofun taken
  | dialExpires t =>
    simp only [step, Option.bind_eq_bind, Option.bind_eq_some_iff] at taken
    obtain ⟨_, _, taken⟩ := taken
    split at taken
    · exact of_dialEnds rfl nofun taken
    · cases taken
  | finishClose t => exact of_finishClose taken

end Takes

end CallPool.Pool
