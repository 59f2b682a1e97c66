import CallPool.Pool.Run

/-!
# The deeds of a pool

What a pool notes of its dials, its connection rounds and its reconnectors are its books. The functions
that keep them are long, but each of them is a chain of a few deeds: a round begins or settles, a dial
begins or ends, a reconnector starts, sleeps again, dials, gives up or ends. `Deed` lists them, each with
what it needs and what it tells, and `Deeds` is a chain of them. Whatever is kept by every deed, and by
the next one after some others, is kept by the functions; nobody has to look into these again.

Some things are kept only by deeds that are about certain rounds or certain ends of dials. A chain of
deeds has a scope for that, which says what they may be about.
-/

set_option autoImplicit false

namespace CallPool.Pool

/-! ## Changes of the books -/

/-- A reconnector whose dial has failed: it sleeps again, or is spent. -/
def Reconnector.failed (r : Reconnector) (now : Nat) : Reconnector :=
  { r with attempt := r.attempt + 1, phase := phaseAt r.schedule (r.attempt + 1) now }

/-- A reconnector that dials. -/
def Reconnector.dialing (r : Reconnector) : Reconnector := { r with phase := .dialing }

/-- Replaces the reconnector with a ticket. -/
def setReconnector (p : Pool) (t : Ticket) (r : Reconnector) : Pool :=
  { p with reconnectors := p.reconnectors.map fun q => if q.ticket = t then r else q }

/-- Forgets the dial with a ticket. -/
def dropDial (p : Pool) (t : Ticket) : Pool :=
  { p with dials := p.dials.filter fun d => d.ticket ≠ t }

/-- Forgets the round with a ticket. -/
def dropRound (p : Pool) (t : Ticket) : Pool :=
  { p with rounds := p.rounds.filter fun r => r.ticket ≠ t }

/-- A pool in which a round has joined that has not dialed yet. -/
def joinRound (p : Pool) : Pool :=
  { p with
    nextTicket := p.nextTicket + 1
    rounds := p.rounds ++ [⟨p.nextTicket, p.targets.map fun slot => (slot, none)⟩] }

/-- The end of a dial is entered for its round. -/
def enter (p : Pool) (t : Ticket) (d : Dial) (result : Except Error Unit) : Pool :=
  { p.dropDial d.ticket with
    rounds := p.rounds.map fun r => if r.ticket = t then
      { r with results := r.results.map fun e => if e.1 = d.slot then (e.1, some result) else e }
      else r }

variable {p p' p'' : Pool} {now : Nat} {es es' : List Event}

/-- A reconnector that ends is forgotten, and changes besides only which slots have one. -/
theorem endReconnector_rest (p : Pool) (r : Reconnector) (filled : Bool) :
    (p.endReconnector r filled).1 = { p with
      reconnectors := p.reconnectors.filter fun q => q.ticket ≠ r.ticket
      reconnecting := (p.endReconnector r filled).1.reconnecting } := by
  unfold endReconnector
  dsimp only
  split
  · cases filled <;> rfl
  · rfl

/-- A reconnector that ends releases its own slot only, and not if it has filled it. -/
theorem mem_reconnecting_endReconnector {r : Reconnector} {filled : Bool} {e : Nat × Token} :
    e ∈ (p.endReconnector r filled).1.reconnecting ↔
      e ∈ p.reconnecting ∧ (filled = false → r.owned = true → e ≠ (r.slot, r.token)) := by
  unfold endReconnector
  dsimp only
  by_cases owned : r.owned = true
  · rw [if_pos owned]
    cases filled with
    | true => simp
    | false => simp [release, owned]
  · rw [if_neg owned]
    simp [owned]

/-- All that is told of a reconnector that ends is that it did, and what its caller ends with. -/
theorem mem_endReconnector {r : Reconnector} {filled : Bool} {e : Event}
    (member : e ∈ (p.endReconnector r filled).2) :
    e = .recovered r filled ∨ e = .finished r.ticket (.ok (.filled filled)) := by
  unfold endReconnector at member
  dsimp only at member
  split at member
  · exact .inl (List.mem_singleton.1 member)
  · rcases List.mem_cons.1 member with seen | told
    · exact .inl seen
    · exact .inr (List.mem_singleton.1 told)

/-- No dial ends with a reconnector. -/
theorem dialEnded_not_mem_endReconnector {r : Reconnector} {filled : Bool} {d : Dial}
    {result : Except Error Unit} : Event.dialEnded d result ∉ (p.endReconnector r filled).2 := by
  intro member
  rcases mem_endReconnector member with same | same <;> cases same

/-- A reconnector that is replaced keeps its place. -/
theorem tickets_setReconnector {t : Ticket} {next : Reconnector} (same : next.ticket = t) :
    (p.setReconnector t next).reconnectors.map Reconnector.ticket =
      p.reconnectors.map Reconnector.ticket := by
  unfold setReconnector
  rw [List.map_map]
  apply List.map_congr_left
  intro q _
  by_cases mine : q.ticket = t
  · simp [mine, same]
  · simp [mine]

/-- A reconnector that is there when one has been replaced is the new one, or another that was there
before. -/
theorem of_mem_setReconnector {t : Ticket} {next x : Reconnector}
    (member : x ∈ (p.setReconnector t next).reconnectors) :
    x = next ∨ x ∈ p.reconnectors ∧ x.ticket ≠ t := by
  obtain ⟨old, there, rfl⟩ := List.mem_map.1 member
  by_cases mine : old.ticket = t
  · rw [if_pos mine]
    exact .inl rfl
  · rw [if_neg mine]
    exact .inr ⟨there, mine⟩

/-- The new reconnector is there when it has replaced one. -/
theorem mem_setReconnector {r next : Reconnector} (member : r ∈ p.reconnectors) :
    next ∈ (p.setReconnector r.ticket next).reconnectors :=
  List.mem_map.2 ⟨r, member, if_pos rfl⟩

/-- When a reconnector is replaced the others stay. -/
theorem mem_setReconnector_of_ne {t : Ticket} {next x : Reconnector} (member : x ∈ p.reconnectors)
    (other : x.ticket ≠ t) : x ∈ (p.setReconnector t next).reconnectors :=
  List.mem_map.2 ⟨x, member, if_neg other⟩

/-- A reconnector that is replaced and then gives up might as well just give up. -/
theorem giveUp_setReconnector {t : Ticket} {r : Reconnector} (same : r.ticket = t) :
    (p.setReconnector t r).giveUp r = p.giveUp r := by
  have left : (p.setReconnector t r).reconnectors.filter (fun q => q.ticket ≠ r.ticket) =
      p.reconnectors.filter fun q => q.ticket ≠ r.ticket := by
    unfold setReconnector
    rw [same]
    dsimp only
    induction p.reconnectors with
    | nil => rfl
    | cons q rest ih =>
      by_cases mine : q.ticket = t
      · simpa [mine, same] using ih
      · simpa [mine] using ih
  unfold giveUp endReconnector
  rw [left]
  rfl

/-- A reconnector is spent when it has no attempt left. -/
theorem phaseAt_eq_spent_iff {schedule : Backoff} {attempt now : Nat} :
    phaseAt schedule attempt now = .spent ↔ ¬ attempt < schedule.attempts := by
  unfold phaseAt
  split
  · rename_i more
    simp [more]
  · rename_i spent
    simp [spent]

/-- Before its next attempt a reconnector sleeps, or is spent. -/
theorem phaseAt_ne_dialing {schedule : Backoff} {attempt now : Nat} :
    phaseAt schedule attempt now ≠ .dialing := by
  unfold phaseAt
  split
  · simp
  · simp

/-! ## Reconnectors that are started, and rounds that settle -/

/-- What an open pool is in which a slot has got a reconnector, under the next token. -/
def enlist (p : Pool) (slot : Nat) : Pool :=
  { p with
    reconnecting := p.reconnecting ++ [(slot, p.nextToken)]
    nextToken := p.nextToken + 1 }

/-- What a pool does that is to start a reconnector for a slot. -/
inductive Recovers (now : Nat) (p : Pool) (slot : Nat) : List Event → Pool → Prop
  | shut (closed : p.closed = true) : Recovers now p slot [] p
  /-- The slot has one already. -/
  | held {t : Token} (isOpen : p.closed = false) (token : p.tokenOf? slot = some t) :
      Recovers now p slot [] { p with nextToken := p.nextToken + 1 }
  | starts (isOpen : p.closed = false) (free : p.tokenOf? slot = none) : Recovers now p slot
      ((p.enlist slot).addReconnector now slot p.nextToken p.options.backoff true false).2
      ((p.enlist slot).addReconnector now slot p.nextToken p.options.backoff true false).1

/-- There is nothing else that it does. -/
theorem Recovers.of_recover {slot : Nat} (recovered : p.recover now slot = (p', es)) :
    Recovers now p slot es p' := by
  have same : ({ p with nextToken := p.nextToken + 1 } : Pool).tokenOf? slot = p.tokenOf? slot := rfl
  unfold recover at recovered
  dsimp only at recovered
  rw [same] at recovered
  cases closed : p.closed with
  | true =>
    rw [if_pos closed] at recovered
    obtain ⟨rfl, rfl⟩ := Prod.mk.inj recovered
    exact .shut closed
  | false =>
    rw [if_neg (by simp [closed])] at recovered
    cases token : p.tokenOf? slot with
    | some t =>
      rw [token, if_pos Option.isSome_some] at recovered
      obtain ⟨rfl, rfl⟩ := Prod.mk.inj recovered
      exact .held closed token
    | none =>
      rw [token, if_neg (by simp)] at recovered
      obtain ⟨rfl, rfl⟩ := Prod.mk.inj recovered
      exact .starts closed token

/-- A slot of an open pool that has no reconnector gets one, under the next token. -/
theorem recover_of_free {slot : Nat} (isOpen : p.closed = false) (free : p.tokenOf? slot = none) :
    p.recover now slot =
      (p.enlist slot).addReconnector now slot p.nextToken p.options.backoff true false := by
  cases recovered : p.recover now slot with
  | mk q es =>
    cases Recovers.of_recover recovered with
    | shut closed => cases isOpen.symm.trans closed
    | held _ token => cases free.symm.trans token
    | starts _ _ => rfl

/-- Nothing changes then but the reconnectors, and which slots have one. -/
theorem recover_rest (p : Pool) (now slot : Nat) : (p.recover now slot).1 = { p with
    reconnecting := (p.recover now slot).1.reconnecting
    nextToken := (p.recover now slot).1.nextToken
    reconnectors := (p.recover now slot).1.reconnectors
    nextTicket := (p.recover now slot).1.nextTicket } := by
  cases recovered : p.recover now slot with
  | mk q es =>
    cases Recovers.of_recover recovered with
    | shut _ => rfl
    | held _ _ => rfl
    | starts _ _ => rfl

/-- Nothing changes either if reconnectors are started for some slots. -/
theorem recoverAll_rest (p : Pool) (now : Nat) (slots : List Nat) : (p.recoverAll now slots).1 = { p with
    reconnecting := (p.recoverAll now slots).1.reconnecting
    nextToken := (p.recoverAll now slots).1.nextToken
    reconnectors := (p.recoverAll now slots).1.reconnectors
    nextTicket := (p.recoverAll now slots).1.nextTicket } := by
  induction slots generalizing p with
  | nil => rfl
  | cons slot rest ih =>
    unfold recoverAll
    dsimp only
    rw [ih, recover_rest]

/-- All that is told of it is that a reconnector of the pool is started for the slot. -/
theorem mem_recover {slot : Nat} {e : Event} (member : e ∈ (p.recover now slot).2) :
    ∃ r, e = .recovering r ∧ r.slot = slot ∧ r.owned = true := by
  cases recovered : p.recover now slot with
  | mk q es =>
    rw [recovered] at member
    cases Recovers.of_recover recovered with
    | shut _ => cases member
    | held _ _ => cases member
    | starts _ _ => exact ⟨_, List.mem_singleton.1 member, rfl, rfl⟩

/-- All that is told of slots that are recovered is that reconnectors are started for them. -/
theorem mem_recoverAll {slots : List Nat} {e : Event} (member : e ∈ (p.recoverAll now slots).2) :
    ∃ r, e = .recovering r ∧ r.slot ∈ slots := by
  induction slots generalizing p with
  | nil => cases member
  | cons slot rest ih =>
    rcases List.mem_append.1 member with first | later
    · obtain ⟨r, same, mine, _⟩ := mem_recover first
      exact ⟨r, same, by rw [mine]; exact List.mem_cons_self⟩
    · obtain ⟨r, same, mine⟩ := ih later
      exact ⟨r, same, List.mem_cons_of_mem _ mine⟩

/-- Reconnectors are started for some slots whatever the rounds are. -/
theorem recoverAll_rounds (p : Pool) (now : Nat) (slots : List Nat) (rounds : List Round) :
    { p with rounds := rounds }.recoverAll now slots =
      ({ (p.recoverAll now slots).1 with rounds := rounds }, (p.recoverAll now slots).2) := by
  have once : ∀ (q : Pool) (slot : Nat), { q with rounds := rounds }.recover now slot =
      ({ (q.recover now slot).1 with rounds := rounds }, (q.recover now slot).2) := by
    intro q slot
    cases recovered : q.recover now slot with
    | mk q' es =>
      cases Recovers.of_recover recovered with
      | shut closed => exact if_pos closed
      | held isOpen token =>
        unfold recover
        rw [if_neg (by simp [isOpen])]
        exact if_pos (congrArg Option.isSome token)
      | starts isOpen free =>
        have free' : ({ q with rounds := rounds } : Pool).tokenOf? slot = none := free
        exact recover_of_free isOpen free'
  induction slots generalizing p with
  | nil => rfl
  | cons slot rest ih =>
    unfold recoverAll
    rw [once]
    dsimp only
    rw [ih]

/-- The slots of a round whose dials have failed. -/
def Round.failed (r : Round) : List Nat :=
  (r.results.filter fun e => e.2.any fun result => !result.isOk).map Prod.fst

/-- What becomes of a round whose last dial may have ended. -/
inductive Settles (now : Nat) (p : Pool) (t : Ticket) : List Event → Pool → Prop
  /-- It goes on, or there is none. -/
  | waits : Settles now p t [] p
  /-- It is over: the slots that failed get reconnectors, and the caller gets the number of live
  connections. -/
  | settles {r : Round} (found : p.rounds.find? (fun r => r.ticket = t) = some r) :
      Settles now p t
        (((p.dropRound t).recoverAll now r.failed).2 ++
          [.finished t (.ok (.live ((p.dropRound t).recoverAll now r.failed).1.liveCount))])
        ((p.dropRound t).recoverAll now r.failed).1

/-- Nothing else becomes of it. -/
theorem Settles.of_settleRound {t : Ticket} (settled : p.settleRound now t = (p', es)) :
    Settles now p t es p' := by
  unfold settleRound at settled
  split at settled
  · obtain ⟨rfl, rfl⟩ := Prod.mk.inj settled
    exact .waits
  · rename_i r found
    split at settled
    · obtain ⟨rfl, rfl⟩ := Prod.mk.inj settled
      exact .settles found
    · obtain ⟨rfl, rfl⟩ := Prod.mk.inj settled
      exact .waits

/-- All that is told of a round that settles is that reconnectors are started for slots of it that have
failed, and that it is over. -/
theorem mem_settleRound {t : Ticket} {e : Event} (member : e ∈ (p.settleRound now t).2) :
    (∃ R r, p.rounds.find? (fun R => R.ticket = t) = some R ∧ e = .recovering r ∧ r.slot ∈ R.failed) ∨
      ∃ count, e = .finished t (.ok (.live count)) := by
  cases settled : p.settleRound now t with
  | mk q es =>
    rw [settled] at member
    cases Settles.of_settleRound settled with
    | waits => cases member
    | settles found =>
      rcases List.mem_append.1 member with early | last
      · obtain ⟨r, same, failed⟩ := mem_recoverAll early
        exact .inl ⟨_, r, found, same, failed⟩
      · exact .inr ⟨_, List.mem_singleton.1 last⟩

/-! ## Deeds -/

/-- What deeds may be about: which rounds, which ends of dials, and which reconnectors that have filled
their slots. -/
structure Scope where
  round : Ticket → Prop
  ended : Dial → Except Error Unit → Prop
  filled : Pool → Reconnector → Prop

/-- Deeds may be about anything. -/
def Scope.any : Scope := ⟨fun _ => True, fun _ _ => True, fun _ _ => True⟩

/-- A dial ends that is under way, and it is in scope that it does. -/
structure Scope.Ends (scope : Scope) (p : Pool) (d : Dial) (result : Except Error Unit) : Prop where
  member : d ∈ p.dials
  ended : scope.ended d result
  /-- No round out of scope has a dial with the same ticket. -/
  round : ∀ e ∈ p.dials, e.ticket = d.ticket → ∀ t, e.owner = .round t → scope.round t

/-- Any dial that is under way may end. -/
theorem Scope.Ends.any {d : Dial} (member : d ∈ p.dials) (result : Except Error Unit) :
    Scope.any.Ends p d result :=
  ⟨member, trivial, fun _ _ _ _ _ => trivial⟩

/-- A single change of the books, with what is told of it. -/
inductive Deed (scope : Scope) (now : Nat) (p : Pool) : List Event → Pool → Prop
  /-- A caller that asks for a round is told that the pool is closed. -/
  | refuses (closed : p.closed = true) :
      Deed scope now p [.finished p.nextTicket (.error .closed)] p.takeTicket.2
  /-- A round joins. -/
  | joins (isOpen : p.closed = false) (own : scope.round p.nextTicket) : Deed scope now p [] p.joinRound
  /-- A round dials a slot. -/
  | dials {slot : Nat} {t : Ticket} (isOpen : p.closed = false) (own : scope.round t) :
      Deed scope now p (p.dial now slot (.round t)).2 (p.dial now slot (.round t)).1
  /-- A round is over, and its caller gets the number of live connections. -/
  | settles {r : Round} (member : r ∈ p.rounds) (own : scope.round r.ticket) :
      Deed scope now p [.finished r.ticket (.ok (.live p.liveCount))] (p.dropRound r.ticket)
  /-- A reconnector is not started as the slot has one, which takes a token all the same. -/
  | skips : Deed scope now p [] { p with nextToken := p.nextToken + 1 }
  /-- The pool starts a reconnector for a slot that has none. -/
  | starts {slot : Nat} (isOpen : p.closed = false) (free : p.tokenOf? slot = none) :
      Deed scope now p (p.recover now slot).2 (p.recover now slot).1
  /-- The dial of a caller ends. -/
  | answers {d : Dial} {result : Except Error Unit} {t : Ticket} {token : Option Token}
      (ends : scope.Ends p d result) (owner : d.owner = .caller t token) :
      Deed scope now p [.dialEnded d result, .finished t (result.map fun _ => .done)] (p.dropDial d.ticket)
  /-- The dial of a round ends. -/
  | enters {d : Dial} {result : Except Error Unit} {t : Ticket} (ends : scope.Ends p d result)
      (owner : d.owner = .round t) : Deed scope now p [.dialEnded d result] (p.enter t d result)
  /-- A dial ends whose reconnector is gone. -/
  | abandons {d : Dial} {result : Except Error Unit} {t : Ticket} (ends : scope.Ends p d result)
      (owner : d.owner = .reconnector t) (gone : ∀ r ∈ p.reconnectors, r.ticket ≠ t) :
      Deed scope now p [.dialEnded d result] (p.dropDial d.ticket)
  /-- The dial of a reconnector fails, and the reconnector sleeps again or is spent. -/
  | fails {d : Dial} {r : Reconnector} {error : Error} (ends : scope.Ends p d (.error error))
      (member : r ∈ p.reconnectors) (owner : d.owner = .reconnector r.ticket) :
      Deed scope now p [.dialEnded d (.error error)]
        ((p.dropDial d.ticket).setReconnector r.ticket (r.failed now))
  /-- The dial of a reconnector succeeds, and the reconnector ends. -/
  | fills {d : Dial} {r : Reconnector} (ends : scope.Ends p d (.ok ())) (member : r ∈ p.reconnectors)
      (owner : d.owner = .reconnector r.ticket) (filled : scope.filled p r) :
      Deed scope now p (.dialEnded d (.ok ()) :: ((p.dropDial d.ticket).endReconnector r true).2)
        ((p.dropDial d.ticket).endReconnector r true).1
  /-- A reconnector without an attempt left gives up. -/
  | givesUp {r : Reconnector} (member : r ∈ p.reconnectors) (spent : r.phase = .spent) :
      Deed scope now p (p.giveUp r).2 (p.giveUp r).1
  /-- A reconnector stops because its pool is gone, or closed. -/
  | stops {r : Reconnector} {due : Nat} (member : r ∈ p.reconnectors) (asleep : r.phase = .sleeping due)
      (why : r.orphaned = true ∨ p.closed = true) :
      Deed scope now p (p.endReconnector r false).2 (p.endReconnector r false).1
  /-- A reconnector has slept enough and dials. -/
  | redials {r : Reconnector} {due : Nat} (member : r ∈ p.reconnectors) (asleep : r.phase = .sleeping due)
      (ready : due ≤ now) (isOpen : p.closed = false) :
      Deed scope now p ((p.setReconnector r.ticket r.dialing).dial now r.slot (.reconnector r.ticket)).2
        ((p.setReconnector r.ticket r.dialing).dial now r.slot (.reconnector r.ticket)).1

/-- A chain of deeds. -/
inductive Deeds (scope : Scope) (now : Nat) : Pool → List Event → Pool → Prop
  | nil (p : Pool) : Deeds scope now p [] p
  | cons {p p' p'' : Pool} {es es' : List Event} (first : Deed scope now p es p')
      (rest : Deeds scope now p' es' p'') : Deeds scope now p (es ++ es') p''

variable {scope : Scope}

/-- Only ends of dials that are in scope are told of. -/
theorem Deed.ended {d : Dial} {result : Except Error Unit} (deed : Deed scope now p es p')
    (told : Event.dialEnded d result ∈ es) : scope.ended d result := by
  have own : ∀ {d' result' rest}, scope.Ends p d' result' → Event.dialEnded d result ∉ rest →
      Event.dialEnded d result ∈ .dialEnded d' result' :: rest → scope.ended d result := by
    intro d' result' rest ends others member
    obtain ⟨rfl, rfl⟩ := Event.dialEnded.inj ((List.mem_cons.1 member).resolve_right others)
    exact ends.ended
  cases deed with
  | answers ends _ => exact own ends (by simp) told
  | enters ends _ => exact own ends List.not_mem_nil told
  | abandons ends _ _ => exact own ends List.not_mem_nil told
  | fails ends _ _ => exact own ends List.not_mem_nil told
  | fills ends _ _ _ => exact own ends dialEnded_not_mem_endReconnector told
  | givesUp _ _ => exact absurd ((List.mem_cons.1 told).resolve_left nofun) dialEnded_not_mem_endReconnector
  | stops _ _ _ => exact absurd told dialEnded_not_mem_endReconnector
  | starts isOpen free =>
    rw [recover_of_free isOpen free] at told
    cases List.mem_singleton.1 told
  | refuses _ => cases List.mem_singleton.1 told
  | settles _ _ => cases List.mem_singleton.1 told
  | dials _ _ => cases List.mem_singleton.1 told
  | redials _ _ _ _ => cases List.mem_singleton.1 told
  | joins _ _ => cases told
  | skips => cases told

namespace Deeds

/-- A deed is a chain of one. -/
theorem single (deed : Deed scope now p es p') : Deeds scope now p es p' := by
  have chain := Deeds.cons deed (.nil p')
  rw [List.append_nil] at chain
  exact chain

/-- A chain of deeds that is followed by another one is a chain. -/
theorem trans (first : Deeds scope now p es p') (second : Deeds scope now p' es' p'') :
    Deeds scope now p (es ++ es') p'' := by
  induction first with
  | nil => exact second
  | cons deed _ ih =>
    rw [List.append_assoc]
    exact .cons deed (ih second)

/-- Only ends of dials that are in scope are told of. -/
theorem ended {d : Dial} {result : Except Error Unit} (deeds : Deeds scope now p es p')
    (told : Event.dialEnded d result ∈ es) : scope.ended d result := by
  induction deeds with
  | nil => cases told
  | cons deed _ ih =>
    rcases List.mem_append.1 told with first | rest
    · exact deed.ended first
    · exact ih rest

/-! ## What the functions of a pool do -/

/-- A round dials some slots. -/
theorem dialAll {t : Ticket} (own : scope.round t) (isOpen : p.closed = false) (slots : List Nat) :
    Deeds scope now p (p.dialAll now (.round t) slots).2 (p.dialAll now (.round t) slots).1 := by
  induction slots generalizing p with
  | nil => exact .nil p
  | cons slot rest ih => exact .cons (.dials isOpen own) (ih isOpen)

/-- The pool starts a reconnector for a slot, if it is open and the slot has none. -/
theorem recover (p : Pool) (slot : Nat) :
    Deeds scope now p (p.recover now slot).2 (p.recover now slot).1 := by
  cases recovered : p.recover now slot with
  | mk q es =>
    cases Recovers.of_recover recovered with
    | shut _ => exact .nil p
    | held _ _ => exact single .skips
    | starts isOpen free =>
      rw [← recover_of_free isOpen free]
      exact single (.starts isOpen free)

/-- The pool starts reconnectors for some slots. -/
theorem recoverAll (p : Pool) (slots : List Nat) :
    Deeds scope now p (p.recoverAll now slots).2 (p.recoverAll now slots).1 := by
  induction slots generalizing p with
  | nil => exact .nil p
  | cons slot rest ih => exact (recover p slot).trans (ih _)

/-- The supervisor has heard of a loss. -/
theorem handleLoss (p : Pool) (n : Notice) :
    Deeds scope now p (p.handleLoss now n).2 (p.handleLoss now n).1 := by
  unfold Pool.handleLoss
  split
  · exact .nil p
  · split
    · exact recover p n.slot
    · exact .nil p

/-- A round settles if all its dials have ended. -/
theorem settleRound {t : Ticket} (own : scope.round t) (p : Pool) :
    Deeds scope now p (p.settleRound now t).2 (p.settleRound now t).1 := by
  cases settled : p.settleRound now t with
  | mk q es =>
    cases Settles.of_settleRound settled with
    | waits => exact .nil p
    | @settles r found =>
      obtain rfl : r.ticket = t := by simpa using List.find?_some found
      -- The round may as well be forgotten after the reconnectors have been started.
      have later : (p.dropRound r.ticket).recoverAll now r.failed =
          (((p.recoverAll now r.failed).1.dropRound r.ticket), (p.recoverAll now r.failed).2) := by
        have same : (p.recoverAll now r.failed).1.dropRound r.ticket = { (p.recoverAll now r.failed).1 with
            rounds := (p.dropRound r.ticket).rounds } := by
          rw [recoverAll_rest]
          rfl
        rw [same]
        exact recoverAll_rounds p now r.failed (p.dropRound r.ticket).rounds
      have member : r ∈ (p.recoverAll now r.failed).1.rounds := by
        rw [recoverAll_rest]
        exact List.mem_of_find?_eq_some found
      rw [later]
      exact (recoverAll p r.failed).trans (single (.settles member own))

/-- A caller asks for a round. -/
theorem connect (own : scope.round p.nextTicket) :
    Deeds scope now p (p.connect now).2 (p.connect now).1 := by
  unfold Pool.connect
  dsimp only
  split
  · rename_i closed
    exact single (.refuses closed)
  · rename_i isOpen
    have isOpen : p.closed = false := by
      simpa [takeTicket] using isOpen
    have joined : p.joinRound.closed = false := isOpen
    exact (Deeds.cons (.joins isOpen own) (dialAll own joined p.targets)).trans (settleRound own _)

/-- The owner of a dial is told how it ended. -/
theorem conclude {d : Dial} {result : Except Error Unit} (ends : scope.Ends p d result)
    (filled : ∀ r ∈ p.reconnectors, d.owner = .reconnector r.ticket → result = .ok () → scope.filled p r) :
    Deeds scope now p (p.conclude now d result).2 (p.conclude now d result).1 := by
  unfold Pool.conclude
  cases owner : d.owner with
  | caller t token => exact single (.answers ends owner)
  | round t =>
    have own : scope.round t := ends.round d ends.member rfl t owner
    exact .cons (.enters ends owner) (settleRound own (p.enter t d result))
  | reconnector t =>
    dsimp only
    cases found : p.reconnectors.find? fun r => r.ticket = t with
    | none =>
      refine single (.abandons ends owner fun r member mine => ?_)
      exact List.find?_eq_none.1 found r member (decide_eq_true mine)
    | some r =>
      have member : r ∈ p.reconnectors := List.mem_of_find?_eq_some found
      obtain rfl : r.ticket = t := by simpa using List.find?_some found
      cases result with
      | ok _ => exact single (.fills ends member owner (filled r member owner rfl))
      | error e =>
        have slept : Deed scope now p [.dialEnded d (.error e)]
            ((p.dropDial d.ticket).setReconnector r.ticket (r.failed now)) := .fails ends member owner
        change Deeds scope now p ([.dialEnded d (.error e)] ++
            ((p.dropDial d.ticket).advanceReconnector now r (.error e)).2)
          ((p.dropDial d.ticket).advanceReconnector now r (.error e)).1
        refine .cons slept ?_
        -- With its last attempt a reconnector fails and then gives up, which are two deeds.
        by_cases spent : (r.failed now).phase = .spent
        · have there : r.failed now ∈
              ((p.dropDial d.ticket).setReconnector r.ticket (r.failed now)).reconnectors :=
            List.mem_map.2 ⟨r, member, if_pos rfl⟩
          have same : (p.dropDial d.ticket).advanceReconnector now r (.error e) =
              ((p.dropDial d.ticket).setReconnector r.ticket (r.failed now)).giveUp (r.failed now) := by
            have unset : ((p.dropDial d.ticket).setReconnector r.ticket (r.failed now)).giveUp
                (r.failed now) = (p.dropDial d.ticket).giveUp (r.failed now) :=
              giveUp_setReconnector (r := r.failed now) rfl
            rw [unset]
            exact if_pos spent
          rw [same]
          exact single (.givesUp there spent)
        · have same : (p.dropDial d.ticket).advanceReconnector now r (.error e) =
              ((p.dropDial d.ticket).setReconnector r.ticket (r.failed now), []) := if_neg spent
          rw [same]
          exact .nil _

end Deeds

end CallPool.Pool
