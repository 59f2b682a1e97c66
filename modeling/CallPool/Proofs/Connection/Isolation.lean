import CallPool.Proofs.Connection.Lifecycle
import CallPool.Proofs.Connection.WriteFailures

/-!
# Waiters that share an ID

The registry has one place for each ID, and a waiter that ends takes away what stands under its ID,
whoever that is. Waiters are isolated from each other where no ID is registered again before the
waiter that had it has been dropped. Where one is, a waiter may be ousted: it loses its place to the
one that is registered next, or because another one with the ID ends, be it with its reply. A waiter
that is ousted gets no reply any more. On a connection that is live there is no other way to lose one
(`abandoned_iff_ousted`), so who ends there with the loss of the connection has been ousted.

Main statement: `waiters_lose_shared_ids_only`.
-/

set_option autoImplicit false

namespace CallPool.Connection

/-- Whether a moment takes its place under an ID from the waiter that stands there. -/
inductive Ousts (older : List Moment) (m : Moment) (t : Ticket) (id : CorrelationId) : Prop
  | displaced {t' : Ticket} (registered : Event.registered t' id ∈ m.events) : Ousts older m t id
  /-- Another waiter ends that was registered under the ID. -/
  | removed {t' : Ticket} (other : t' ≠ t) (registered : Event.registered t' id ∈ eventsOf older)
      (drops : Drops m.action m.events t') : Ousts older m t id

/-- Whether a waiter has lost its place under an ID to another waiter. -/
def Ousted (moments : List Moment) (t : Ticket) (id : CorrelationId) : Prop :=
  ∃ older m newer, moments = older ++ m :: newer ∧ (id, t) ∈ m.before.registry.entries ∧
    Ousts older m t id

/-- Whether no end of a waiter takes away the entry of another one, and no waiter ends with the loss
of the connection. -/
structure Isolated (moments : List Moment) : Prop where
  kept : ∀ m ∈ moments, ∀ t t' id, Drops m.action m.events t → t' ≠ t →
    (id, t') ∈ m.before.registry.entries → (id, t') ∈ m.after.registry.entries
  unlost : ∀ t i slot id, (i, .error (.connectionLost slot id)) ∉ endings moments t

/-- A party has been ousted if it was before, or if the last moment ousts it. -/
theorem ousted_concat {moments : List Moment} {m : Moment} {t : Ticket} {id : CorrelationId} :
    Ousted (moments ++ [m]) t id ↔ Ousted moments t id ∨
      (id, t) ∈ m.before.registry.entries ∧ Ousts moments m t id := by
  constructor
  · rintro ⟨older, m', newer, same, entered, ousts⟩
    rcases List.eq_nil_or_concat newer with rfl | ⟨front, last, rfl⟩
    · obtain ⟨rfl, last⟩ := List.append_inj' same rfl
      obtain rfl := List.singleton_inj.1 last
      exact .inr ⟨entered, ousts⟩
    · rw [List.concat_eq_append, ← List.cons_append, ← List.append_assoc] at same
      exact .inl ⟨older, m', front, (List.append_inj' same rfl).1, entered, ousts⟩
  · rintro (⟨older, m', newer, rfl, entered, ousts⟩ | ⟨entered, ousts⟩)
    · exact ⟨older, m', newer ++ [m], by simp, entered, ousts⟩
    · exact ⟨moments, m, [], rfl, entered, ousts⟩

/-- Who has been ousted stays so in whatever follows. -/
theorem Ousted.append {moments : List Moment} {t : Ticket} {id : CorrelationId}
    (ousted : Ousted moments t id) (moments' : List Moment) : Ousted (moments ++ moments') t id := by
  obtain ⟨older, m, newer, rfl, entered, ousts⟩ := ousted
  exact ⟨older, m, newer ++ moments', by simp, entered, ousts⟩

/-- With which slot and ID an outcome reports the loss of a connection. -/
def lossOf? : Outcome → Option (Nat × CorrelationId)
  | .error (.connectionLost slot id) => some (slot, id)
  | _ => none

/-- A party whose only ending is a loss has that ending. -/
theorem mem_endings_of_loss {moments : List Moment} {t : Ticket} {i slot : Nat} {id : CorrelationId}
    (only : (endings moments t).map (fun e => (e.1, lossOf? e.2)) = [(i, some (slot, id))]) :
    (i, .error (.connectionLost slot id)) ∈ endings moments t := by
  obtain ⟨ending, same, shape⟩ := List.map_eq_singleton_iff.1 only
  obtain ⟨rfl, loss⟩ := Prod.mk.inj shape
  have lost : ending.2 = .error (.connectionLost slot id) := by
    unfold lossOf? at loss
    split at loss
    · obtain ⟨rfl, rfl⟩ := Prod.mk.inj (Option.some.inj loss)
      assumption
    · cases loss
  rw [same, ← lost]
  exact List.mem_singleton_self ending

/-! ## One step -/

/-- Who ends because the connection is lost has been given up by whoever would have replied. -/
theorem Party.abandoned_of_ending? {p : Party} {slot slot' now : Nat} {id : CorrelationId}
    (ends : p.ending? slot now = some (.error (.connectionLost slot' id))) :
    p.purpose.id? = some id ∧ p.reply = .abandoned := by
  unfold ending? outcome? surrender? at ends
  grind

/-- Who is ready to end with a reply that was given up does not end well. -/
theorem Party.ending?_ne_ok {p : Party} {slot now : Nat} {id : CorrelationId} {answer : Answer}
    (waiting : p.purpose.id? = some id) (abandoned : p.reply = .abandoned) :
    p.ending? slot now ≠ some (.ok answer) := by
  unfold ending? outcome? surrender?
  grind

/-- What a waiter that queues no frame ends with is up to its reply. -/
theorem Party.ending?_wait {p : Party} {slot now : Nat} {id : CorrelationId}
    (waits : p.purpose = .wait id) (written : p.verdict = .written) :
    p.ending? slot now = match p.reply with
      | .awaited => none
      | .delivered response => some (.ok (.reply response))
      | .abandoned => some (.error (.connectionLost slot id)) := by
  unfold ending? outcome?
  rw [written, waits]
  cases p.reply <;> rfl

section Step

variable {c c' : Connection} {now : Nat} {a : Action} {es : List Event} {moments : List Moment}
  {t : Ticket} {id : CorrelationId}

/-- Who is dropped on a live connection leaves it, and nothing else happens. -/
theorem leaves_of_drops (coherent : Coherent c) (live : c.connected = true)
    (taken : c.step now a = some (c', es)) (drops : Drops a es t) :
    ∃ p ∈ c.parties, p.ticket = t ∧ c' = c.leave p ∧ (∀ t', Drops a es t' → t' = t) ∧
      ∀ t' response, Event.delivered t' response ∉ es := by
  rcases (Effect.of_step taken).of_drops drops with
    ⟨_, dead, _⟩ | ⟨p, member, rfl, ⟨rfl, rfl⟩ | ⟨outcome, rfl, _, rfl⟩⟩
  · rw [live] at dead
    cases dead
  · refine ⟨p, member, rfl, (leave_of_step coherent member (.inr rfl) taken).1, ?_, by simp⟩
    rintro t' (⟨_, told⟩ | cancels)
    · cases told
    · exact (Action.cancel.inj cancels).symm
  · refine ⟨p, member, rfl, (leave_of_step coherent member (.inl rfl) taken).1, ?_, by simp⟩
    rintro t' (⟨_, told⟩ | cancels)
    · exact (Event.finished.inj (List.mem_singleton.1 told)).1
    · cases cancels

/-- A party has the ID under which the past shows its registration. -/
theorem Account.id?_eq_some_iff (account : Account moments c) (coherent : Coherent c) {p : Party}
    (member : p ∈ c.parties) :
    p.purpose.id? = some id ↔ Event.registered p.ticket id ∈ eventsOf moments := by
  have there : p.wait ∈ c.waits := List.mem_map_of_mem member
  constructor
  · exact account.registered p.wait there id
  · intro registered
    obtain ⟨_, dropped | ⟨w, w_member, same, waiting⟩⟩ := account.present p.ticket id registered
    · exact absurd rfl ((account.gone p.ticket dropped).2 p.wait there)
    · rw [coherent.wait_unique w_member there same] at waiting
      exact waiting

/-- When a waiter is dropped, the entries of the others stay but for those under an ID that was its. -/
theorem entry_of_drops (coherent : Coherent c) (account : Account moments c) {t' : Ticket}
    (taken : c.step now a = some (c', es)) (drops : Drops a es t)
    (entered : (id, t') ∈ c.registry.entries) :
    (id, t') ∈ c'.registry.entries ↔ Event.registered t id ∉ eventsOf moments := by
  obtain ⟨p, member, rfl, rfl, -⟩ :=
    leaves_of_drops coherent (coherent.live_of_entry entered) taken drops
  rw [(departs_leave c p).registry, List.mem_filter, ← account.id?_eq_some_iff coherent member]
  simp [entered]

/-- Who is ousted is listed no more, and neither ends nor gets a reply in that moment. -/
theorem unlisted_of_ousts (coherent : Coherent c) (account : Account moments c)
    (taken : c.step now a = some (c', es)) (entered : (id, t) ∈ c.registry.entries)
    (ousts : Ousts moments ⟨now, a, es, c, c'⟩ t id) :
    (id, t) ∉ c'.registry.entries ∧ ¬ Drops a es t ∧
      ∀ response, Event.delivered t response ∉ es := by
  have live := coherent.live_of_entry entered
  have passage := Passage.of_step coherent taken
  cases ousts with
  | @displaced t' registered =>
    obtain ⟨rfl, -, -, w', w'_member, new, waiting⟩ := passage.registered t' id registered
    have below : t < c.nextTicket := by
      obtain ⟨w, member, rfl, -⟩ := (coherent.entry_iff id t).1 entered
      exact coherent.ticket_lt w member
    refine ⟨fun listed => ?_, fun drops => ?_, fun response told => ?_⟩
    · -- The new waiter is listed under the ID, and it is the only one.
      have coherent' : Coherent c' := coherent.of_effect (.of_step taken)
      rcases passage.origin w' w'_member with ⟨w, w_member, same, -⟩ | ⟨-, -, awaits, -⟩
      · exact absurd (same.symm.trans new) (Nat.ne_of_lt (coherent.ticket_lt w w_member))
      · have first := coherent'.find?_of_wait w'_member waiting awaits
        rw [(Registry.find?_eq_some_iff coherent'.ids_nodup).2 listed, new] at first
        exact absurd (Option.some.inj first) (Nat.ne_of_lt below)
    · rcases (Effect.of_step taken).of_drops drops with
        ⟨_, dead, _⟩ | ⟨_, _, _, ⟨_, rfl⟩ | ⟨_, _, _, rfl⟩⟩
      · rw [live] at dead
        cases dead
      · cases registered
      · cases List.mem_singleton.1 registered
    · rw [show es = _ from (passage.delivered t response told).1] at registered
      cases List.mem_singleton.1 registered
  | @removed t' other registered drops =>
    obtain ⟨-, -, -, -, alone, untold⟩ := leaves_of_drops coherent live taken drops
    refine ⟨fun listed => ?_, fun drops' => other (alone t drops').symm, untold t⟩
    exact (entry_of_drops coherent account taken drops entered).1 listed registered

end Step

/-! ## A run -/

section Run

variable {slot generation began now : Nat} {options : Options} {moments older newer : List Moment}
  {m : Moment} {t : Ticket} {id : CorrelationId} {c : Connection}

/-- A waiter that has been ousted awaits nothing any more, as long as it is there. -/
theorem abandoned_of_ousted
    (run : Run (Connection.opened slot generation options began) began moments now c)
    (ousted : Ousted moments t id) :
    t < c.nextTicket ∧
      ∀ p ∈ c.parties, p.ticket = t → p.purpose.id? = some id ∧ p.reply = .abandoned := by
  obtain ⟨older, m, newer, rfl, entered, ousts⟩ := ousted
  obtain ⟨past, taken, middle, upto, behind⟩ := run.at_moment
  have coherent := Coherent.of_run past
  have coherent' := Coherent.of_run upto
  have posted := Posted.of_run past
  obtain ⟨unlisted, stays, undelivered⟩ :=
    unlisted_of_ousts coherent (Account.of_run past) taken entered ousts
  obtain ⟨w, w_member, rfl, waiting, -⟩ := (coherent.entry_iff id t).1 entered
  obtain ⟨p, member, rfl⟩ := List.mem_map.1 w_member
  obtain ⟨p', member', goes_on, abandoned⟩ :=
    abandoned_of_unlisted coherent posted taken member entered unlisted stays undelivered
  have below : p.ticket < m.after.nextTicket := goes_on.ticket ▸ coherent'.party_lt member'
  refine ⟨Nat.lt_of_lt_of_le below (nextTicket_le_of_run behind coherent'), ?_⟩
  refine advance_along behind coherent' (posted.of_step coherent taken) below ?_ ?_
  · intro q q_member mine
    rw [coherent'.party_unique q_member member' (mine.trans goes_on.ticket.symm), goes_on.purpose]
    exact ⟨waiting, abandoned⟩
  · rintro m' q q' further ⟨own, given_up⟩
    rw [further.purpose]
    rcases further.reply with same | ⟨awaits, -⟩
    · exact ⟨own, same.trans given_up⟩
    · rw [given_up] at awaits
      cases awaits

/-- On a connection that is live a reply is given up only if the waiter has been ousted. -/
theorem ousted_of_abandoned {p : Party}
    (run : Run (Connection.opened slot generation options began) began moments now c)
    (live : c.connected = true) (member : p ∈ c.parties) (waiting : p.purpose.id? = some id)
    (abandoned : p.reply = .abandoned) : Ousted moments p.ticket id := by
  rcases (Career.of_run run p member).settled with awaits | ⟨m, m_member, settles⟩
  · rw [abandoned] at awaits
    cases awaits
  · rw [abandoned] at settles
    cases settles with
    | abandoned own entered given_up =>
      obtain rfl := Option.some.inj (own.symm.trans waiting)
      obtain ⟨older, newer, rfl⟩ := List.append_of_mem m_member
      obtain ⟨past, -, _, -, behind⟩ := run.at_moment
      refine ⟨older, m, newer, rfl, entered, ?_⟩
      cases given_up with
      | severed _ dead =>
        rw [(dead_of_run behind dead).2] at live
        cases live
      | displaced registered => exact .displaced registered
      | removed w_member other shares drops =>
        exact .removed other ((Account.of_run past).registered _ w_member _ shares) drops

/-- On a connection that is live a reply is given up exactly if the waiter has been ousted. -/
theorem abandoned_iff_ousted {p : Party}
    (run : Run (Connection.opened slot generation options began) began moments now c)
    (live : c.connected = true) (member : p ∈ c.parties) (waiting : p.purpose.id? = some id) :
    p.reply = .abandoned ↔ Ousted moments p.ticket id :=
  ⟨ousted_of_abandoned run live member waiting,
    fun ousted => ((abandoned_of_ousted run ousted).2 p member rfl).2⟩

/-- Who ends with the loss of a connection that is live has been ousted. -/
theorem ousted_of_lost {i slot' : Nat}
    (run : Run (Connection.opened slot generation options began) began moments now c)
    (live : c.connected = true) (lost : (i, .error (.connectionLost slot' id)) ∈ endings moments t) :
    Ousted moments t id := by
  obtain ⟨m, member, -, told⟩ := mem_endings.1 lost
  obtain ⟨older, newer, rfl⟩ := List.append_of_mem member
  obtain ⟨past, taken, -⟩ := run.at_moment
  have was_live := live_before run live
  rcases (Effect.of_step taken).of_finished told with ⟨-, dead⟩ | ⟨p, p_member, rfl, ends⟩
  · rw [was_live] at dead
    cases dead
  · obtain ⟨waiting, abandoned⟩ := Party.abandoned_of_ending? ends
    exact (ousted_of_abandoned past was_live p_member waiting abandoned).append _

/-- A waiter that has been ousted never ends well. -/
theorem unanswered_of_ousted {i : Nat} {answer : Answer}
    (run : Run (Connection.opened slot generation options began) began moments now c)
    (ousted : Ousted moments t id) : (i, .ok answer) ∉ endings moments t := by
  induction run with
  | start =>
    obtain ⟨older, m, newer, same, -⟩ := ousted
    simp at same
  | rest _ _ _ ih => exact ih ousted
  | @act moments now c c' a es past taken ih =>
    have coherent := Coherent.of_run past
    have account := Account.of_run past
    rw [endings_append, List.mem_append]
    rcases ousted_concat.1 ousted with earlier | ⟨entered, ousts⟩
    · rintro (early | last)
      · exact ih earlier early
      · obtain ⟨_, only, -, told⟩ := mem_endings.1 last
        obtain rfl := List.mem_singleton.1 only
        obtain ⟨below, abandoned⟩ := abandoned_of_ousted past earlier
        rcases (Effect.of_step taken).of_finished told with ⟨same, -⟩ | ⟨p, member, mine, ends⟩
        · exact absurd same (Nat.ne_of_lt below)
        · obtain ⟨own, given_up⟩ := abandoned p member mine
          exact Party.ending?_ne_ok own given_up ends
    · obtain ⟨-, stays, -⟩ := unlisted_of_ousts coherent account taken entered ousts
      obtain ⟨w, w_member, rfl, -⟩ := (coherent.entry_iff id t).1 entered
      rintro (early | last)
      · have dropped : Dropped moments w.ticket := dropped_iff.2 (.inl (List.ne_nil_of_mem early))
        exact (account.gone w.ticket dropped).2 w w_member rfl
      · obtain ⟨_, only, -, told⟩ := mem_endings.1 last
        obtain rfl := List.mem_singleton.1 only
        exact stays (.inl ⟨_, told⟩)

/-- Where IDs are distinct while they are held nobody is ousted. -/
theorem not_ousted_of_distinct
    (run : Run (Connection.opened slot generation options began) began moments now c)
    (distinct : DistinctWhileHeld moments) : ¬ Ousted moments t id := by
  rintro ⟨older, m, newer, rfl, entered, ousts⟩
  obtain ⟨past, taken, -⟩ := run.at_moment
  have coherent := Coherent.of_run past
  have account := Account.of_run past
  obtain ⟨w, member, rfl, waiting, -⟩ := (coherent.entry_iff id t).1 entered
  cases ousts with
  | displaced registered =>
    have dropped := distinct older m newer _ w.ticket id rfl registered
      (account.registered w member id waiting)
    exact (account.gone w.ticket dropped).2 w member rfl
  | @removed t' other registered drops =>
    obtain ⟨p, p_member, rfl, -⟩ :=
      leaves_of_drops coherent (coherent.live_of_entry entered) taken drops
    have shares := (account.id?_eq_some_iff coherent p_member).2 registered
    have apart := Apart.of_run past distinct.of_append
    have same := apart.id_unique p.wait (List.mem_map_of_mem p_member) w member id shares waiting
    exact other (congrArg Wait.ticket same)

/-- Where IDs are distinct while they are held nobody ends with the loss of a connection that is live. -/
theorem not_lost_of_distinct
    (run : Run (Connection.opened slot generation options began) began moments now c)
    (live : c.connected = true) (distinct : DistinctWhileHeld moments) (t : Ticket) (slot' : Nat)
    (id : CorrelationId) : Event.finished t (.error (.connectionLost slot' id)) ∉ eventsOf moments := by
  intro told
  obtain ⟨m, member, seen⟩ := mem_eventsOf.1 told
  have lost : (m.instant, .error (.connectionLost slot' id)) ∈ endings moments t :=
    mem_endings.2 ⟨m, member, rfl, seen⟩
  exact not_ousted_of_distinct run distinct (ousted_of_lost run live lost)

/-- The verdict on a waiter that queues no frame is there when it comes. -/
theorem written_of_wait {c' : Connection} {es : List Event} (coherent : Coherent c)
    (taken : c.step now (.wait id) = some (c', es)) :
    ∀ p ∈ c'.parties, p.ticket = c.nextTicket → p.purpose = .wait id ∧ p.verdict = .written := by
  intro p member new
  have errand : p.errand ∈ c'.errands := List.mem_map_of_mem member
  cases Takes.of_step taken with
  | waits entered =>
    rw [(Dispatch.register?_frames entered).1] at errand
    rcases List.mem_append.1 errand with older | last
    · exact absurd new (Nat.ne_of_lt (coherent.errand_lt older))
    · have same := List.mem_singleton.1 last
      exact ⟨congrArg Errand.purpose same, congrArg Errand.verdict same⟩
  | refuses _ _ => exact absurd new (Nat.ne_of_lt (coherent.party_lt member))
  | turnsAway _ => exact absurd new (Nat.ne_of_lt (coherent.party_lt member))
  | endsReader how => cases how
  | fails _ how => cases how
  | endsWriter how =>
    cases how with
    | spoiled _ how => cases how

/-- A party that waits for a reply under an ID does nothing else, as long as it is there. -/
theorem wait_along
    (run : Run (Connection.opened slot generation options began) began (older ++ m :: newer) now c)
    (waits : m.action = .wait id) :
    ∀ p ∈ c.parties, p.ticket = m.before.nextTicket → p.purpose = .wait id ∧ p.verdict = .written := by
  obtain ⟨past, taken, middle, upto, behind⟩ := run.at_moment
  have below := nextTicket_lt_of_joins upto (by rw [waits]; trivial)
  refine advance_along behind (Coherent.of_run upto) (Posted.of_run upto) below ?_ ?_
  · rw [waits] at taken
    exact written_of_wait (Coherent.of_run past) taken
  · rintro m' p p' goes_on ⟨purpose, verdict⟩
    rcases goes_on.verdict with same | ⟨awaits, -⟩
    · exact ⟨goes_on.purpose.trans purpose, same.trans verdict⟩
    · rw [verdict] at awaits
      cases awaits

/-- What a party that waits for a reply under an ID ends with. -/
theorem ending_of_wait {ending : Nat × Outcome}
    (run : Run (Connection.opened slot generation options began) began (older ++ m :: newer) now c)
    (live : c.connected = true) (waits : m.action = .wait id)
    (seen : ending ∈ endings (older ++ m :: newer) m.before.nextTicket) :
    ending.2 = .error (.connectionLost slot id) ∨ ∃ response, ending.2 = .ok (.reply response) := by
  obtain ⟨mid, m', later, rfl, -, told⟩ := later_of_ending run (live_before run live) seen
  have cut : older ++ m :: (mid ++ m' :: later) = (older ++ m :: mid) ++ m' :: later := by simp
  rw [cut] at run
  obtain ⟨past, -, -⟩ := run.at_moment
  have below := nextTicket_lt_of_joins past (by rw [waits]; trivial)
  obtain ⟨p, member, mine, ends⟩ := party_of_finished run below told
  obtain ⟨purpose, written⟩ := wait_along past waits p member mine
  rw [Party.ending?_wait purpose written] at ends
  cases reply : p.reply with
  | awaited => simp [reply] at ends
  | delivered response =>
    simp only [reply, Option.some.injEq] at ends
    exact .inr ⟨response, ends.symm⟩
  | abandoned =>
    simp only [reply, Option.some.injEq] at ends
    exact .inl ends.symm

/-- A party that waits for a reply under an ID on a live connection is ready to end with the loss of
the connection, or has ended so, exactly if it has been ousted. -/
theorem lost_iff_ousted_of_wait
    (run : Run (Connection.opened slot generation options began) began (older ++ m :: newer) now c)
    (live : c.connected = true) (waits : m.action = .wait id) :
    (∀ p ∈ c.parties, p.ticket = m.before.nextTicket →
      (p.ending? slot now = some (.error (.connectionLost slot id)) ↔
        Ousted (older ++ m :: newer) m.before.nextTicket id)) ∧
    ∀ ending ∈ endings (older ++ m :: newer) m.before.nextTicket,
      (ending.2 = .error (.connectionLost slot id) ↔
        Ousted (older ++ m :: newer) m.before.nextTicket id) := by
  constructor
  · intro p member mine
    obtain ⟨purpose, written⟩ := wait_along run waits p member mine
    rw [← mine, ← abandoned_iff_ousted run live member (by rw [purpose]; rfl),
      Party.ending?_wait purpose written]
    cases p.reply <;> simp
  · rintro ⟨i, outcome⟩ seen
    constructor
    · rintro rfl
      exact ousted_of_lost run live seen
    · intro ousted
      rcases ending_of_wait run live waits seen with lost | ⟨response, rfl⟩
      · exact lost
      · exact absurd seen (unanswered_of_ousted run ousted)

/-- The registry of a live connection lists the waiters that are outstanding and have not been ousted. -/
theorem entry_iff_not_ousted
    (run : Run (Connection.opened slot generation options began) began moments now c)
    (live : c.connected = true) :
    (id, t) ∈ c.registry.entries ↔ Outstanding moments t id ∧ ¬ Ousted moments t id := by
  rw [(Coherent.of_run run).entry_iff, outstanding_iff (Account.of_run run)]
  have given_up_iff : ∀ w ∈ c.waits, w.purpose.id? = some id →
      (w.reply = .abandoned ↔ Ousted moments w.ticket id) := by
    intro w member waiting
    obtain ⟨p, p_member, rfl⟩ := List.mem_map.1 member
    exact abandoned_iff_ousted run live p_member waiting
  constructor
  · rintro ⟨w, member, rfl, waiting, awaits⟩
    rw [← given_up_iff w member waiting, awaits]
    exact ⟨⟨w, member, rfl, waiting, by simp [awaits]⟩, nofun⟩
  · rintro ⟨⟨w, member, rfl, waiting, unanswered⟩, in_place⟩
    rw [← given_up_iff w member waiting] at in_place
    refine ⟨w, member, rfl, waiting, ?_⟩
    cases reply : w.reply with
    | awaited => rfl
    | delivered response => exact absurd reply (unanswered response)
    | abandoned => exact absurd reply in_place

/-- Where nobody is ousted waiters are isolated. -/
theorem isolated_of_not_ousted
    (run : Run (Connection.opened slot generation options began) began moments now c)
    (live : c.connected = true) (in_place : ∀ t id, ¬ Ousted moments t id) : Isolated moments where
  kept := by
    intro m member t t' id drops other entered
    obtain ⟨older, newer, rfl⟩ := List.append_of_mem member
    obtain ⟨past, taken, -⟩ := run.at_moment
    rw [entry_of_drops (Coherent.of_run past) (Account.of_run past) taken drops entered]
    intro registered
    exact in_place t' id ⟨older, m, newer, rfl, entered, .removed other.symm registered drops⟩
  unlost := fun t i slot id lost => in_place t id (ousted_of_lost run live lost)

/-- On a connection that has not been lost or closed, whatever its waiters do and whatever comes in: the
end of a waiter takes away the entry under each ID that it was registered under, whoever has that, and no
other. So the registry lists the waiters that are outstanding, but for those who have been ousted by
another one with their ID. Who ends with the loss of the connection has been ousted, and who has been
ousted never ends well; a party that only waits for a reply under an ID ends with the loss of the
connection, and is ready to, exactly if it has been ousted. Nobody is, and waiters are isolated, where
IDs are distinct while they are held, as generated IDs are (`GeneratedIds.distinct`). -/
theorem waiters_lose_shared_ids_only
    (run : Run (Connection.opened slot generation options began) began moments now c)
    (live : c.connected = true) :
    (∀ older m newer t t' id, moments = older ++ m :: newer → Drops m.action m.events t →
      (id, t') ∈ m.before.registry.entries →
        ((id, t') ∈ m.after.registry.entries ↔ Event.registered t id ∉ eventsOf older)) ∧
    (∀ id t, (id, t) ∈ c.registry.entries ↔ Outstanding moments t id ∧ ¬ Ousted moments t id) ∧
    (∀ t i slot' id, (i, .error (.connectionLost slot' id)) ∈ endings moments t →
      Ousted moments t id) ∧
    (∀ t i answer id, (i, .ok answer) ∈ endings moments t → ¬ Ousted moments t id) ∧
    (∀ m ∈ moments, ∀ id, m.action = .wait id →
      (∀ p ∈ c.parties, p.ticket = m.before.nextTicket →
        (p.ending? slot now = some (.error (.connectionLost slot id)) ↔
          Ousted moments m.before.nextTicket id)) ∧
      ∀ ending ∈ endings moments m.before.nextTicket,
        (ending.2 = .error (.connectionLost slot id) ↔ Ousted moments m.before.nextTicket id)) ∧
    (DistinctWhileHeld moments → (∀ t id, ¬ Ousted moments t id) ∧ Isolated moments) := by
  refine ⟨?_, fun id t => entry_iff_not_ousted run live, fun t i slot' id => ousted_of_lost run live,
    fun t i answer id well ousted => unanswered_of_ousted run ousted well, ?_, ?_⟩
  · rintro older m newer t t' id rfl drops entered
    obtain ⟨past, taken, -⟩ := run.at_moment
    exact entry_of_drops (Coherent.of_run past) (Account.of_run past) taken drops entered
  · intro m member id waits
    obtain ⟨older, newer, rfl⟩ := List.append_of_mem member
    exact lost_iff_ousted_of_wait run live waits
  · intro distinct
    have in_place : ∀ t id, ¬ Ousted moments t id := fun t id => not_ousted_of_distinct run distinct
    exact ⟨in_place, isolated_of_not_ousted run live in_place⟩

end Run

/-- A waiter has its reply, and before it looks at it its ID is registered again; then an ID is registered
twice at a time. All who wait end. -/
def reusedIds : List (Nat × Action) := [
  (0, .wait ⟨"x"⟩), (0, .receive (.text "\x7b\"id\":\"x\"\x7d")), (0, .wait ⟨"x"⟩),
  (1, .wake 0), (1, .wake 1), (2, .wait ⟨"y"⟩), (2, .wait ⟨"y"⟩), (3, .wake 2), (3, .wake 3)]

/-- The first waiter ends with its reply, and all others with the loss of a connection that is live: the
second because the first has ended, the third because the fourth is registered, and the fourth because
the third has ended. -/
theorem ousted_of_reusedIds : ∃ moments now c,
    Run (Connection.opened 0 0 .default 0) 0 moments now c ∧ c.connected = true ∧
      (endings moments 0).map (fun e => (e.1, e.2.toOption.isSome)) = [(1, true)] ∧
      Ousted moments 1 ⟨"x"⟩ ∧ Ousted moments 2 ⟨"y"⟩ ∧ Ousted moments 3 ⟨"y"⟩ ∧
      ¬ Isolated moments := by
  have played : ((History.play step (Connection.opened 0 0 .default 0) reusedIds).map fun r =>
      decide (r.2.connected = true ∧
        (endings r.1 0).map (fun e => (e.1, e.2.toOption.isSome)) = [(1, true)] ∧
        (endings r.1 1).map (fun e => (e.1, lossOf? e.2)) = [(1, some (0, ⟨"x"⟩))] ∧
        (endings r.1 2).map (fun e => (e.1, lossOf? e.2)) = [(3, some (0, ⟨"y"⟩))] ∧
        (endings r.1 3).map (fun e => (e.1, lossOf? e.2)) = [(3, some (0, ⟨"y"⟩))])) = some true := by
    decide
  obtain ⟨⟨moments, c⟩, went, computed⟩ := Option.map_eq_some_iff.1 played
  obtain ⟨live, replied, second, third, fourth⟩ := of_decide_eq_true computed
  have run := History.of_play went (show History.inOrder 0 reusedIds = true by decide)
  have lost := (waiters_lose_shared_ids_only run live).2.2.1
  exact ⟨moments, _, c, run, live, replied, lost _ _ _ _ (mem_endings_of_loss second),
    lost _ _ _ _ (mem_endings_of_loss third), lost _ _ _ _ (mem_endings_of_loss fourth),
    fun isolated => isolated.unlost _ _ _ _ (mem_endings_of_loss second)⟩

end CallPool.Connection
