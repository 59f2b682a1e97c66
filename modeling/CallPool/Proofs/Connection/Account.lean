import CallPool.Proofs.Connection.WaiterSteps

/-!
# The past accounts for the parties

The events of a run say what became of each waiter: who is registered and has not been dropped is
still a party, who has been dropped never is one again, and a reply is there exactly if the past
shows its delivery (`Account.of_run`). A waiter that awaits no reply any more never does so again
(`settled_of_run`), and a connection that is dead stays dead (`dead_of_run`), as one is that has told
of its loss (`dead_of_lost_in_run`).
-/

set_option autoImplicit false

namespace CallPool.Connection

/-- Whether the party with a ticket has been dropped in a run. -/
def Dropped (moments : List Moment) (t : Ticket) : Prop := ∃ m ∈ moments, Drops m.action m.events t

/-- A party is dropped in one run behind another if it is dropped in either. -/
theorem dropped_append {moments moments' : List Moment} {t : Ticket} :
    Dropped (moments ++ moments') t ↔ Dropped moments t ∨ Dropped moments' t := by
  simp [Dropped, or_and_right, exists_or]

/-- A party is dropped in a run of one moment if that moment drops it. -/
theorem dropped_singleton {m : Moment} {t : Ticket} :
    Dropped [m] t ↔ Drops m.action m.events t := by
  simp [Dropped]

/-- What the moments of a run say of the parties that are there behind them. -/
structure Account (moments : List Moment) (c : Connection) : Prop where
  registered : ∀ w ∈ c.waits, ∀ id, w.purpose.id? = some id →
    Event.registered w.ticket id ∈ eventsOf moments
  present : ∀ t id, Event.registered t id ∈ eventsOf moments → t < c.nextTicket ∧
    (Dropped moments t ∨ ∃ w ∈ c.waits, w.ticket = t ∧ w.purpose.id? = some id)
  gone : ∀ t, Dropped moments t → t < c.nextTicket ∧ ∀ w ∈ c.waits, w.ticket ≠ t
  reply : ∀ w ∈ c.waits, ∀ response, w.reply = .delivered response ↔
    Event.delivered w.ticket response ∈ eventsOf moments
  delivered_lt : ∀ t response, Event.delivered t response ∈ eventsOf moments → t < c.nextTicket

namespace Account

variable {moments : List Moment} {c c' : Connection} {now : Nat} {a : Action} {es : List Event}

/-- A connection that has just been opened has nothing to account for. -/
theorem opened (slot generation : Nat) (options : Options) (now : Nat) :
    Account [] (Connection.opened slot generation options now) where
  registered := nofun
  present := nofun
  gone := by
    rintro _ ⟨_, member, _⟩
    cases member
  reply := nofun
  delivered_lt := nofun

/-- One more action keeps the account right. -/
theorem extend (h : Account moments c) (coherent : Coherent c) (passage : Passage c a es c') :
    Account (moments ++ [⟨now, a, es, c, c'⟩]) c' where
  registered := by
    intro w' member id waiting
    rw [eventsOf_append, List.mem_append, eventsOf_cons, eventsOf_nil, List.append_nil]
    rcases passage.origin w' member with ⟨w, w_member, same, purpose, _⟩ | ⟨_, _, _, _, told⟩
    · rw [purpose] at waiting
      rw [same]
      exact .inl (h.registered w w_member id waiting)
    · exact .inr (told id waiting)
  present := by
    intro t id told
    rw [eventsOf_append, List.mem_append, eventsOf_cons, eventsOf_nil, List.append_nil] at told
    rw [dropped_append, dropped_singleton]
    rcases told with older | now
    · obtain ⟨below, was⟩ := h.present t id older
      refine ⟨Nat.lt_of_lt_of_le below passage.nextTicket_le, ?_⟩
      rcases was with dropped | ⟨w, member, rfl, waiting⟩
      · exact .inl (.inl dropped)
      · rcases passage.kept w member with drops | ⟨w', member', same, purpose⟩
        · exact .inl (.inr drops)
        · exact .inr ⟨w', member', same, by rw [purpose]; exact waiting⟩
    · obtain ⟨_, below, _, there⟩ := passage.registered t id now
      exact ⟨below, .inr there⟩
  gone := by
    intro t dropped
    rw [dropped_append, dropped_singleton] at dropped
    rcases dropped with older | now
    · obtain ⟨below, absent⟩ := h.gone t older
      refine ⟨Nat.lt_of_lt_of_le below passage.nextTicket_le, ?_⟩
      intro w' member
      rcases passage.origin w' member with ⟨w, w_member, same, _⟩ | ⟨same, _⟩
      · rw [same]
        exact absent w w_member
      · rw [same]
        exact Nat.ne_of_gt below
    · exact passage.gone t now
  reply := by
    intro w' member response
    rw [eventsOf_append, List.mem_append, eventsOf_cons, eventsOf_nil, List.append_nil]
    rcases passage.origin w' member with ⟨w, w_member, same, _, _, came⟩ | ⟨same, _, awaits, _⟩
    · rw [came, h.reply w w_member, same]
    · rw [awaits]
      refine ⟨nofun, ?_⟩
      -- A new ticket is one that neither the past nor the registry knows.
      rintro (older | now)
      · have below := h.delivered_lt _ _ older
        exact absurd same (Nat.ne_of_lt below)
      · obtain ⟨_, _, id, _, _, _, found⟩ := passage.delivered _ _ now
        rw [same] at found
        exact absurd found (coherent.find?_ne_nextTicket id)
  delivered_lt := by
    intro t response told
    rw [eventsOf_append, List.mem_append, eventsOf_cons, eventsOf_nil, List.append_nil] at told
    apply Nat.lt_of_lt_of_le _ passage.nextTicket_le
    rcases told with older | now
    · exact h.delivered_lt t response older
    · obtain ⟨_, _, id, _, _, _, found⟩ := passage.delivered t response now
      obtain ⟨w, member, rfl, _⟩ := coherent.wait_of_find? found
      exact coherent.ticket_lt w member

/-- In every state of a run the past accounts for the parties. -/
theorem of_run {slot generation began : Nat} {options : Options}
    (run : Run (Connection.opened slot generation options began) began moments now c) :
    Account moments c :=
  run.induct_moments (opened slot generation options began) fun _ _ _ _ _ _ past h taken =>
    h.extend (Coherent.of_run past) (.of_step (Coherent.of_run past) taken)

end Account

/-! ## What stays for good -/

variable {c c' : Connection} {began now : Nat} {moments : List Moment}

/-- A dead connection stays dead. -/
theorem dead_of_effect {a : Action} {es : List Event} (effect : Effect c now c' a es)
    (dead : c.connected = false) : c'.connected = false := by
  cases effect with
  | traffic same _ _ _ => rw [same.connected, dead]
  | closed same => rw [same]; rfl
  | lost _ same _ _ => rw [same.connected]; rfl
  | registered _ _ entered _ _ =>
    rw [(Coherent.waits_of_register? entered).1] at dead
    cases dead
  | sent live _ _ =>
    rw [live] at dead
    cases dead
  | refused _ same _ _ => rw [same]; exact dead
  | @left _ _ p _ same _ => rw [same, (Coherent.waits_leave c p).1, dead]
  | delivered _ _ _ same => rw [same.connected]; exact dead

/-- A connection that is dead is dead in every state behind. -/
theorem dead_of_run (run : Run c began moments now c') (dead : c.connected = false) :
    (∀ m ∈ moments, m.after.connected = false) ∧ c'.connected = false := by
  induction run with
  | start => exact ⟨by simp, dead⟩
  | act _ taken ih =>
    have dead' := dead_of_effect (.of_step taken) ih.2
    refine ⟨?_, dead'⟩
    intro m member
    rcases List.mem_append.1 member with older | last
    · exact ih.1 m older
    · rw [List.mem_singleton.1 last]
      exact dead'
  | rest _ _ _ ih => exact ih

/-- A connection that is live was live before every moment behind it. -/
theorem live_before {older newer : List Moment} {m : Moment}
    (run : Run c began (older ++ m :: newer) now c') (live : c'.connected = true) :
    m.before.connected = true := by
  by_contra dead
  rw [(dead_of_run run.onwards (Bool.eq_false_iff.2 dead)).2] at live
  cases live

/-- No action changes the place of which a connection would notify. -/
theorem place_of_effect {a : Action} {es : List Event} (effect : Effect c now c' a es) :
    c'.notice = c.notice := by
  have same_place : ∀ {d : Connection}, SameWaits d c' → d.notice = c.notice → c'.notice = c.notice := by
    intro d same place
    rw [← place]
    unfold notice
    rw [same.slot, same.generation]
  cases effect with
  | traffic same _ _ _ => exact same_place same rfl
  | closed same => rw [same]; rfl
  | lost _ same _ _ => exact same_place same rfl
  | @registered _ _ purpose verdict id r _ _ entered same _ =>
    apply same_place same
    unfold register? at entered
    split at entered
    · cases entered
      rfl
    · cases entered
  | sent _ same _ => exact same_place same rfl
  | refused _ same _ _ => rw [same]; rfl
  | @left _ _ p _ same _ =>
    rw [same]
    unfold leave
    cases p.purpose.id? <;> rfl
  | delivered _ _ _ same => exact same_place same rfl

/-- No run changes the place of which a connection would notify. -/
theorem place_of_run (run : Run c began moments now c') : c'.notice = c.notice := by
  induction run with
  | start => rfl
  | act _ taken ih => exact (place_of_effect (.of_step taken)).trans ih
  | rest _ _ _ ih => exact ih

/-- Only a connection that dies tells that it is lost, and it tells of itself. -/
theorem dead_of_lost {a : Action} {es : List Event} {n : Notice} (effect : Effect c now c' a es)
    (told : Event.lost n ∈ es) : n = c.notice ∧ c'.connected = false := by
  have untold : ∀ {es : List Event}, (∀ e ∈ es, e.isTraffic = true) → Event.lost n ∉ es := by
    intro es quiet member
    cases quiet _ member
  cases effect with
  | traffic _ quiet _ _ => exact absurd told (untold quiet)
  | closed _ => cases told
  | @lost _ es _ same quiet _ =>
    rcases List.mem_append.1 told with early | last
    · exact absurd early (untold quiet)
    · cases List.mem_singleton.1 last
      exact ⟨rfl, same.connected⟩
  | registered _ _ _ _ quiet =>
    rcases List.mem_cons.1 told with first | rest
    · cases first
    · exact absurd rest (untold quiet)
  | sent _ _ quiet => exact absurd told (untold quiet)
  | refused _ _ kind _ =>
    rw [List.mem_singleton] at told
    rcases kind with rfl | rfl
    · cases told
    · cases told
  | left _ _ how =>
    rcases how with ⟨_, rfl⟩ | ⟨_, _, _, rfl⟩
    · cases told
    · cases List.mem_singleton.1 told
  | delivered _ _ _ _ => cases List.mem_singleton.1 told

/-- A connection that has told that it is lost is dead, and has told of itself. -/
theorem dead_of_lost_in_run {n : Notice} (run : Run c began moments now c')
    (told : Event.lost n ∈ eventsOf moments) : n = c'.notice ∧ c'.connected = false := by
  obtain ⟨older, m, newer, rfl, seen⟩ := exists_moment_of_mem_eventsOf told
  obtain ⟨past, taken, _, _, behind⟩ := run.at_moment
  obtain ⟨same, dead⟩ := dead_of_lost (.of_step taken) seen
  refine ⟨?_, (dead_of_run behind dead).2⟩
  rw [same, place_of_run run, place_of_run past]

/-- The tickets of a connection never run back. -/
theorem nextTicket_le_of_run (run : Run c began moments now c') (coherent : Coherent c) :
    c.nextTicket ≤ c'.nextTicket :=
  run.induct_moments (Nat.le_refl _) fun _ _ _ _ _ _ past earlier taken =>
    Nat.le_trans earlier (Passage.of_step (coherent.along past) taken).nextTicket_le

/-- Whoever joins takes a ticket, and be it to be refused. -/
theorem nextTicket_of_joins {a : Action} {es : List Event} (joins : a.Joins)
    (taken : c.step now a = some (c', es)) : c'.nextTicket = c.nextTicket + 1 := by
  cases Takes.of_step taken with
  | calls entered =>
    obtain ⟨_, _, next, _⟩ := Coherent.waits_of_register? entered
    rw [(SameWaits.enqueue _ _).nextTicket, next]
  | sends _ => exact (SameWaits.enqueue (c.join .send .awaited) _).nextTicket
  | waits entered =>
    obtain ⟨_, _, next, _⟩ := Coherent.waits_of_register? entered
    exact next
  | refuses _ _ => rfl
  | turnsAway _ => rfl
  | endsReader how => cases how <;> cases joins
  | fails _ how => cases how <;> cases joins
  | endsWriter how =>
    cases how with
    | parted _ => cases joins
    | spoiled _ how => cases how <;> cases joins
    | forced _ _ => cases joins
  | _ => cases joins

/-- Only a party that joins makes a connection tell an event. -/
def Event.TellsJoining (e : Event) : Prop :=
  ∀ {c c' : Connection} {now : Nat} {a : Action} {es : List Event}, Coherent c →
    c.step now a = some (c', es) → e ∈ es → a.Joins

/-- A registration tells that a party joins. -/
theorem tellsJoining_registered (t : Ticket) (id : CorrelationId) :
    (Event.registered t id).TellsJoining := by
  intro c c' now a es coherent taken told
  obtain ⟨_, _, starts, _⟩ := (Passage.of_step coherent taken).registered t id told
  rcases starts with ⟨_, _, rfl⟩ | rfl
  · trivial
  · trivial

/-- Where it is told that a party joins, some action lets one join. -/
theorem Event.TellsJoining.exists_joins {e : Event} (joining : e.TellsJoining)
    (run : Run c began moments now c') (coherent : Coherent c) (told : e ∈ eventsOf moments) :
    ∃ m ∈ moments, m.action.Joins := by
  obtain ⟨older, m, newer, rfl, seen⟩ := exists_moment_of_mem_eventsOf told
  obtain ⟨past, taken, _⟩ := run.at_moment
  exact ⟨m, by simp, joining (coherent.along past) taken seen⟩

/-- Where nobody joins, whoever is there was there before, and has not been dropped. -/
theorem ticket_of_run (run : Run c began moments now c') (coherent : Coherent c)
    (nobody : ∀ m ∈ moments, ¬ m.action.Joins) :
    ∀ w' ∈ c'.waits, (∃ w ∈ c.waits, w.ticket = w'.ticket) ∧ ¬ Dropped moments w'.ticket := by
  induction run with
  | start => exact fun w member => ⟨⟨w, member, rfl⟩, by simp [Dropped]⟩
  | act past taken ih =>
    have there := ih fun m member => nobody m (List.mem_append_left _ member)
    have passage := Passage.of_step (coherent.along past) taken
    intro w' member
    rcases passage.origin w' member with ⟨w, w_member, same, _⟩ | ⟨_, _, _, joins, _⟩
    · rw [dropped_append, dropped_singleton, same]
      refine ⟨(there w w_member).1, ?_⟩
      rintro (earlier | last)
      · exact (there w w_member).2 earlier
      · exact (passage.gone _ last).2 w' member same
    · exact absurd joins (nobody _ (List.mem_append_right _ (List.mem_singleton_self _)))
  | rest _ _ _ ih => exact ih nobody

/-- Whether nobody with a ticket awaits a reply, now or later. -/
def Settled (c : Connection) (t : Ticket) : Prop :=
  t < c.nextTicket ∧ ∀ w ∈ c.waits, w.ticket = t → w.reply ≠ .awaited

/-- What has been settled for a ticket stays settled. -/
theorem settled_of_step {a : Action} {es : List Event} {t : Ticket} (coherent : Coherent c)
    (taken : c.step now a = some (c', es)) (settled : Settled c t) : Settled c' t := by
  have passage := Passage.of_step coherent taken
  refine ⟨Nat.lt_of_lt_of_le settled.1 passage.nextTicket_le, ?_⟩
  intro w' member mine still
  rcases passage.origin w' member with ⟨w, w_member, same, _, earlier, _⟩ | ⟨same, _⟩
  · exact settled.2 w w_member (same.symm.trans mine) (earlier still)
  · exact Nat.ne_of_lt settled.1 (mine.symm.trans same)

/-- A waiter that awaits no reply any more never does so again. -/
theorem settled_of_run {t : Ticket} (run : Run c began moments now c') (coherent : Coherent c)
    (settled : Settled c t) : Settled c' t :=
  run.induct_moments settled fun _ _ _ _ _ _ past settled taken =>
    settled_of_step (coherent.along past) taken settled

end CallPool.Connection
