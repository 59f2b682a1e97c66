import CallPool.Proofs.Connection.Advance

/-!
# Parties in a run

What no single action undoes in a party stays as long as the party does (`advance_along`), the past
says how each verdict and reply came about (`Career.of_run`), and a party ends at most once, or is
cancelled (`endings_once`).
-/

set_option autoImplicit false

namespace CallPool.Connection

/-- The outcome that an event reports for the party with a ticket. -/
def Event.outcome? (t : Ticket) : Event → Option Outcome
  | .finished t' outcome => if t' = t then some outcome else none
  | _ => none

/-- The outcomes in a run of the party with a ticket, and their instants. -/
def endings (moments : List Moment) (t : Ticket) : List (Nat × Outcome) :=
  moments.flatMap fun m => (m.events.filterMap (Event.outcome? t)).map fun o => (m.instant, o)

/-- The party with a ticket has been cancelled. -/
def Cancelled (moments : List Moment) (t : Ticket) : Prop := ∃ m ∈ moments, m.action = .cancel t

/-- An event tells the outcome of a party exactly if it tells that the party has finished with it. -/
theorem Event.outcome?_eq_some_iff {t : Ticket} {e : Event} {outcome : Outcome} :
    e.outcome? t = some outcome ↔ e = .finished t outcome := by
  cases e with
  | finished t' o => by_cases mine : t' = t <;> simp [outcome?, mine]
  | _ => simp [outcome?]

/-- The endings of a party are those that are told of it, at the instants of their moments. -/
theorem mem_endings {moments : List Moment} {t : Ticket} {i : Nat} {outcome : Outcome} :
    (i, outcome) ∈ endings moments t ↔
      ∃ m ∈ moments, m.instant = i ∧ Event.finished t outcome ∈ m.events := by
  simp only [endings, List.mem_flatMap, List.mem_map, List.mem_filterMap, Prod.mk.injEq,
    Event.outcome?_eq_some_iff]
  constructor
  · rintro ⟨m, member, o, ⟨e, told, rfl⟩, rfl, rfl⟩
    exact ⟨m, member, rfl, told⟩
  · rintro ⟨m, member, rfl, told⟩
    exact ⟨m, member, outcome, ⟨_, told, rfl⟩, rfl, rfl⟩

/-- The endings in one run behind another are those of both, in order. -/
theorem endings_append (moments moments' : List Moment) (t : Ticket) :
    endings (moments ++ moments') t = endings moments t ++ endings moments' t := by
  simp [endings]

/-- Who is dropped ends or is cancelled. -/
theorem dropped_iff {moments : List Moment} {t : Ticket} :
    Dropped moments t ↔ endings moments t ≠ [] ∨ Cancelled moments t := by
  constructor
  · rintro ⟨m, member, ⟨outcome, told⟩ | cancels⟩
    · exact .inl (List.ne_nil_of_mem (mem_endings.2 ⟨m, member, rfl, told⟩))
    · exact .inr ⟨m, member, cancels⟩
  · rintro (ended | ⟨m, member, cancels⟩)
    · obtain ⟨⟨i, outcome⟩, seen⟩ := List.exists_mem_of_ne_nil _ ended
      obtain ⟨m, member, -, told⟩ := mem_endings.1 seen
      exact ⟨m, member, .inl ⟨outcome, told⟩⟩
    · exact ⟨m, member, .inr cancels⟩

section Step

variable {c c' : Connection} {now : Nat} {a : Action} {es : List Event}

/-- A party that is dropped is one that comes to a dead connection, or one that is there. -/
theorem Effect.of_drops {t : Ticket} (effect : Effect c now c' a es) (drops : Drops a es t) :
    (t = c.nextTicket ∧ c.connected = false ∧ a ≠ .cancel t ∧
      es = [.finished t (.error .noConnectionAvailable)]) ∨
    ∃ p ∈ c.parties, p.ticket = t ∧ (a = .cancel t ∧ es = [] ∨
      ∃ outcome, a = .wake t ∧ p.ending? c.slot now = some outcome ∧ es = [.finished t outcome]) := by
  cases effect with
  | traffic _ quiet _ stays => exact absurd drops (Passage.not_drops_of_isTraffic quiet stays t)
  | closed _ =>
    rcases drops with ⟨_, told⟩ | cancels
    · cases told
    · cases cancels
  | @lost _ quiet_es _ _ quiet stays =>
    rcases drops with ⟨outcome, told⟩ | cancels
    · rcases List.mem_append.1 told with early | last
      · exact absurd early (not_mem_of_isTraffic quiet rfl)
      · cases List.mem_singleton.1 last
    · exact absurd cancels (stays t)
  | registered _ starts _ _ quiet =>
    rcases drops with ⟨outcome, told⟩ | cancels
    · rcases List.mem_cons.1 told with first | rest
      · cases first
      · exact absurd rest (not_mem_of_isTraffic quiet rfl)
    · rcases starts with ⟨_, _, starts⟩ | starts <;> rw [starts] at cancels <;> cases cancels
  | sent _ _ quiet =>
    exact absurd drops (Passage.not_drops_of_isTraffic quiet (by simp) t)
  | refused dead _ told stays =>
    rcases drops with ⟨outcome, finished⟩ | cancels
    · have same := List.mem_singleton.1 finished
      rcases told with rfl | rfl
      · obtain ⟨rfl, rfl⟩ := Event.finished.inj same
        exact .inl ⟨rfl, dead, stays _, rfl⟩
      · cases same
    · exact absurd cancels (stays t)
  | @left _ _ p found _ how =>
    have member := List.mem_of_find?_eq_some found
    rcases how with ⟨rfl, rfl⟩ | ⟨outcome, rfl, ends, rfl⟩
    · rcases drops with ⟨_, told⟩ | cancels
      · cases told
      · obtain rfl := Action.cancel.inj cancels
        exact .inr ⟨p, member, rfl, .inl ⟨rfl, rfl⟩⟩
    · rcases drops with ⟨_, told⟩ | cancels
      · obtain ⟨rfl, -⟩ := Event.finished.inj (List.mem_singleton.1 told)
        exact .inr ⟨p, member, rfl, .inr ⟨outcome, rfl, ends, rfl⟩⟩
      · cases cancels
  | delivered _ _ _ _ =>
    rcases drops with ⟨_, told⟩ | cancels
    · cases List.mem_singleton.1 told
    · cases cancels

/-- Who finishes comes to a dead connection, or is there and ready to end with that outcome. -/
theorem Effect.of_finished {t : Ticket} {outcome : Outcome} (effect : Effect c now c' a es)
    (told : Event.finished t outcome ∈ es) :
    (t = c.nextTicket ∧ c.connected = false) ∨
      ∃ p ∈ c.parties, p.ticket = t ∧ p.ending? c.slot now = some outcome := by
  rcases effect.of_drops (.inl ⟨outcome, told⟩) with
    ⟨same, dead, _⟩ | ⟨p, member, mine, ⟨_, rfl⟩ | ⟨_, _, ends, rfl⟩⟩
  · exact .inl ⟨same, dead⟩
  · cases told
  · obtain ⟨-, rfl⟩ := Event.finished.inj (List.mem_singleton.1 told)
    exact .inr ⟨p, member, mine, ends⟩

/-- Only who was not dropped before is dropped. -/
theorem not_dropped_of_drops {moments : List Moment} {t : Ticket} (account : Account moments c)
    (effect : Effect c now c' a es) (drops : Drops a es t) : ¬ Dropped moments t := by
  intro dropped
  obtain ⟨below, absent⟩ := account.gone t dropped
  rcases effect.of_drops drops with ⟨same, _⟩ | ⟨p, member, same, _⟩
  · exact Nat.ne_of_lt below same
  · exact absent p.wait (List.mem_map_of_mem member) same

end Step

variable {c c' : Connection} {began now : Nat} {moments : List Moment}

/-- A party has at most one outcome, and none if it is cancelled. -/
theorem endings_once {slot generation : Nat} {options : Options}
    (run : Run (Connection.opened slot generation options began) began moments now c) (t : Ticket) :
    (endings moments t).length ≤ 1 ∧ (Cancelled moments t → endings moments t = []) := by
  induction run with
  | start => exact ⟨Nat.zero_le 1, fun _ => rfl⟩
  | rest _ _ _ ih => exact ih
  | @act ms now c c' a es past taken ih =>
    obtain ⟨once, none_if⟩ := ih
    have effect := Effect.of_step taken
    have last : endings [⟨now, a, es, c, c'⟩] t =
        (es.filterMap (Event.outcome? t)).map fun o => (now, o) := by simp [endings]
    have cancelled_append : Cancelled (ms ++ [⟨now, a, es, c, c'⟩]) t ↔
        Cancelled ms t ∨ a = .cancel t := by simp [Cancelled, or_and_right, exists_or]
    rw [endings_append, cancelled_append, last]
    by_cases drops : Drops a es t
    · -- Whoever is dropped now was not before, and so has no outcome yet.
      have fresh := not_dropped_of_drops (Account.of_run past) effect drops
      rw [dropped_iff, not_or, not_not] at fresh
      obtain ⟨none_yet, not_cancelled⟩ := fresh
      have either : a ≠ .cancel t ∧ (∃ outcome, es = [.finished t outcome]) ∨
          a = .cancel t ∧ es = [] := by
        rcases effect.of_drops drops with ⟨_, _, other, told⟩ | ⟨_, _, _, how⟩
        · exact .inl ⟨other, _, told⟩
        · rcases how with cancels | ⟨outcome, rfl, _, told⟩
          · exact .inr cancels
          · exact .inl ⟨nofun, outcome, told⟩
      rcases either with ⟨other, outcome, rfl⟩ | ⟨cancels, rfl⟩
      · simp [none_yet, not_cancelled, other, Event.outcome?]
      · simp [none_yet]
    · have quiet : es.filterMap (Event.outcome? t) = [] := by
        rw [List.filterMap_eq_nil_iff]
        intro e told
        cases reported : e.outcome? t with
        | none => rfl
        | some outcome =>
          rw [Event.outcome?_eq_some_iff.1 reported] at told
          exact absurd (.inl ⟨outcome, told⟩) drops
      have other : a ≠ .cancel t := fun cancels => drops (.inr cancels)
      simpa [quiet, other] using ⟨once, none_if⟩

/-- A party that is dropped, and not cancelled, has one outcome. -/
theorem exists_ending {slot generation : Nat} {options : Options} {t : Ticket}
    (run : Run (Connection.opened slot generation options began) began moments now c)
    (dropped : Dropped moments t) (not_cancelled : ¬ Cancelled moments t) :
    ∃ ending, endings moments t = [ending] := by
  have has_one := (dropped_iff.1 dropped).resolve_right not_cancelled
  have at_most := (endings_once run t).1
  exact List.length_eq_one_iff.1 (Nat.le_antisymm at_most (List.length_pos_iff.2 has_one))

/-- A party that was registered is there until it is dropped. -/
theorem exists_party_iff {t : Ticket} {id : CorrelationId} (account : Account moments c)
    (told : Event.registered t id ∈ eventsOf moments) :
    (∃ p ∈ c.parties, p.ticket = t) ↔ ¬ Dropped moments t := by
  constructor
  · rintro ⟨p, member, mine⟩ dropped
    exact (account.gone t dropped).2 p.wait (List.mem_map_of_mem member) mine
  · intro stays
    obtain ⟨_, dropped | ⟨w, member, same, _⟩⟩ := account.present t id told
    · exact absurd dropped stays
    · obtain ⟨p, p_member, rfl⟩ := List.mem_map.1 member
      exact ⟨p, p_member, same⟩

/-- What holds of a party, and is kept in going on, holds of it as long as it is there. -/
theorem advance_along {holds : Party → Prop} {t : Ticket} (run : Run c began moments now c')
    (coherent : Coherent c) (posted : Posted c) (below : t < c.nextTicket)
    (base : ∀ p ∈ c.parties, p.ticket = t → holds p)
    (kept : ∀ m p p', Advance m p p' → holds p → holds p') :
    ∀ p ∈ c'.parties, p.ticket = t → holds p := by
  induction run with
  | start => exact base
  | act past taken ih =>
    have coherent' := coherent.along past
    intro p' member same
    rcases Advance.of_step coherent' (posted.along coherent past) taken member with
      ⟨p, p_member, goes_on⟩ | comes
    · exact kept _ p p' goes_on (ih p p_member (goes_on.ticket.symm.trans same))
    · have further := Nat.lt_of_lt_of_le below (nextTicket_le_of_run past coherent)
      exact absurd (same.symm.trans comes.ticket) (Nat.ne_of_lt further)
  | rest _ _ _ ih => exact ih

/-- What the moments of a run say of a party that is there behind them. -/
structure Career (moments : List Moment) (p : Party) : Prop where
  judged : p.verdict = .awaited ∨ (∃ id, p.purpose = .wait id) ∨
    ∃ m ∈ moments, Judges m p.ticket p.verdict
  settled : p.reply = .awaited ∨ ∃ m ∈ moments, Settles m p.ticket p.purpose p.reply

/-- The past of a run says how each verdict and each reply came about. -/
theorem Career.of_run {slot generation : Nat} {options : Options}
    (run : Run (Connection.opened slot generation options began) began moments now c) :
    ∀ p ∈ c.parties, Career moments p := by
  induction run with
  | start => simp [Connection.opened]
  | rest _ _ _ ih => exact ih
  | @act ms now c c' a es past taken ih =>
    intro p' member
    have posted := (Posted.opened slot generation options began).along
      (.opened slot generation options began) past
    have earlier : ∀ {m : Moment}, m ∈ ms → m ∈ ms ++ [⟨now, a, es, c, c'⟩] :=
      fun member => List.mem_append_left _ member
    have latest : (⟨now, a, es, c, c'⟩ : Moment) ∈ ms ++ [⟨now, a, es, c, c'⟩] := by simp
    rcases Advance.of_step (Coherent.of_run past) posted taken member with
      ⟨p, p_member, goes_on⟩ | comes
    · obtain ⟨judged, settled⟩ := ih p p_member
      constructor
      · rw [goes_on.ticket, goes_on.purpose]
        rcases goes_on.verdict with same | ⟨_, judges⟩
        · rw [same]
          rcases judged with awaits | waits | ⟨m, m_member, told⟩
          · exact .inl awaits
          · exact .inr (.inl waits)
          · exact .inr (.inr ⟨m, earlier m_member, told⟩)
        · exact .inr (.inr ⟨_, latest, judges⟩)
      · rw [goes_on.ticket, goes_on.purpose]
        rcases goes_on.reply with same | ⟨_, settles⟩
        · rw [same]
          rcases settled with awaits | ⟨m, m_member, told⟩
          · exact .inl awaits
          · exact .inr ⟨m, earlier m_member, told⟩
        · exact .inr ⟨_, latest, settles⟩
    · refine ⟨?_, .inl comes.reply⟩
      rcases comes.verdict with awaits | judges | ⟨waits, _⟩
      · exact .inl awaits
      · exact .inr (.inr ⟨_, latest, judges⟩)
      · exact .inr (.inl waits)

end CallPool.Connection
