import CallPool.Proofs.Connection.Effect
import CallPool.Proofs.History
import Mathlib.Data.List.Nodup

/-!
# The registry agrees with the parties

The registry lists exactly the parties whose reply is still awaited, each under its own ID, and is
empty once the connection is dead. This holds of a connection that is opened, and each effect of an
action keeps it (`Coherent.of_effect`), so it holds in every state of every run
(`Coherent.of_run`). IDs need not differ for it: a party that is displaced or loses its entry to
another is no longer one that awaits a reply.
-/

set_option autoImplicit false

namespace CallPool

/-- With one entry for an ID at most, an ID is found with a party exactly if that is an entry. -/
theorem Registry.find?_eq_some_iff {r : Registry} (once : r.ids.Nodup) {id : CorrelationId}
    {t : Ticket} : r.find? id = some t ↔ (id, t) ∈ r.entries := by
  unfold Registry.find?
  rw [Option.map_eq_some_iff]
  constructor
  · rintro ⟨⟨id', t'⟩, found, rfl⟩
    have same := List.find?_some found
    simp only [decide_eq_true_eq] at same
    subst same
    exact List.mem_of_find?_eq_some found
  · intro member
    cases found : r.entries.find? fun e => decide (e.1 = id) with
    | none =>
      have absent := List.find?_eq_none.1 found _ member
      simp at absent
    | some e =>
      have same := List.find?_some found
      simp only [decide_eq_true_eq] at same
      have equal : e = (id, t) :=
        List.inj_on_of_nodup_map once (List.mem_of_find?_eq_some found) member same
      exact ⟨e, rfl, by rw [equal]⟩

/-- Nobody is found under an ID exactly if it is none of those under which somebody waits. -/
theorem Registry.find?_eq_none_iff {r : Registry} {id : CorrelationId} :
    r.find? id = none ↔ id ∉ r.ids := by
  unfold Registry.find? Registry.ids
  rw [Option.map_eq_none_iff, List.find?_eq_none]
  simp only [decide_eq_true_eq, List.mem_map, not_exists, not_and]

/-- Removing an ID repeats no other one. -/
theorem Registry.ids_erase_nodup {r : Registry} (once : r.ids.Nodup) (id : CorrelationId) :
    (r.erase id).ids.Nodup :=
  List.Nodup.sublist (List.Sublist.map _ List.filter_sublist) once

/-- Registering an ID repeats none, for it takes the place of its own entry. -/
theorem Registry.ids_insert_nodup {r : Registry} (once : r.ids.Nodup) (id : CorrelationId)
    (t : Ticket) : (r.insert id t).ids.Nodup := by
  have shape : (r.insert id t).ids = (r.erase id).ids ++ [id] := by
    simp [Registry.insert, Registry.ids]
  have fresh : id ∉ (r.erase id).ids := by
    rw [← Registry.find?_eq_none_iff]
    exact Registry.find?_erase_self r id
  rw [shape]
  refine List.nodup_append.2 ⟨Registry.ids_erase_nodup once id, List.nodup_singleton id, ?_⟩
  intro x member y last same
  rw [List.mem_singleton.1 last] at same
  exact fresh (same ▸ member)

namespace Connection

/-- The registry lists exactly those whose reply is awaited. -/
structure Coherent (c : Connection) : Prop where
  tickets_nodup : (c.waits.map Wait.ticket).Nodup
  ticket_lt : ∀ w ∈ c.waits, w.ticket < c.nextTicket
  ids_nodup : c.registry.ids.Nodup
  entry_iff : ∀ id t, (id, t) ∈ c.registry.entries ↔
    ∃ w ∈ c.waits, w.ticket = t ∧ w.purpose.id? = some id ∧ w.reply = .awaited
  empty_of_dead : c.connected = false → c.registry = Registry.empty

/-! ## What becomes of a single wait -/

/-- Who is abandoned keeps its ticket. -/
@[simp] theorem Wait.ticket_abandonIf (ts : List Ticket) (w : Wait) :
    (w.abandonIf ts).ticket = w.ticket := by
  unfold abandonIf
  split <;> rfl

/-- Who is abandoned keeps its purpose. -/
@[simp] theorem Wait.purpose_abandonIf (ts : List Ticket) (w : Wait) :
    (w.abandonIf ts).purpose = w.purpose := by
  unfold abandonIf
  split <;> rfl

/-- A reply is still awaited exactly if it was, and the wait is none of those that end. -/
@[simp] theorem Wait.reply_abandonIf_eq_awaited {ts : List Ticket} {w : Wait} :
    (w.abandonIf ts).reply = .awaited ↔ w.ticket ∉ ts ∧ w.reply = .awaited := by
  unfold abandonIf
  by_cases held : w.ticket ∈ ts
  · cases w.reply <;> simp [held]
  · simp [held]

/-- Where nobody is abandoned all wait as before. -/
theorem Wait.map_abandonIf_nil (ws : List Wait) : ws.map (Wait.abandonIf []) = ws := by
  have unchanged : Wait.abandonIf [] = fun w => w := by
    funext w
    simp [Wait.abandonIf]
  rw [unchanged, List.map_id']

/-- Who is answered keeps its ticket. -/
@[simp] theorem Wait.ticket_answer (t : Ticket) (response : Response) (w : Wait) :
    (w.answer t response).ticket = w.ticket := by
  unfold answer
  split <;> rfl

/-- Who is answered keeps its purpose. -/
@[simp] theorem Wait.purpose_answer (t : Ticket) (response : Response) (w : Wait) :
    (w.answer t response).purpose = w.purpose := by
  unfold answer
  split <;> rfl

/-- After a response is handed over those still wait who did, and to whom it was not handed. -/
@[simp] theorem Wait.reply_answer_eq_awaited {t : Ticket} {response : Response} {w : Wait} :
    (w.answer t response).reply = .awaited ↔ w.ticket ≠ t ∧ w.reply = .awaited := by
  unfold answer
  by_cases mine : w.ticket = t <;> simp [mine]

namespace Coherent

variable {c c' : Connection}

/-- A connection that has just been opened is coherent, for nobody waits yet. -/
theorem opened (slot generation : Nat) (options : Options) (now : Nat) :
    Coherent (Connection.opened slot generation options now) where
  tickets_nodup := List.nodup_nil
  ticket_lt := by simp [Connection.opened, waits]
  ids_nodup := List.nodup_nil
  entry_iff := by simp [Connection.opened, waits, Registry.empty]
  empty_of_dead := by simp [Connection.opened]

/-- Coherence is a matter of those who wait, and of the registry. -/
theorem congr (h : Coherent c) (same : SameWaits c c') : Coherent c' where
  tickets_nodup := by rw [same.waits]; exact h.tickets_nodup
  ticket_lt := by rw [same.waits, same.nextTicket]; exact h.ticket_lt
  ids_nodup := by rw [same.registry]; exact h.ids_nodup
  entry_iff := by rw [same.waits, same.registry]; exact h.entry_iff
  empty_of_dead := by rw [same.connected, same.registry]; exact h.empty_of_dead

/-- A waiter is known by its ticket. -/
theorem wait_unique (h : Coherent c) {w w' : Wait} (member : w ∈ c.waits) (member' : w' ∈ c.waits)
    (same : w.ticket = w'.ticket) : w = w' :=
  List.inj_on_of_nodup_map h.tickets_nodup member member' same

/-- Who is found under an ID waits under it, and has no reply yet. -/
theorem wait_of_find? (h : Coherent c) {id : CorrelationId} {t : Ticket}
    (found : c.registry.find? id = some t) :
    ∃ w ∈ c.waits, w.ticket = t ∧ w.purpose.id? = some id ∧ w.reply = .awaited :=
  (h.entry_iff id t).1 ((Registry.find?_eq_some_iff h.ids_nodup).1 found)

/-- One who awaits a reply is found under no ID but its own. -/
theorem id_of_find? (h : Coherent c) {id : CorrelationId} {w : Wait} (member : w ∈ c.waits)
    (found : c.registry.find? id = some w.ticket) : w.purpose.id? = some id := by
  obtain ⟨w', member', same, waiting, _⟩ := h.wait_of_find? found
  rw [h.wait_unique member member' same.symm]
  exact waiting

/-- Who waits under an ID, and has no reply yet, is found under it. -/
theorem find?_of_wait (h : Coherent c) {id : CorrelationId} {w : Wait} (member : w ∈ c.waits)
    (waiting : w.purpose.id? = some id) (awaits : w.reply = .awaited) :
    c.registry.find? id = some w.ticket :=
  (Registry.find?_eq_some_iff h.ids_nodup).2 ((h.entry_iff id w.ticket).2 ⟨w, member, rfl, waiting, awaits⟩)

/-- Only a connection that is live has entries. -/
theorem live_of_entry (h : Coherent c) {e : CorrelationId × Ticket} (entered : e ∈ c.registry.entries) :
    c.connected = true := by
  by_contra dead
  rw [h.empty_of_dead (Bool.eq_false_iff.2 dead)] at entered
  cases entered

/-- The tickets stay apart and below the counter when the waits change but for their tickets. -/
theorem tickets_of_map {f : Wait → Wait} {ws : List Wait} (once : (ws.map Wait.ticket).Nodup)
    (kept : ∀ w, (f w).ticket = w.ticket) : ((ws.map f).map Wait.ticket).Nodup := by
  have same : Wait.ticket ∘ f = Wait.ticket := funext kept
  rw [List.map_map, same]
  exact once

/-- Nobody is found with a ticket that is still to come. -/
theorem find?_ne_nextTicket (h : Coherent c) (id : CorrelationId) :
    c.registry.find? id ≠ some c.nextTicket := by
  intro found
  obtain ⟨w, member, same, _⟩ := h.wait_of_find? found
  exact Nat.ne_of_lt (h.ticket_lt w member) same

/-- A connection that is severed stays coherent: its registry is empty, and nobody awaits a reply any
more. -/
theorem sever (h : Coherent c) : Coherent c.sever where
  tickets_nodup := by
    rw [waits_sever]
    exact tickets_of_map h.tickets_nodup (Wait.ticket_abandonIf _)
  ticket_lt := by
    intro w member
    rw [waits_sever] at member
    obtain ⟨old, old_member, rfl⟩ := List.mem_map.1 member
    rw [Wait.ticket_abandonIf]
    exact h.ticket_lt old old_member
  ids_nodup := List.nodup_nil
  entry_iff := by
    intro id t
    constructor
    · intro member
      cases member
    · rintro ⟨w, member, rfl, waiting, awaits⟩
      rw [waits_sever] at member
      obtain ⟨old, old_member, rfl⟩ := List.mem_map.1 member
      rw [Wait.reply_abandonIf_eq_awaited] at awaits
      rw [Wait.purpose_abandonIf] at waiting
      have entry := (h.entry_iff id old.ticket).2 ⟨old, old_member, rfl, waiting, awaits.2⟩
      exact absurd (List.mem_map_of_mem entry) awaits.1
  empty_of_dead := fun _ => rfl

/-- A party that joins has a ticket of its own. -/
theorem tickets_of_join (h : Coherent c) (purpose : Purpose) (verdict : Verdict) :
    ((c.join purpose verdict).waits.map Wait.ticket).Nodup ∧
      ∀ w ∈ (c.join purpose verdict).waits, w.ticket < c.nextTicket + 1 := by
  rw [waits_join, List.map_append]
  constructor
  · refine List.nodup_append.2 ⟨h.tickets_nodup, List.nodup_singleton _, ?_⟩
    intro t member t' last
    obtain ⟨w, w_member, rfl⟩ := List.mem_map.1 member
    rw [List.map_singleton, List.mem_singleton] at last
    rw [last]
    exact Nat.ne_of_lt (h.ticket_lt w w_member)
  · intro w member
    rcases List.mem_append.1 member with older | last
    · exact Nat.lt_succ_of_lt (h.ticket_lt w older)
    · rw [List.mem_singleton.1 last]
      exact Nat.lt_succ_self _

/-- A sender that joins awaits no reply, so that the registry stays right. -/
theorem join_send (h : Coherent c) : Coherent (c.join .send .awaited) where
  tickets_nodup := (h.tickets_of_join .send .awaited).1
  ticket_lt := (h.tickets_of_join .send .awaited).2
  ids_nodup := h.ids_nodup
  entry_iff := by
    intro id t
    show (id, t) ∈ c.registry.entries ↔ _
    rw [h.entry_iff, waits_join]
    constructor
    · rintro ⟨w, member, rest⟩
      exact ⟨w, List.mem_append_left [⟨c.nextTicket, .send, .awaited⟩] member, rest⟩
    · rintro ⟨w, member, same, waiting, awaits⟩
      rcases List.mem_append.1 member with older | last
      · exact ⟨w, older, same, waiting, awaits⟩
      · rw [List.mem_singleton.1 last] at waiting
        cases waiting
  empty_of_dead := h.empty_of_dead

/-- A ticket may be given to nobody. -/
theorem skip (h : Coherent c) : Coherent { c with nextTicket := c.nextTicket + 1 } where
  tickets_nodup := h.tickets_nodup
  ticket_lt := fun w member => Nat.lt_succ_of_lt (h.ticket_lt w member)
  ids_nodup := h.ids_nodup
  entry_iff := h.entry_iff
  empty_of_dead := h.empty_of_dead

/-- The parties behind a registration: those who were there, without the one that is displaced,
and the new one. -/
theorem waits_of_register? {purpose : Purpose} {verdict : Verdict} {id : CorrelationId}
    {r : Connection} (entered : (c.join purpose verdict).register? id c.nextTicket = some r) :
    c.connected = true ∧ r.connected = true ∧ r.nextTicket = c.nextTicket + 1 ∧
      r.registry = c.registry.insert id c.nextTicket ∧
      r.waits = (c.join purpose verdict).waits.map
        (Wait.abandonIf (c.registry.find? id).toList) := by
  unfold Connection.register? at entered
  split at entered
  · rename_i live
    obtain rfl := Option.some.inj entered
    refine ⟨live, live, rfl, rfl, ?_⟩
    rw [← waits_abandon]
    rfl
  · cases entered

/-- A party that is registered gets the entry under its ID, and a party that had it awaits no reply
any more. -/
theorem of_register? {purpose : Purpose} {verdict : Verdict} {id : CorrelationId} {r : Connection}
    (h : Coherent c) (waiting : purpose.id? = some id)
    (entered : (c.join purpose verdict).register? id c.nextTicket = some r) : Coherent r := by
  obtain ⟨-, live, next, entries, parties⟩ := waits_of_register? entered
  have joined := h.tickets_of_join purpose verdict
  refine ⟨?_, ?_, ?_, ?_, ?_⟩
  · rw [parties]
    exact tickets_of_map joined.1 (Wait.ticket_abandonIf _)
  · intro w member
    rw [parties] at member
    obtain ⟨old, old_member, rfl⟩ := List.mem_map.1 member
    rw [Wait.ticket_abandonIf, next]
    exact joined.2 old old_member
  · rw [entries]
    exact Registry.ids_insert_nodup h.ids_nodup id c.nextTicket
  · intro id' t'
    rw [entries, Registry.mem_insert, parties]
    constructor
    · rintro (⟨member, other⟩ | same)
      · obtain ⟨w, w_member, rfl, waiting', awaits⟩ := (h.entry_iff id' t').1 member
        refine ⟨w.abandonIf (c.registry.find? id).toList, ?_, by simp, by simpa using waiting', ?_⟩
        · rw [waits_join]
          exact List.mem_map_of_mem (List.mem_append_left _ w_member)
        · rw [Wait.reply_abandonIf_eq_awaited, Option.mem_toList]
          refine ⟨fun found => other ?_, awaits⟩
          have mine := h.id_of_find? w_member found
          exact Option.some.inj (waiting'.symm.trans mine)
      · obtain ⟨rfl, rfl⟩ := Prod.mk.inj same
        refine ⟨Wait.abandonIf (c.registry.find? id').toList ⟨c.nextTicket, purpose, .awaited⟩, ?_,
          by simp, by simpa using waiting, ?_⟩
        · rw [waits_join]
          exact List.mem_map_of_mem (List.mem_append_right _ (List.mem_singleton_self _))
        · rw [Wait.reply_abandonIf_eq_awaited, Option.mem_toList]
          exact ⟨h.find?_ne_nextTicket id', rfl⟩
    · rintro ⟨w, member, rfl, waiting', awaits⟩
      obtain ⟨old, old_member, rfl⟩ := List.mem_map.1 member
      rw [Wait.reply_abandonIf_eq_awaited, Option.mem_toList] at awaits
      rw [Wait.purpose_abandonIf] at waiting'
      rw [Wait.ticket_abandonIf]
      rw [waits_join] at old_member
      rcases List.mem_append.1 old_member with older | last
      · refine .inl ⟨(h.entry_iff id' old.ticket).2 ⟨old, older, rfl, waiting', awaits.2⟩, ?_⟩
        rintro (rfl : id' = id)
        exact awaits.1 (h.find?_of_wait older waiting' awaits.2)
      · obtain rfl := List.mem_singleton.1 last
        have same : id' = id := Option.some.inj (waiting'.symm.trans waiting)
        exact .inr (by rw [same])
  · intro dead
    rw [live] at dead
    cases dead

/-- A party that leaves takes away its own wait, and whatever else stood under its ID. -/
theorem waits_leave (c : Connection) (p : Party) :
    (c.leave p).connected = c.connected ∧ (c.leave p).nextTicket = c.nextTicket ∧
      match p.purpose.id? with
      | some id => (c.leave p).registry = c.registry.erase id ∧ (c.leave p).waits =
          (c.waits.filter fun w => w.ticket ≠ p.ticket).map
            (Wait.abandonIf (c.registry.find? id).toList)
      | none => (c.leave p).registry = c.registry ∧
          (c.leave p).waits = c.waits.filter fun w => w.ticket ≠ p.ticket := by
  have rest : (c.parties.filter fun q => q.ticket ≠ p.ticket).map Party.wait =
      c.waits.filter fun w => w.ticket ≠ p.ticket := by
    unfold Connection.waits
    rw [List.filter_map]
    rfl
  unfold leave
  cases p.purpose.id? with
  | none => exact ⟨rfl, rfl, rfl, rest⟩
  | some id =>
    refine ⟨rfl, rfl, rfl, ?_⟩
    rw [← rest]
    exact waits_abandon { c with parties := c.parties.filter fun q => q.ticket ≠ p.ticket } _

/-- A party that leaves has no entry any more, and a party whose entry it takes away awaits no reply
any more. -/
theorem leave (h : Coherent c) {p : Party} (found : c.party? p.ticket = some p) :
    Coherent (c.leave p) := by
  have mine : p.wait ∈ c.waits := List.mem_map_of_mem (List.mem_of_find?_eq_some found)
  have staying : ((c.waits.filter fun w => w.ticket ≠ p.ticket).map Wait.ticket).Nodup :=
    List.Nodup.sublist (List.Sublist.map _ List.filter_sublist) h.tickets_nodup
  obtain ⟨live, next, rest⟩ := waits_leave c p
  cases own : p.purpose.id? with
  | none =>
    simp only [own] at rest
    refine ⟨by rw [rest.2]; exact staying, ?_, by rw [rest.1]; exact h.ids_nodup, ?_, ?_⟩
    · intro w member
      rw [rest.2] at member
      rw [next]
      exact h.ticket_lt w (List.mem_filter.1 member).1
    · intro id t
      rw [rest.1, rest.2, h.entry_iff]
      constructor
      · rintro ⟨w, member, same, waiting, awaits⟩
        refine ⟨w, List.mem_filter.2 ⟨member, ?_⟩, same, waiting, awaits⟩
        rw [decide_eq_true_eq]
        intro leaving
        rw [h.wait_unique member mine leaving] at waiting
        exact absurd (own.symm.trans waiting) nofun
      · rintro ⟨w, member, rest⟩
        exact ⟨w, (List.mem_filter.1 member).1, rest⟩
    · rw [live, rest.1]
      exact h.empty_of_dead
  | some id =>
    -- The entry under `id` may be that of another party, which gives up its reply then.
    simp only [own] at rest
    refine ⟨?_, ?_, ?_, ?_, ?_⟩
    · rw [rest.2]
      exact tickets_of_map staying (Wait.ticket_abandonIf _)
    · intro w member
      rw [rest.2] at member
      obtain ⟨old, old_member, rfl⟩ := List.mem_map.1 member
      rw [Wait.ticket_abandonIf, next]
      exact h.ticket_lt old (List.mem_filter.1 old_member).1
    · rw [rest.1]
      exact Registry.ids_erase_nodup h.ids_nodup id
    · intro id' t'
      rw [rest.1, Registry.mem_erase, rest.2]
      constructor
      · rintro ⟨member, other⟩
        obtain ⟨w, w_member, rfl, waiting, awaits⟩ := (h.entry_iff id' t').1 member
        refine ⟨_, List.mem_map_of_mem (List.mem_filter.2 ⟨w_member, ?_⟩), Wait.ticket_abandonIf _ _,
          by simpa using waiting, ?_⟩
        · rw [decide_eq_true_eq]
          intro leaving
          rw [h.wait_unique w_member mine leaving] at waiting
          exact other (Option.some.inj (waiting.symm.trans own))
        · rw [Wait.reply_abandonIf_eq_awaited, Option.mem_toList]
          refine ⟨fun found => other ?_, awaits⟩
          exact Option.some.inj (waiting.symm.trans (h.id_of_find? w_member found))
      · rintro ⟨w, member, rfl, waiting, awaits⟩
        obtain ⟨old, old_member, rfl⟩ := List.mem_map.1 member
        rw [Wait.reply_abandonIf_eq_awaited, Option.mem_toList] at awaits
        rw [Wait.purpose_abandonIf] at waiting
        rw [Wait.ticket_abandonIf]
        have older := (List.mem_filter.1 old_member).1
        refine ⟨(h.entry_iff id' old.ticket).2 ⟨old, older, rfl, waiting, awaits.2⟩, ?_⟩
        rintro (rfl : id' = id)
        exact awaits.1 (h.find?_of_wait older waiting awaits.2)
    · intro dead
      rw [live] at dead
      rw [rest.1, h.empty_of_dead dead]
      rfl

/-- When a response is handed over the entry goes with the wait. -/
theorem handOver (h : Coherent c) {id : CorrelationId} {t : Ticket} (response : Response)
    (found : c.registry.find? id = some t) : Coherent (c.handOver id t response) where
  tickets_nodup := by
    rw [waits_handOver]
    exact tickets_of_map h.tickets_nodup (Wait.ticket_answer t response)
  ticket_lt := by
    intro w member
    rw [waits_handOver] at member
    obtain ⟨old, old_member, rfl⟩ := List.mem_map.1 member
    rw [Wait.ticket_answer]
    exact h.ticket_lt old old_member
  ids_nodup := Registry.ids_erase_nodup h.ids_nodup id
  entry_iff := by
    intro id' t'
    show (id', t') ∈ (c.registry.erase id).entries ↔ _
    rw [Registry.mem_erase, waits_handOver]
    constructor
    · rintro ⟨member, other⟩
      obtain ⟨w, w_member, rfl, waiting, awaits⟩ := (h.entry_iff id' t').1 member
      refine ⟨w.answer t response, List.mem_map_of_mem w_member, by simp, by simpa using waiting, ?_⟩
      rw [Wait.reply_answer_eq_awaited]
      refine ⟨fun same => other ?_, awaits⟩
      exact Option.some.inj (waiting.symm.trans (h.id_of_find? w_member (same ▸ found)))
    · rintro ⟨w, member, rfl, waiting, awaits⟩
      obtain ⟨old, old_member, rfl⟩ := List.mem_map.1 member
      rw [Wait.reply_answer_eq_awaited] at awaits
      rw [Wait.purpose_answer] at waiting
      rw [Wait.ticket_answer]
      refine ⟨(h.entry_iff id' old.ticket).2 ⟨old, old_member, rfl, waiting, awaits.2⟩, ?_⟩
      rintro (rfl : id' = id)
      have same := h.find?_of_wait old_member waiting awaits.2
      exact awaits.1 (Option.some.inj (same.symm.trans found))
  empty_of_dead := by
    intro dead
    show c.registry.erase id = Registry.empty
    rw [h.empty_of_dead dead]
    rfl

/-- Nothing that happens to those who wait makes a connection incoherent. -/
theorem of_effect (h : Coherent c) {now : Nat} {a : Action} {es : List Event}
    (effect : Effect c now c' a es) : Coherent c' := by
  cases effect with
  | traffic same _ _ _ => exact h.congr same
  | closed same => exact same ▸ h.sever
  | lost _ same _ _ => exact h.sever.congr same
  | registered waiting _ entered same _ => exact (h.of_register? waiting entered).congr same
  | sent _ same _ => exact h.join_send.congr same
  | refused _ same _ _ => exact same ▸ h.skip
  | left found same _ => exact same ▸ h.leave found
  | delivered _ _ waiting same => exact (h.handOver _ waiting).congr same

/-- A coherent connection is coherent at the end of every run. -/
theorem along {began now : Nat} {moments : List Moment} (h : Coherent c)
    (run : Run c began moments now c') : Coherent c' :=
  run.induct h fun _ _ _ _ _ taken h => h.of_effect (.of_step taken)

/-- In every state of a run the registry agrees with the parties. -/
theorem of_run {slot generation began now : Nat} {options : Options} {moments : List Moment}
    (run : Run (Connection.opened slot generation options began) began moments now c) : Coherent c :=
  (opened slot generation options began).along run

end Coherent

end Connection

end CallPool
