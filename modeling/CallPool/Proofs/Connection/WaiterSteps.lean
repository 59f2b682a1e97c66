import CallPool.Proofs.Connection.Coherence

/-!
# What becomes of a waiter in a run

One action changes a waiter in few ways: it stays with the reply that it had, its reply comes or is
given up, or it leaves; and a waiter that was not there before has the next ticket
(`Passage.of_step`). So the past of a run accounts for its parties: who is registered and has not
been dropped is still there, who has been dropped never comes back, and what became of a reply is
what the past says (`Account.of_run`).
-/

set_option autoImplicit false

namespace CallPool.Connection

/-- Whether the party with a ticket is dropped in what happens: it ends by itself, or is
cancelled. -/
def Drops (a : Action) (es : List Event) (t : Ticket) : Prop :=
  (∃ outcome, Event.finished t outcome ∈ es) ∨ a = .cancel t

/-- Whether an action adds a party. -/
def Action.Joins : Action → Prop
  | .call _ _ _ => True
  | .send _ => True
  | .wait _ => True
  | _ => False

/-- What one action does to each waiter. -/
structure Passage (c : Connection) (a : Action) (es : List Event) (c' : Connection) : Prop where
  nextTicket_le : c.nextTicket ≤ c'.nextTicket
  /-- Who is there was there before, with a reply that has come since or is the same, or is new. -/
  origin : ∀ w' ∈ c'.waits,
    (∃ w ∈ c.waits, w'.ticket = w.ticket ∧ w'.purpose = w.purpose ∧
      (w'.reply = .awaited → w.reply = .awaited) ∧
      ∀ response, w'.reply = .delivered response ↔
        w.reply = .delivered response ∨ Event.delivered w.ticket response ∈ es) ∨
    (w'.ticket = c.nextTicket ∧ c.nextTicket < c'.nextTicket ∧ w'.reply = .awaited ∧ a.Joins ∧
      ∀ id, w'.purpose.id? = some id → Event.registered w'.ticket id ∈ es)
  /-- Who was there is dropped or stays. -/
  kept : ∀ w ∈ c.waits, Drops a es w.ticket ∨
    ∃ w' ∈ c'.waits, w'.ticket = w.ticket ∧ w'.purpose = w.purpose
  /-- Who is dropped is gone. -/
  gone : ∀ t, Drops a es t → t < c'.nextTicket ∧ ∀ w' ∈ c'.waits, w'.ticket ≠ t
  /-- Who is registered is there, with a new ticket. -/
  registered : ∀ t id, Event.registered t id ∈ es → t = c.nextTicket ∧ t < c'.nextTicket ∧
    ((∃ command limit, a = .call id command limit) ∨ a = .wait id) ∧
      ∃ w' ∈ c'.waits, w'.ticket = t ∧ w'.purpose.id? = some id
  /-- A response is handed over when it comes in, to whoever waits under the first of its keys. -/
  delivered : ∀ t response, Event.delivered t response ∈ es → es = [.delivered t response] ∧
    ∃ inbound id, a = .receive inbound ∧ inbound.response? = some response ∧
      c.registry.firstOf? response.correlationKeys = some id ∧ c.registry.find? id = some t

/-- Where only traffic is told nothing else is. -/
theorem not_mem_of_isTraffic {es : List Event} (quiet : ∀ e ∈ es, e.isTraffic = true) {e : Event}
    (other : e.isTraffic = false) : e ∉ es := by
  intro member
  rw [quiet e member] at other
  cases other

namespace Passage

variable {c c' : Connection} {now : Nat} {a : Action} {es : List Event}

/-- An action that only gives up replies, or leaves them, and tells nothing about a waiter. -/
theorem of_map (f : Wait → Wait) (waits : c'.waits = c.waits.map f)
    (nextTicket : c'.nextTicket = c.nextTicket) (ticket : ∀ w, (f w).ticket = w.ticket)
    (purpose : ∀ w, (f w).purpose = w.purpose)
    (awaited : ∀ w, (f w).reply = .awaited → w.reply = .awaited)
    (delivered : ∀ w response, (f w).reply = .delivered response ↔ w.reply = .delivered response)
    (unregistered : ∀ t id, Event.registered t id ∉ es)
    (undelivered : ∀ t response, Event.delivered t response ∉ es) (undropped : ∀ t, ¬ Drops a es t) :
    Passage c a es c' where
  nextTicket_le := Nat.le_of_eq nextTicket.symm
  origin := by
    intro w' member
    rw [waits] at member
    obtain ⟨w, w_member, rfl⟩ := List.mem_map.1 member
    refine .inl ⟨w, w_member, ticket w, purpose w, awaited w, fun response => ?_⟩
    rw [delivered]
    exact ⟨.inl, fun h => h.resolve_right (undelivered _ _)⟩
  kept := by
    intro w member
    rw [waits]
    exact .inr ⟨f w, List.mem_map_of_mem member, ticket w, purpose w⟩
  gone := fun t drops => absurd drops (undropped t)
  registered := fun t id told => absurd told (unregistered t id)
  delivered := fun t response told => absurd told (undelivered t response)

/-- Who is abandoned keeps a response that it has, and gets none. -/
theorem reply_abandonIf_eq_delivered {ts : List Ticket} {w : Wait} {response : Response} :
    (w.abandonIf ts).reply = .delivered response ↔ w.reply = .delivered response := by
  unfold Wait.abandonIf
  by_cases held : w.ticket ∈ ts
  · cases reply : w.reply <;> simp [held]
  · simp [held]

/-- Where only traffic is told, and nobody is cancelled, nobody is dropped. -/
theorem not_drops_of_isTraffic (quiet : ∀ e ∈ es, e.isTraffic = true) (other : ∀ t, a ≠ .cancel t)
    (t : Ticket) : ¬ Drops a es t := by
  rintro (⟨outcome, told⟩ | cancels)
  · exact not_mem_of_isTraffic quiet rfl told
  · exact other t cancels

/-- A party that is registered may oust the one that had its ID, and does nothing to the others. -/
theorem of_registration (h : Coherent c) {purpose : Purpose} {verdict : Verdict} {id : CorrelationId}
    {r : Connection} (waiting : purpose.id? = some id)
    (starts : (∃ command limit, a = .call id command limit) ∨ a = .wait id)
    (entered : (c.join purpose verdict).register? id c.nextTicket = some r) (same : SameWaits r c')
    (quiet : ∀ e ∈ es, e.isTraffic = true) :
    Passage c a (.registered c.nextTicket id :: es) c' := by
  obtain ⟨-, -, next, -, parties⟩ := Coherent.waits_of_register? entered
  rw [waits_join, ← same.waits] at parties
  rw [← same.nextTicket] at next
  have further : c.nextTicket < c'.nextTicket := by
    rw [next]
    exact Nat.lt_succ_self _
  have new : Wait.abandonIf (c.registry.find? id).toList ⟨c.nextTicket, purpose, .awaited⟩ ∈ c'.waits := by
    rw [parties]
    exact List.mem_map_of_mem (List.mem_append_right _ (List.mem_singleton_self _))
  have told_only : ∀ e, e ∈ Event.registered c.nextTicket id :: es → e.isTraffic = false →
      e = .registered c.nextTicket id := by
    intro e member other
    rcases List.mem_cons.1 member with same | member
    · exact same
    · exact absurd member (not_mem_of_isTraffic quiet other)
  refine ⟨Nat.le_of_lt further, ?_, ?_, ?_, ?_, ?_⟩
  · intro w' member
    rw [parties] at member
    obtain ⟨w, w_member, rfl⟩ := List.mem_map.1 member
    rcases List.mem_append.1 w_member with older | last
    · refine .inl ⟨w, older, by simp, by simp, fun awaits => (Wait.reply_abandonIf_eq_awaited.1 awaits).2,
        fun response => ?_⟩
      rw [reply_abandonIf_eq_delivered]
      exact ⟨.inl, fun either => either.resolve_right fun told => nomatch told_only _ told rfl⟩
    · obtain rfl := List.mem_singleton.1 last
      refine .inr ⟨by simp, further, ?_, ?_, ?_⟩
      · rw [Wait.reply_abandonIf_eq_awaited, Option.mem_toList]
        exact ⟨h.find?_ne_nextTicket id, rfl⟩
      · rcases starts with ⟨command, limit, rfl⟩ | rfl <;> trivial
      · intro id' waiting'
        rw [Wait.purpose_abandonIf] at waiting'
        have same_id : id' = id := Option.some.inj (waiting'.symm.trans waiting)
        rw [same_id, Wait.ticket_abandonIf]
        exact List.mem_cons_self
  · intro w member
    refine .inr ⟨w.abandonIf (c.registry.find? id).toList, ?_, by simp, by simp⟩
    rw [parties]
    exact List.mem_map_of_mem (List.mem_append_left _ member)
  · rintro t (⟨outcome, told⟩ | cancels)
    · cases told_only _ told rfl
    · rcases starts with ⟨command, limit, starts⟩ | starts <;> rw [starts] at cancels <;> cases cancels
  · intro t id' told
    obtain ⟨rfl, rfl⟩ := Event.registered.inj (told_only _ told rfl)
    exact ⟨rfl, further, starts, _, new, by simp, by simpa using waiting⟩
  · intro t response told
    cases told_only _ told rfl

/-- A party that leaves is dropped, and may take the entry of another with it. -/
theorem of_leave (h : Coherent c) {p : Party} (found : c.party? p.ticket = some p)
    (how : a = .cancel p.ticket ∧ es = [] ∨
      ∃ outcome, a = .wake p.ticket ∧ es = [.finished p.ticket outcome]) :
    Passage c a es (c.leave p) := by
  have mine : p.wait ∈ c.waits := List.mem_map_of_mem (List.mem_of_find?_eq_some found)
  have drops : ∀ t, Drops a es t ↔ t = p.ticket := by
    intro t
    rcases how with ⟨rfl, rfl⟩ | ⟨outcome, rfl, rfl⟩ <;> simp [Drops, eq_comm]
  have told_only : ∀ e ∈ es, ∃ outcome, e = .finished p.ticket outcome := by
    intro e member
    rcases how with ⟨_, rfl⟩ | ⟨outcome, _, rfl⟩
    · cases member
    · exact ⟨outcome, List.mem_singleton.1 member⟩
  obtain ⟨-, next, -⟩ := Coherent.waits_leave c p
  obtain ⟨ts, parties⟩ : ∃ ts, (c.leave p).waits =
      (c.waits.filter fun w => w.ticket ≠ p.ticket).map (Wait.abandonIf ts) := by
    obtain ⟨-, -, rest⟩ := Coherent.waits_leave c p
    cases own : p.purpose.id? with
    | none =>
      simp only [own] at rest
      exact ⟨[], rest.2.trans (Wait.map_abandonIf_nil _).symm⟩
    | some id =>
      simp only [own] at rest
      exact ⟨_, rest.2⟩
  refine ⟨Nat.le_of_eq next.symm, ?_, ?_, ?_, ?_, ?_⟩
  · intro w' member
    rw [parties] at member
    obtain ⟨w, w_member, rfl⟩ := List.mem_map.1 member
    refine .inl ⟨w, (List.mem_filter.1 w_member).1, by simp, by simp,
      fun awaits => (Wait.reply_abandonIf_eq_awaited.1 awaits).2, fun response => ?_⟩
    rw [reply_abandonIf_eq_delivered]
    refine ⟨.inl, fun either => either.resolve_right fun told => ?_⟩
    obtain ⟨outcome, same⟩ := told_only _ told
    cases same
  · intro w member
    rw [drops]
    by_cases leaving : w.ticket = p.ticket
    · exact .inl leaving
    · refine .inr ⟨w.abandonIf ts, ?_, by simp, by simp⟩
      rw [parties]
      exact List.mem_map_of_mem (List.mem_filter.2 ⟨member, by simpa using leaving⟩)
  · intro t dropped
    rw [drops] at dropped
    rw [dropped, next, parties]
    refine ⟨h.ticket_lt _ mine, ?_⟩
    intro w' member
    obtain ⟨w, w_member, rfl⟩ := List.mem_map.1 member
    rw [Wait.ticket_abandonIf]
    simpa using (List.mem_filter.1 w_member).2
  · intro t id told
    obtain ⟨outcome, same⟩ := told_only _ told
    cases same
  · intro t response told
    obtain ⟨outcome, same⟩ := told_only _ told
    cases same

/-- A sender that joins does nothing to those who wait. -/
theorem of_join_send {command : Command} (same : SameWaits (c.join .send .awaited) c')
    (quiet : ∀ e ∈ es, e.isTraffic = true) : Passage c (.send command) es c' := by
  have parties := same.waits
  rw [waits_join] at parties
  have next : c'.nextTicket = c.nextTicket + 1 := same.nextTicket
  refine ⟨by rw [next]; exact Nat.le_succ _, ?_, ?_, ?_, ?_, ?_⟩
  · intro w' member
    rw [parties] at member
    rcases List.mem_append.1 member with older | last
    · refine .inl ⟨w', older, rfl, rfl, fun awaits => awaits, fun response => ⟨.inl, ?_⟩⟩
      exact fun either => either.resolve_right (not_mem_of_isTraffic quiet rfl)
    · obtain rfl := List.mem_singleton.1 last
      refine .inr ⟨rfl, by rw [next]; exact Nat.lt_succ_self _, rfl, trivial, ?_⟩
      intro id waiting
      cases waiting
  · intro w member
    refine .inr ⟨w, ?_, rfl, rfl⟩
    rw [parties]
    exact List.mem_append_left _ member
  · exact fun t drops => absurd drops (not_drops_of_isTraffic quiet (by simp) t)
  · exact fun t id told => absurd told (not_mem_of_isTraffic quiet rfl)
  · exact fun t response told => absurd told (not_mem_of_isTraffic quiet rfl)

/-- Who is refused does nothing to those who wait. -/
theorem of_refusal (h : Coherent c) {e : Event}
    (told : e = .finished c.nextTicket (.error .noConnectionAvailable) ∨ e = .refused c.nextTicket)
    (stays : ∀ t, a ≠ .cancel t) :
    Passage c a [e] { c with nextTicket := c.nextTicket + 1 } := by
  refine ⟨Nat.le_succ _, ?_, fun w member => .inr ⟨w, member, rfl, rfl⟩, ?_, ?_, ?_⟩
  · intro w member
    refine .inl ⟨w, member, rfl, rfl, fun awaits => awaits, fun response => ⟨.inl, ?_⟩⟩
    rintro (same | delivered)
    · exact same
    · rcases told with rfl | rfl <;> cases List.mem_singleton.1 delivered
  · rintro t (⟨outcome, finished⟩ | cancels)
    · have same := List.mem_singleton.1 finished
      rcases told with rfl | rfl
      · obtain ⟨rfl, -⟩ := Event.finished.inj same
        exact ⟨Nat.lt_succ_self _, fun w member => Nat.ne_of_lt (h.ticket_lt w member)⟩
      · cases same
    · exact absurd cancels (stays t)
  · intro t id registered
    rcases told with rfl | rfl <;> cases List.mem_singleton.1 registered
  · intro t response delivered
    rcases told with rfl | rfl <;> cases List.mem_singleton.1 delivered

/-- A response that is handed over reaches one waiter. -/
theorem of_handOver (h : Coherent c) {inbound : Inbound} {response : Response} {id : CorrelationId}
    {t : Ticket} (read : inbound.response? = some response)
    (key : c.registry.firstOf? response.correlationKeys = some id)
    (waiting : c.registry.find? id = some t) (same : SameWaits (c.handOver id t response) c') :
    Passage c (.receive inbound) [.delivered t response] c' := by
  have parties := same.waits
  rw [waits_handOver] at parties
  obtain ⟨mine, mine_member, rfl, -, awaits⟩ := h.wait_of_find? waiting
  refine ⟨Nat.le_of_eq same.nextTicket.symm, ?_, ?_, ?_, ?_, ?_⟩
  · intro w' member
    rw [parties] at member
    obtain ⟨w, w_member, rfl⟩ := List.mem_map.1 member
    refine .inl ⟨w, w_member, by simp, by simp, fun still => (Wait.reply_answer_eq_awaited.1 still).2,
      fun response' => ?_⟩
    by_cases is_mine : w.ticket = mine.ticket
    · rw [h.wait_unique w_member mine_member is_mine, awaits]
      simp [Wait.answer, eq_comm]
    · simp [Wait.answer, is_mine]
  · intro w member
    refine .inr ⟨w.answer mine.ticket response, ?_, by simp, by simp⟩
    rw [parties]
    exact List.mem_map_of_mem member
  · rintro t (⟨outcome, told⟩ | cancels)
    · cases List.mem_singleton.1 told
    · cases cancels
  · intro t id' told
    cases List.mem_singleton.1 told
  · intro t response' told
    obtain ⟨rfl, rfl⟩ := Event.delivered.inj (List.mem_singleton.1 told)
    exact ⟨rfl, inbound, id, rfl, read, key, waiting⟩

/-- Whatever an action does to those who wait is a passage. -/
theorem of_effect (h : Coherent c) (effect : Effect c now c' a es) : Passage c a es c' := by
  cases effect with
  | traffic same quiet _ stays =>
    refine of_map id (by rw [same.waits, List.map_id]) same.nextTicket (fun _ => rfl) (fun _ => rfl)
      (fun _ awaits => awaits) (fun _ _ => Iff.rfl) ?_ ?_ (not_drops_of_isTraffic quiet stays)
    · exact fun t id => not_mem_of_isTraffic quiet rfl
    · exact fun t response => not_mem_of_isTraffic quiet rfl
  | closed same =>
    rw [same]
    refine of_map _ (waits_sever c) rfl (by simp) (by simp)
      (fun w awaits => (Wait.reply_abandonIf_eq_awaited.1 awaits).2)
      (fun _ _ => reply_abandonIf_eq_delivered) (by simp) (by simp) (by simp [Drops])
  | @lost a es live same quiet stays =>
    have told_only : ∀ e ∈ es ++ [.lost c.notice], e.isTraffic = false → e = .lost c.notice := by
      intro e member other
      rcases List.mem_append.1 member with older | last
      · exact absurd older (not_mem_of_isTraffic quiet other)
      · exact List.mem_singleton.1 last
    refine of_map _ (same.waits.trans (waits_sever c)) same.nextTicket (by simp) (by simp)
      (fun w awaits => (Wait.reply_abandonIf_eq_awaited.1 awaits).2)
      (fun _ _ => reply_abandonIf_eq_delivered) ?_ ?_ ?_
    · exact fun t id told => nomatch told_only _ told rfl
    · exact fun t response told => nomatch told_only _ told rfl
    · rintro t (⟨outcome, told⟩ | cancels)
      · cases told_only _ told rfl
      · exact stays t cancels
  | registered waiting starts entered same quiet => exact of_registration h waiting starts entered same quiet
  | sent _ same quiet => exact of_join_send same quiet
  | refused _ same told stays =>
    rw [same]
    exact of_refusal h told stays
  | @left a es p found same how =>
    rw [same]
    refine of_leave h found ?_
    rcases how with cancelled | ⟨outcome, wakes, _, told⟩
    · exact .inl cancelled
    · exact .inr ⟨outcome, wakes, told⟩
  | delivered read key waiting same => exact of_handOver h read key waiting same

/-- What an action does to each waiter. -/
theorem of_step (h : Coherent c) (taken : c.step now a = some (c', es)) : Passage c a es c' :=
  of_effect h (.of_step taken)

end Passage

end CallPool.Connection
