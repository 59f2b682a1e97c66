import CallPool.Proofs.Connection.Account
import CallPool.Proofs.CorrelationId.Distinct

/-!
# IDs that are distinct

The waiters of a connection are kept apart by their IDs. How long an ID has to be left to the waiter that
has it can be asked for in two ways: until it has its reply or is dropped (`DistinctWhileOutstanding`), or
until it is dropped (`DistinctWhileHeld`). The second is more, and is the case when all IDs differ
(`distinctWhileHeld_of_nodup`), and so when they are generated (`GeneratedIds.distinct`). With it no two
waiters share an ID, and none is displaced (`Apart.of_run`).
-/

set_option autoImplicit false

namespace CallPool.Connection

/-- Whether a waiter was registered under an ID, has had no response and has not been dropped. -/
def Outstanding (moments : List Moment) (t : Ticket) (id : CorrelationId) : Prop :=
  Event.registered t id ∈ eventsOf moments ∧
    (∀ response, Event.delivered t response ∉ eventsOf moments) ∧ ¬ Dropped moments t

/-- The waiters that are outstanding are those who are there and have no response. -/
theorem outstanding_iff {moments : List Moment} {c : Connection} (account : Account moments c)
    {t : Ticket} {id : CorrelationId} : Outstanding moments t id ↔
      ∃ w ∈ c.waits, w.ticket = t ∧ w.purpose.id? = some id ∧
        ∀ response, w.reply ≠ .delivered response := by
  constructor
  · rintro ⟨registered, undelivered, undropped⟩
    obtain ⟨_, dropped | ⟨w, member, rfl, waiting⟩⟩ := account.present t id registered
    · exact absurd dropped undropped
    · refine ⟨w, member, rfl, waiting, fun response reply => ?_⟩
      exact undelivered response ((account.reply w member response).1 reply)
  · rintro ⟨w, member, rfl, waiting, unanswered⟩
    refine ⟨account.registered w member id waiting, fun response told => ?_, fun dropped => ?_⟩
    · exact unanswered response ((account.reply w member response).2 told)
    · exact (account.gone w.ticket dropped).2 w member rfl

/-- Whether no ID is registered again before the waiter that had it has been dropped. That the
waiter has had its response is not enough: when it is dropped it takes away what stands under its
ID. -/
def DistinctWhileHeld (moments : List Moment) : Prop :=
  ∀ older m newer t t' id, moments = older ++ m :: newer → Event.registered t id ∈ m.events →
    Event.registered t' id ∈ eventsOf older → Dropped older t'

/-- Whether no ID is registered while a waiter that has it is outstanding. -/
def DistinctWhileOutstanding (moments : List Moment) : Prop :=
  ∀ older m newer t t' id, moments = older ++ m :: newer → Event.registered t id ∈ m.events →
    ¬ Outstanding older t' id

/-- Who is not yet registered, or dropped, is not outstanding. -/
theorem DistinctWhileHeld.distinctWhileOutstanding {moments : List Moment} (h : DistinctWhileHeld moments) :
    DistinctWhileOutstanding moments :=
  fun older m newer t t' id same told ⟨before, _, undropped⟩ =>
    undropped (h older m newer t t' id same told before)

/-- The ID under which an event registers somebody. -/
def Event.registeredId? : Event → Option CorrelationId
  | .registered _ id => some id
  | _ => none

/-- IDs that all differ are distinct while they are held. -/
theorem distinctWhileHeld_of_nodup {moments : List Moment}
    (once : ((eventsOf moments).filterMap Event.registeredId?).Nodup) :
    DistinctWhileHeld moments := by
  rintro older m newer t t' id rfl told before
  rw [eventsOf_append, eventsOf_cons, List.filterMap_append, List.filterMap_append] at once
  have first : id ∈ (eventsOf older).filterMap Event.registeredId? :=
    List.mem_filterMap.2 ⟨_, before, rfl⟩
  have second : id ∈ m.events.filterMap Event.registeredId? := List.mem_filterMap.2 ⟨_, told, rfl⟩
  exact absurd rfl ((List.nodup_append.1 once).2.2 id first id (List.mem_append_left _ second))

/-- Whether the IDs under which somebody is registered were given out by the threads of a process, each to
one waiter. -/
def GeneratedIds (moments : List Moment) : Prop :=
  ∃ generating now threads, CorrelationId.Threads.Run generating now threads ∧
    CorrelationId.Threads.taken generating ≤ 2 ^ 64 ∧
    ((eventsOf moments).filterMap Event.registeredId?).Subperm (eventsOf generating)

/-- No generated ID is registered twice. -/
theorem GeneratedIds.nodup {moments : List Moment} (generated : GeneratedIds moments) :
    ((eventsOf moments).filterMap Event.registeredId?).Nodup := by
  obtain ⟨generating, now, threads, run, few, ids, same, among⟩ := generated
  exact same.nodup_iff.1 ((CorrelationId.Threads.distinct_of_run run few).nodup.sublist among)

/-- Generated IDs, of which no two are the same, are distinct while they are held. -/
theorem GeneratedIds.distinct {moments : List Moment} (generated : GeneratedIds moments) :
    DistinctWhileHeld moments :=
  distinctWhileHeld_of_nodup generated.nodup

/-- IDs that are distinct over a whole run are so over its beginning. -/
theorem DistinctWhileHeld.of_append {moments moments' : List Moment}
    (h : DistinctWhileHeld (moments ++ moments')) : DistinctWhileHeld moments := by
  rintro older m newer t t' id rfl told before
  exact h older m (newer ++ moments') t t' id (by simp) told before

/-- Nobody is displaced: no two waiters share an ID, and no reply is given up while the connection
is live. -/
structure Apart (c : Connection) : Prop where
  id_unique : ∀ w ∈ c.waits, ∀ w' ∈ c.waits, ∀ id, w.purpose.id? = some id →
    w'.purpose.id? = some id → w = w'
  not_abandoned : c.connected = true → ∀ w ∈ c.waits, ∀ id, w.purpose.id? = some id →
    w.reply ≠ .abandoned

namespace Apart

variable {c c' : Connection}

/-- A change of the replies alone keeps the parties apart, if it abandons nobody who was not. -/
theorem of_map (h : Apart c) (f : Wait → Wait) (waits : c'.waits = c.waits.map f)
    (purpose : ∀ w, (f w).purpose = w.purpose)
    (kept : c'.connected = true → c.connected = true ∧ ∀ w ∈ c.waits, (f w).reply = .abandoned →
      w.reply = .abandoned) : Apart c' where
  id_unique := by
    intro w member w' member' id waiting waiting'
    rw [waits] at member member'
    obtain ⟨old, old_member, rfl⟩ := List.mem_map.1 member
    obtain ⟨old', old_member', rfl⟩ := List.mem_map.1 member'
    rw [purpose] at waiting waiting'
    rw [h.id_unique old old_member old' old_member' id waiting waiting']
  not_abandoned := by
    intro live w member id waiting abandoned
    obtain ⟨was_live, earlier⟩ := kept live
    rw [waits] at member
    obtain ⟨old, old_member, rfl⟩ := List.mem_map.1 member
    rw [purpose] at waiting
    exact h.not_abandoned was_live old old_member id waiting (earlier old old_member abandoned)

/-- A party that is registered under an unused ID keeps the parties apart. -/
theorem of_register? (h : Apart c) (coherent : Coherent c) {purpose : Purpose} {verdict : Verdict}
    {id : CorrelationId} {r : Connection} (waiting : purpose.id? = some id)
    (entered : (c.join purpose verdict).register? id c.nextTicket = some r)
    (unused : ∀ w ∈ c.waits, w.purpose.id? ≠ some id) : Apart r := by
  obtain ⟨live, -, -, -, parties⟩ := Coherent.waits_of_register? entered
  have free : c.registry.find? id = none := by
    cases found : c.registry.find? id with
    | none => rfl
    | some t =>
      obtain ⟨w, member, _, waiting', _⟩ := coherent.wait_of_find? found
      exact absurd waiting' (unused w member)
  rw [free, Option.toList_none, Wait.map_abandonIf_nil, waits_join] at parties
  refine ⟨?_, ?_⟩
  · intro w member w' member' id' waiting₁ waiting₂
    rw [parties] at member member'
    rcases List.mem_append.1 member with older | last <;>
      rcases List.mem_append.1 member' with older' | last'
    · exact h.id_unique w older w' older' id' waiting₁ waiting₂
    · rw [List.mem_singleton.1 last', waiting] at waiting₂
      exact absurd (waiting₁.trans waiting₂.symm) (unused w older)
    · rw [List.mem_singleton.1 last, waiting] at waiting₁
      exact absurd (waiting₂.trans waiting₁.symm) (unused w' older')
    · rw [List.mem_singleton.1 last, List.mem_singleton.1 last']
  · intro _ w member id' waiting'
    rw [parties] at member
    rcases List.mem_append.1 member with older | last
    · exact h.not_abandoned live w older id' waiting'
    · rw [List.mem_singleton.1 last]
      nofun

/-- A party that leaves keeps the others apart. -/
theorem of_leave (h : Apart c) (coherent : Coherent c) {p : Party}
    (found : c.party? p.ticket = some p) : Apart (c.leave p) := by
  have mine : p.wait ∈ c.waits := List.mem_map_of_mem (List.mem_of_find?_eq_some found)
  have parties : (c.leave p).waits = c.waits.filter fun w => w.ticket ≠ p.ticket := by
    obtain ⟨-, -, rest⟩ := Coherent.waits_leave c p
    cases own : p.purpose.id? with
    | none =>
      simp only [own] at rest
      exact rest.2
    | some id =>
      simp only [own] at rest
      rw [rest.2]
      -- What stands under the ID that is given back is the entry of `p`, for no other waiter has that ID.
      have kept : ∀ w ∈ c.waits.filter fun w => w.ticket ≠ p.ticket,
          Wait.abandonIf (c.registry.find? id).toList w = w := by
        intro w member
        obtain ⟨w_member, other⟩ := List.mem_filter.1 member
        rw [decide_eq_true_eq] at other
        have not_found : w.ticket ∉ (c.registry.find? id).toList := by
          intro held
          have same_id := coherent.id_of_find? w_member (Option.mem_toList.1 held)
          exact other (congrArg Wait.ticket (h.id_unique w w_member p.wait mine id same_id own))
        simp [Wait.abandonIf, not_found]
      rw [List.map_congr_left kept, List.map_id']
  have live := (Coherent.waits_leave c p).1
  refine ⟨?_, ?_⟩
  · intro w member w' member'
    rw [parties] at member member'
    exact h.id_unique w (List.mem_filter.1 member).1 w' (List.mem_filter.1 member').1
  · intro is_live w member
    rw [parties] at member
    rw [live] at is_live
    exact h.not_abandoned is_live w (List.mem_filter.1 member).1

/-- Nothing that happens brings two parties under one ID, if those who are registered use none that is
held. -/
theorem of_effect (h : Apart c) (coherent : Coherent c) {now : Nat} {a : Action} {es : List Event}
    (effect : Effect c now c' a es)
    (unused : ∀ t id, Event.registered t id ∈ es → ∀ w ∈ c.waits, w.purpose.id? ≠ some id) :
    Apart c' := by
  have congr : ∀ {d d' : Connection}, Apart d → SameWaits d d' → Apart d' := by
    intro d d' apart same
    refine apart.of_map (fun w => w) (by rw [same.waits, List.map_id']) (fun _ => rfl) ?_
    intro live
    exact ⟨by rw [← same.connected, live], fun _ _ abandoned => abandoned⟩
  have severed : Apart c.sever := by
    refine h.of_map _ (waits_sever c) (Wait.purpose_abandonIf _) ?_
    intro live
    cases live
  cases effect with
  | traffic same _ _ _ => exact congr h same
  | closed same => rw [same]; exact severed
  | lost _ same _ _ => exact congr severed same
  | @registered _ _ _ _ id _ waiting _ entered same _ =>
    exact congr (h.of_register? coherent waiting entered (unused c.nextTicket id List.mem_cons_self)) same
  | sent live same _ =>
    refine congr ⟨?_, ?_⟩ same
    · intro w member w' member' id waiting waiting'
      rw [waits_join] at member member'
      rcases List.mem_append.1 member with older | last
      · rcases List.mem_append.1 member' with older' | last'
        · exact h.id_unique w older w' older' id waiting waiting'
        · rw [List.mem_singleton.1 last'] at waiting'
          cases waiting'
      · rw [List.mem_singleton.1 last] at waiting
        cases waiting
    · intro _ w member id waiting
      rw [waits_join] at member
      rcases List.mem_append.1 member with older | last
      · exact h.not_abandoned live w older id waiting
      · rw [List.mem_singleton.1 last] at waiting
        cases waiting
  | refused _ same _ _ => rw [same]; exact ⟨h.id_unique, h.not_abandoned⟩
  | left found same _ => rw [same]; exact h.of_leave coherent found
  | @delivered _ response id t _ _ waiting same =>
    refine congr (h.of_map _ (waits_handOver c id t response) (Wait.purpose_answer t response) ?_) same
    intro live
    refine ⟨live, fun w _ abandoned => ?_⟩
    unfold Wait.answer at abandoned
    split at abandoned
    · cases abandoned
    · exact abandoned

/-- In every state of a run in which IDs are distinct while they are held, waiters are apart. -/
theorem of_run {slot generation began now : Nat} {options : Options} {moments : List Moment}
    (run : Run (Connection.opened slot generation options began) began moments now c)
    (distinct : DistinctWhileHeld moments) : Apart c := by
  induction run with
  | start => exact ⟨by simp [waits, Connection.opened], by simp [waits, Connection.opened]⟩
  | act past taken ih =>
    refine (ih distinct.of_append).of_effect (Coherent.of_run past) (.of_step taken) ?_
    intro t id told w member waiting
    have account := Account.of_run past
    have dropped := distinct _ _ [] t w.ticket id rfl told (account.registered w member id waiting)
    exact (account.gone w.ticket dropped).2 w member rfl
  | rest _ _ _ ih => exact ih distinct

end Apart

end CallPool.Connection
