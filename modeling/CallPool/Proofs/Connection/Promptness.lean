import CallPool.Proofs.Connection.PartyLives

/-!
# What happens when it is due

In a prompt run no call outlives its deadline (`le_deadline_of_run`), and a party that has learnt
what it ends with is gone before time passes (`ends_at_once`).
-/

set_option autoImplicit false

namespace CallPool.Connection

variable {c c' : Connection} {began now : Nat} {moments : List Moment}

instance (c : Connection) (now later : Nat) : Decidable (c.mayRest now later) :=
  inferInstanceAs (Decidable (_ ∧ _))

/-- A prompt run is a run. -/
theorem run_of_prompt (run : PromptRun c began moments now c') : Run c began moments now c' :=
  run.loosen fun _ _ _ _ => trivial

/-- Nobody can end while nothing is ready. -/
theorem ending?_of_idle (idle : c.ready now = []) {p : Party} (member : p ∈ c.parties) :
    p.ending? c.slot now = none := by
  cases ends : p.ending? c.slot now with
  | none => rfl
  | some outcome =>
    have wakes : Action.wake p.ticket ∈ c.ready now := by
      unfold ready partiesReady
      refine List.mem_append_left _ (List.mem_append_left _ (List.mem_map.2 ⟨p, ?_, rfl⟩))
      exact List.mem_filter.2 ⟨member, by rw [ends]; rfl⟩
    rw [idle] at wakes
    cases wakes

/-- A party whose outcome is known ends with it, whatever the time. -/
theorem Party.ending?_of_outcome? {p : Party} {slot : Nat} {outcome : Outcome}
    (known : p.outcome? slot = some outcome) : p.ending? slot now = some outcome := by
  simp [ending?, known]

/-- What a call ends with: what it has learnt, or a timeout at its deadline or behind it. -/
theorem Party.ending?_call {p : Party} {slot since : Nat} {id : CorrelationId} {limit : Duration}
    (calls : p.purpose = .call id limit since) : p.ending? slot now =
      match p.outcome? slot with
      | some outcome => some outcome
      | none =>
        if since + limit.nanos ≤ now then some (.error (.requestTimeout id limit.millis)) else none := by
  unfold ending?
  cases p.outcome? slot with
  | some outcome => rfl
  | none => simp [calls, Purpose.deadline?, surrender?]

/-- In every state of a prompt run no party has missed its deadline. -/
theorem le_deadline_of_run {slot generation : Nat} {options : Options}
    (run : PromptRun (Connection.opened slot generation options began) began moments now c) :
    ∀ p ∈ c.parties, ∀ deadline, p.purpose.deadline? = some deadline → now ≤ deadline := by
  induction run with
  | start => simp [Connection.opened]
  | @act _ now _ _ _ _ past taken ih =>
    have past := run_of_prompt past
    have posted := (Posted.opened slot generation options began).along (.opened _ _ _ _) past
    intro p' member deadline due
    rcases Advance.of_step (Coherent.of_run past) posted taken member with
      ⟨p, p_member, goes_on⟩ | comes
    · exact ih p p_member deadline (goes_on.purpose ▸ due)
    · have adds := comes.purpose
      unfold Action.purpose? at adds
      split at adds
      · rename_i id command limit calls
        rw [← Option.some.inj adds] at due
        have same : now + limit.nanos = deadline := Option.some.inj due
        omega
      · rw [← Option.some.inj adds] at due
        cases due
      · rw [← Option.some.inj adds] at due
        cases due
      · cases adds
  | rest _ _ allowed ih =>
    rename_i before later state past forward
    intro p member deadline due
    obtain ⟨idle, alarms⟩ := allowed
    have alarm : deadline ∈ state.alarms := by
      unfold Connection.alarms
      refine List.mem_append_left _ (List.mem_append_left _ ?_)
      exact List.mem_filterMap.2 ⟨p, member, due⟩
    rcases alarms deadline alarm with passed | ahead
    · -- At its deadline the party would be ready.
      have none_ends := ending?_of_idle idle member
      obtain ⟨id, limit, since, calls⟩ : ∃ id limit since, p.purpose = .call id limit since := by
        cases purpose : p.purpose with
        | call id limit since => exact ⟨id, limit, since, rfl⟩
        | _ =>
          rw [purpose] at due
          cases due
      rw [calls] at due
      have same : since + limit.nanos = deadline := Option.some.inj due
      rw [Party.ending?_call calls] at none_ends
      split at none_ends
      · cases none_ends
      · rw [if_pos (by omega)] at none_ends
        cases none_ends
    · exact ahead

/-- What a party has learnt stays. -/
theorem Advance.outcome?_of_known {m : Moment} {p p' : Party} {slot : Nat} {outcome : Outcome}
    (goes_on : Advance m p p') (known : p.outcome? slot = some outcome) :
    p'.outcome? slot = some outcome := by
  unfold Party.outcome? at known ⊢
  rcases goes_on.verdict with same | ⟨awaits, _⟩
  · rw [same, goes_on.purpose]
    rcases goes_on.reply with same_reply | ⟨awaits, _⟩
    · rw [same_reply]
      exact known
    · -- Only a party that is not to have a reply has learnt enough without one.
      rw [awaits] at known
      cases verdict : p.verdict with
      | awaited => simp [verdict] at known
      | failed fault => simpa [verdict] using known
      | written =>
        cases own : p.purpose.id? with
        | none => simpa [verdict, own] using known
        | some id => simp [verdict, own] at known
  · rw [awaits] at known
    cases known

/-- A party that has learnt what it ends with ends so at this very instant, if it is not
cancelled. -/
theorem ends_at_once {t : Ticket} {outcome : Outcome} (run : PromptRun c began moments now c')
    (coherent : Coherent c) (posted : Posted c) (below : t < c.nextTicket)
    (known : ∀ p ∈ c.parties, p.ticket = t → p.outcome? c.slot = some outcome) :
    (∀ ending ∈ endings moments t, ending = (began, outcome)) ∧
      ((∃ p ∈ c'.parties, p.ticket = t) → now = began) := by
  have still_known : ∀ {ms : List Moment} {later : Nat} {d : Connection},
      PromptRun c began ms later d → ∀ p ∈ d.parties, p.ticket = t → p.outcome? d.slot = some outcome := by
    intro ms later d past
    have past := run_of_prompt past
    have same_slot : d.slot = c.slot := congrArg Notice.slot (place_of_run past)
    rw [same_slot]
    exact advance_along past coherent posted below known fun _ _ _ goes_on known =>
      goes_on.outcome?_of_known known
  induction run with
  | start => exact ⟨by simp [endings], fun _ => rfl⟩
  | @act ms now d d' a es past taken ih =>
    have run := run_of_prompt past
    have coherent' := coherent.along run
    have further := Nat.lt_of_lt_of_le below (nextTicket_le_of_run run coherent)
    refine ⟨?_, ?_⟩
    · rintro ⟨i, outcome'⟩ seen
      rw [endings_append, List.mem_append] at seen
      rcases seen with earlier | last
      · exact ih.1 _ earlier
      · obtain ⟨m, member, rfl, told⟩ := mem_endings.1 last
        obtain rfl := List.mem_singleton.1 member
        rcases (Effect.of_step taken).of_finished told with ⟨same, _⟩ | ⟨p, p_member, mine, ends⟩
        · exact absurd same (Nat.ne_of_lt further)
        · have at_once : now = began := ih.2 ⟨p, p_member, mine⟩
          rw [Party.ending?_of_outcome? (still_known past p p_member mine)] at ends
          rw [at_once, Option.some.inj ends]
    · rintro ⟨p', member, mine⟩
      rcases Advance.of_step coherent' (posted.along coherent run) taken member with
        ⟨p, p_member, goes_on⟩ | comes
      · exact ih.2 ⟨p, p_member, goes_on.ticket.symm.trans mine⟩
      · exact absurd (mine.symm.trans comes.ticket) (Nat.ne_of_lt further)
  | rest past _ allowed ih =>
    refine ⟨ih.1, ?_⟩
    rintro ⟨p, member, mine⟩
    have none_ends := ending?_of_idle allowed.1 member
    rw [Party.ending?_of_outcome? (still_known past p member mine)] at none_ends
    cases none_ends

end CallPool.Connection
