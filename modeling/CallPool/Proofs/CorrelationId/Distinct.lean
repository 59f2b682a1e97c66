import CallPool.CorrelationId.Threads
import CallPool.Proofs.CorrelationId.Segments
import CallPool.Proofs.History
import Mathlib.Algebra.Group.Nat.Defs

/-!
# Generated IDs are distinct

The threads of a process may act in any order. Each ID is made of what its thread did since it gave out
the one before: it drew random bytes, looked at the clock and took a number (`Made`). The number is how
many had been taken before, and no two IDs that were given out or wait for it have the same number
(`Distinct`), until the numbers begin anew behind 2⁶⁴ of them. What is the same about two IDs otherwise
does not matter, since the number of an ID can be read off it.

Main statement: `generated_distinct`.
-/

set_option autoImplicit false

namespace CallPool.CorrelationId.Threads

variable {s s' : Threads} {now t t' : Nat} {a : Action} {ids : List CorrelationId}
  {ms : List (Moment Threads Action CorrelationId)}

/-- Setting the stage of a thread leaves those of the others. -/
@[simp] theorem stage_set (s : Threads) (t t' : Nat) (stage : Stage) :
    (s.set t stage).stage t' = if t' = t then stage else s.stage t' := rfl

/-! ## Single steps -/

/-- What a step does. -/
inductive Turn (s : Threads) : Action → Threads → List CorrelationId → Prop
  | draw {t : Nat} {random : RandomBytes} (idle : s.stage t = .idle) :
      Turn s (.draw t random) (s.set t (.drawn random)) []
  | look {t : Nat} {random : RandomBytes} {clock : Int} (drawn : s.stage t = .drawn random) :
      Turn s (.look t clock) (s.set t (.stamped random clock.toNat)) []
  | number {t : Nat} {random : RandomBytes} {nanos : Nat} (stamped : s.stage t = .stamped random nanos) :
      Turn s (.number t) ((⟨⟨s.source.sequence + 1⟩, s.stage⟩ : Threads).set t
        (.named (ofSegments random nanos s.source.sequence))) []
  | give {t : Nat} {id : CorrelationId} (named : s.stage t = .named id) :
      Turn s (.give t) (s.set t .idle) [id]

/-- Whatever a thread does is one of its turns. -/
theorem turn_of_step (taken : s.step now a = some (s', ids)) : Turn s a s' ids := by
  cases a with
  | draw t random =>
    simp only [step] at taken
    split at taken
    · next idle =>
      obtain ⟨rfl, rfl⟩ := Prod.mk.inj (Option.some.inj taken)
      exact .draw idle
    · cases taken
  | look t clock =>
    simp only [step] at taken
    split at taken
    · next drawn =>
      obtain ⟨rfl, rfl⟩ := Prod.mk.inj (Option.some.inj taken)
      exact .look drawn
    · cases taken
  | number t =>
    simp only [step] at taken
    split at taken
    · next stamped =>
      obtain ⟨rfl, rfl⟩ := Prod.mk.inj (Option.some.inj taken)
      exact .number stamped
    · cases taken
  | give t =>
    simp only [step] at taken
    split at taken
    · next named =>
      obtain ⟨rfl, rfl⟩ := Prod.mk.inj (Option.some.inj taken)
      exact .give named
    · cases taken

/-! ## What an ID is made of -/

/-- What a thread did, in order. -/
def doings (t : Nat) (ms : List (Moment Threads Action CorrelationId)) : List Action :=
  (ms.map Moment.action).filter fun a => a.thread = t

/-- Whether a number is taken. -/
def Action.isNumber : Action → Bool
  | number _ => true
  | _ => false

/-- How many numbers were taken. -/
def taken (ms : List (Moment Threads Action CorrelationId)) : Nat :=
  ms.countP fun m => m.action.isNumber

/-- One more moment is one more doing of its own thread. -/
theorem doings_concat (t : Nat) (ms : List (Moment Threads Action CorrelationId))
    (m : Moment Threads Action CorrelationId) :
    doings t (ms ++ [m]) = doings t ms ++ if m.action.thread = t then [m.action] else [] := by
  simp only [doings, List.map_append, List.map_cons, List.map_nil, List.filter_append]
  by_cases own : m.action.thread = t <;> simp [own]

/-- One more number is taken if the moment takes one. -/
theorem taken_concat (ms : List (Moment Threads Action CorrelationId))
    (m : Moment Threads Action CorrelationId) :
    taken (ms ++ [m]) = taken ms + if m.action.isNumber then 1 else 0 := by
  simp [taken, List.countP_append, List.countP_cons]

/-- An ID that a thread made of what it did last: it drew these bytes, then looked at the clock, which
showed this, then took a number, when so many had been taken. -/
structure Made (ms : List (Moment Threads Action CorrelationId)) (t : Nat) (random : RandomBytes)
    (clock : Int) (count : Nat) : Prop where
  cut : ∃ past m future, ms = past ++ m :: future ∧ m.action = .number t ∧
    [.draw t random, .look t clock] <:+ doings t past ∧ doings t future = [] ∧ taken past = count

/-- The number in an ID is one that has been taken. -/
theorem Made.count_lt {random : RandomBytes} {clock : Int} {count : Nat}
    (made : Made ms t random clock count) : count < taken ms := by
  obtain ⟨past, m, future, rfl, number, _, _, rfl⟩ := made.cut
  have one : m.action.isNumber = true := by rw [number]; rfl
  simp only [taken, List.countP_append, List.countP_cons, one, if_true]
  omega

/-- What another thread does leaves it as it is. -/
theorem Made.concat {random : RandomBytes} {clock : Int} {count : Nat}
    (made : Made ms t random clock count) {m : Moment Threads Action CorrelationId}
    (other : m.action.thread ≠ t) : Made (ms ++ [m]) t random clock count := by
  obtain ⟨past, number, future, rfl, rest⟩ := made.cut
  refine ⟨past, number, future ++ [m], by simp, rest.1, rest.2.1, ?_, rest.2.2.2⟩
  rw [doings_concat, if_neg other, rest.2.2.1]
  rfl

/-- What a thread has done when it is at a stage. -/
def Traced (ms : List (Moment Threads Action CorrelationId)) (t : Nat) : Stage → Prop
  | .idle => True
  | .drawn random => [.draw t random] <:+ doings t ms
  | .stamped random nanos => ∃ clock : Int, nanos = clock.toNat ∧
      [.draw t random, .look t clock] <:+ doings t ms
  | .named id => ∃ random clock count, Made ms t random clock count ∧
      id = ofSegments random clock.toNat (UInt64.ofNat count)

/-- What another thread does leaves a thread traced. -/
theorem Traced.concat {stage : Stage} (traced : Traced ms t stage)
    {m : Moment Threads Action CorrelationId} (other : m.action.thread ≠ t) :
    Traced (ms ++ [m]) t stage := by
  have same : doings t (ms ++ [m]) = doings t ms := by
    rw [doings_concat, if_neg other, List.append_nil]
  cases stage with
  | idle => trivial
  | drawn random =>
    rw [Traced, same]
    exact traced
  | stamped random nanos =>
    simp only [Traced, same]
    exact traced
  | named id =>
    obtain ⟨random, clock, count, made, rfl⟩ := traced
    exact ⟨random, clock, count, made.concat other, rfl⟩

/-- Every thread is traced, and the source gives the numbers in their order. -/
structure Orderly (ms : List (Moment Threads Action CorrelationId)) (s : Threads) : Prop where
  source : s.source.sequence = UInt64.ofNat (taken ms)
  traced : ∀ t, Traced ms t (s.stage t)

/-- Whatever a thread does, all threads stay traced and the numbers in order. -/
theorem Orderly.of_step (h : Orderly ms s) (moved : s.step now a = some (s', ids)) :
    Orderly (ms ++ [⟨now, a, ids, s, s'⟩]) s' := by
  have own := h.traced a.thread
  have told : ∀ t, doings t (ms ++ [⟨now, a, ids, s, s'⟩]) =
      doings t ms ++ if a.thread = t then [a] else [] := fun t => doings_concat t ms _
  have counted : taken (ms ++ [⟨now, a, ids, s, s'⟩]) = taken ms + if a.isNumber then 1 else 0 :=
    taken_concat ms _
  -- The other threads are where they were; what remains is the thread that moved.
  suffices ∃ stage, s'.stage = (s.set a.thread stage).stage ∧
      Traced (ms ++ [⟨now, a, ids, s, s'⟩]) a.thread stage ∧
        s'.source.sequence = UInt64.ofNat (taken (ms ++ [⟨now, a, ids, s, s'⟩])) by
    obtain ⟨stage, moved_on, traced, source⟩ := this
    refine ⟨source, fun t => ?_⟩
    rw [moved_on, stage_set]
    by_cases same : t = a.thread
    · rw [if_pos same, same]
      exact traced
    · rw [if_neg same]
      exact (h.traced t).concat fun own => same own.symm
  cases turn_of_step moved with
  | @draw t random idle =>
    refine ⟨_, rfl, ?_, by rw [counted]; exact h.source⟩
    rw [Traced, told, if_pos rfl]
    exact List.suffix_append _ _
  | @look t random clock drawn =>
    refine ⟨_, rfl, ⟨clock, rfl, ?_⟩, by rw [counted]; exact h.source⟩
    rw [told, if_pos rfl]
    rw [show s.stage (Action.look t clock).thread = .drawn random from drawn] at own
    exact List.suffix_append_self_iff.2 own
  | @number t random nanos stamped =>
    rw [show s.stage (Action.number t).thread = .stamped random nanos from stamped] at own
    obtain ⟨clock, rfl, behind⟩ := own
    refine ⟨_, rfl, ⟨random, clock, taken ms, ⟨ms, _, [], rfl, rfl, behind, rfl, rfl⟩, ?_⟩, ?_⟩
    · rw [h.source]
    · rw [counted]
      simp [Threads.set, h.source, Action.isNumber]
  | @give t id named => exact ⟨_, rfl, trivial, by rw [counted]; exact h.source⟩

/-- In every run the threads are traced and the numbers in order. -/
theorem orderly_of_run (run : Run ms now s) : Orderly ms s :=
  run.induct_moments ⟨rfl, fun _ => trivial⟩ fun _ _ _ _ _ _ _ h moved => h.of_step moved

/-! ## Distinct numbers -/

/-- An ID with a number below a given one. -/
def NumberedBelow (bound : Nat) (id : CorrelationId) : Prop :=
  ∃ random nanos count, count < bound ∧ id = ofSegments random nanos (UInt64.ofNat count)

/-- An ID numbered below one bound is numbered below a higher one. -/
theorem NumberedBelow.mono {bound bound' : Nat} {id : CorrelationId} (h : NumberedBelow bound id)
    (le : bound ≤ bound') : NumberedBelow bound' id := by
  obtain ⟨random, nanos, count, below, same⟩ := h
  exact ⟨random, nanos, count, Nat.lt_of_lt_of_le below le, same⟩

/-- The next ID is none of those with lower numbers, as long as the numbers have not begun anew. -/
theorem NumberedBelow.ne {bound : Nat} {id : CorrelationId} (h : NumberedBelow bound id)
    (few : bound < 2 ^ 64) (random : RandomBytes) (nanos : Nat) :
    id ≠ ofSegments random nanos (UInt64.ofNat bound) := by
  obtain ⟨random', nanos', count, below, rfl⟩ := h
  intro same
  have numbers := congrArg UInt64.toNat (sequence_of_ofSegments_eq same)
  rw [UInt64.toNat_ofNat', UInt64.toNat_ofNat', Nat.mod_eq_of_lt (by omega), Nat.mod_eq_of_lt few]
    at numbers
  omega

/-- The IDs that were given out and those that wait for it are all different. -/
structure Distinct (ms : List (Moment Threads Action CorrelationId)) (s : Threads) : Prop where
  below : ∀ id ∈ eventsOf ms, NumberedBelow (taken ms) id
  held_below : ∀ t id, s.stage t = .named id → NumberedBelow (taken ms) id
  nodup : (eventsOf ms).Nodup
  held_fresh : ∀ t id, s.stage t = .named id → id ∉ eventsOf ms
  held_apart : ∀ t t' id, s.stage t = .named id → s.stage t' = .named id → t = t'

/-- What neither gives an ID out nor makes one keeps them distinct. -/
theorem Distinct.of_unnamed (h : Distinct ms s) {stage : Stage} (unnamed : ∀ id, stage ≠ .named id)
    (same : taken (ms ++ [⟨now, a, [], s, s.set t stage⟩]) = taken ms) :
    Distinct (ms ++ [⟨now, a, [], s, s.set t stage⟩]) (s.set t stage) := by
  have held : ∀ t' id, (s.set t stage).stage t' = .named id → s.stage t' = .named id := by
    intro t' id named
    rw [stage_set] at named
    split at named
    · exact absurd named (unnamed id)
    · exact named
  have same_given : eventsOf (ms ++ [⟨now, a, [], s, s.set t stage⟩]) = eventsOf ms := by simp
  constructor
  · rw [same_given, same]
    exact h.below
  · rw [same]
    exact fun t' id named => h.held_below t' id (held t' id named)
  · rw [same_given]
    exact h.nodup
  · rw [same_given]
    exact fun t' id named => h.held_fresh t' id (held t' id named)
  · exact fun t₁ t₂ id first second => h.held_apart t₁ t₂ id (held _ _ first) (held _ _ second)

/-- A new number makes an ID that none was before. -/
theorem Distinct.of_number (h : Distinct ms s) (few : taken ms < 2 ^ 64) {random : RandomBytes}
    {nanos : Nat} {id : CorrelationId} (new : id = ofSegments random nanos (UInt64.ofNat (taken ms)))
    (named : s'.stage = (s.set t (.named id)).stage)
    (counted : taken (ms ++ [⟨now, a, [], s, s'⟩]) = taken ms + 1) :
    Distinct (ms ++ [⟨now, a, [], s, s'⟩]) s' := by
  have same_given : eventsOf (ms ++ [⟨now, a, [], s, s'⟩]) = eventsOf ms := by simp
  have held : ∀ t' id', s'.stage t' = .named id' →
      t' = t ∧ id' = id ∨ t' ≠ t ∧ s.stage t' = .named id' := by
    intro t' id' holds
    rw [named, stage_set] at holds
    split at holds
    · next same => exact .inl ⟨same, (Stage.named.inj holds).symm⟩
    · next other => exact .inr ⟨other, holds⟩
  constructor
  · rw [same_given, counted]
    exact fun id' given => (h.below id' given).mono (Nat.le_succ _)
  · rw [counted]
    intro t' id' holds
    rcases held t' id' holds with ⟨rfl, rfl⟩ | ⟨_, before⟩
    · exact ⟨random, nanos, taken ms, Nat.lt_succ_self _, new⟩
    · exact (h.held_below t' id' before).mono (Nat.le_succ _)
  · rw [same_given]
    exact h.nodup
  · rw [same_given]
    intro t' id' holds given
    rcases held t' id' holds with ⟨rfl, rfl⟩ | ⟨_, before⟩
    · exact (h.below id' given).ne few random nanos new
    · exact h.held_fresh t' id' before given
  · intro t₁ t₂ id' first second
    rcases held t₁ id' first with ⟨same₁, rfl⟩ | ⟨_, before₁⟩ <;>
      rcases held t₂ _ second with ⟨same₂, same_id⟩ | ⟨_, before₂⟩
    · exact same₁.trans same₂.symm
    · exact absurd new ((h.held_below t₂ _ before₂).ne few random nanos)
    · subst same_id
      exact absurd new ((h.held_below t₁ _ before₁).ne few random nanos)
    · exact h.held_apart t₁ t₂ id' before₁ before₂

/-- An ID that is given out waits no longer, and was given to no other. -/
theorem Distinct.of_give (h : Distinct ms s) {id : CorrelationId} (named : s.stage t = .named id)
    (same : taken (ms ++ [⟨now, a, [id], s, s.set t .idle⟩]) = taken ms) :
    Distinct (ms ++ [⟨now, a, [id], s, s.set t .idle⟩]) (s.set t .idle) := by
  have given : eventsOf (ms ++ [⟨now, a, [id], s, s.set t .idle⟩]) = eventsOf ms ++ [id] := by simp
  have held : ∀ t' id', (s.set t .idle).stage t' = .named id' → t' ≠ t ∧ s.stage t' = .named id' := by
    intro t' id' holds
    rw [stage_set] at holds
    split at holds
    · cases holds
    · next other => exact ⟨other, holds⟩
  constructor
  · rw [given, same]
    intro id' member
    rcases List.mem_append.1 member with before | last
    · exact h.below id' before
    · rw [List.mem_singleton.1 last]
      exact h.held_below t id named
  · rw [same]
    exact fun t' id' holds => h.held_below t' id' (held t' id' holds).2
  · rw [given]
    exact List.nodup_append.2 ⟨h.nodup, by simp, fun id' before id'' last same_id =>
      h.held_fresh t id named (by rw [← List.mem_singleton.1 last, ← same_id]; exact before)⟩
  · rw [given]
    intro t' id' holds member
    obtain ⟨other, before⟩ := held t' id' holds
    rcases List.mem_append.1 member with older | last
    · exact h.held_fresh t' id' before older
    · rw [List.mem_singleton.1 last] at before
      exact other (h.held_apart t' t id before named)
  · exact fun t₁ t₂ id' first second =>
      h.held_apart t₁ t₂ id' (held t₁ id' first).2 (held t₂ id' second).2

/-- Whatever a thread does, the IDs stay distinct, as long as the numbers do not run out. -/
theorem Distinct.of_step (h : Distinct ms s) (orderly : Orderly ms s)
    (moved : s.step now a = some (s', ids))
    (few : taken (ms ++ [⟨now, a, ids, s, s'⟩]) ≤ 2 ^ 64) :
    Distinct (ms ++ [⟨now, a, ids, s, s'⟩]) s' := by
  have counted : taken (ms ++ [⟨now, a, ids, s, s'⟩]) = taken ms + if a.isNumber then 1 else 0 :=
    taken_concat ms _
  cases turn_of_step moved with
  | draw idle => exact h.of_unnamed nofun counted
  | look drawn => exact h.of_unnamed nofun counted
  | number stamped =>
    have counted_one : taken (ms ++ _) = taken ms + 1 := counted
    exact h.of_number (by omega) (by rw [orderly.source]) rfl counted_one
  | give named => exact h.of_give named counted

/-- In every run the IDs are distinct, as long as the numbers do not run out. -/
theorem distinct_of_run (run : Run ms now s) (few : taken ms ≤ 2 ^ 64) : Distinct ms s := by
  induction run with
  | start => exact ⟨by simp, nofun, by simp, nofun, nofun⟩
  | act past moved ih =>
    refine (ih (Nat.le_trans ?_ few)).of_step (orderly_of_run past) moved few
    rw [taken_concat]
    exact Nat.le_add_right _ _
  | rest _ _ _ ih => exact ih few

/-- The IDs that the threads of a process give out are all different, as long as no more than 2⁶⁴ numbers
were taken. Each is made of what its thread did since it gave out the one before, and its segments are,
split off from the right, its number, its nanoseconds and eleven digits from which its bytes are read. -/
theorem generated_distinct (run : Run ms now s) (few : taken ms ≤ 2 ^ 64) :
    ((eventsOf ms).map CorrelationId.text).Nodup ∧
    ∀ older m newer, ms = older ++ m :: newer → ∀ id ∈ m.events,
      ∃ t random clock count digits, m.action = .give t ∧ Made older t random clock count ∧
        id.segments? = some (digits, toString clock.toNat, toString count) ∧
        digits.length = 11 ∧ (∀ c ∈ digits.toList, Text.Base64.isDigit c = true) ∧
        Text.Base64.decode digits.toList = some random.toList := by
  constructor
  · refine List.Pairwise.map _ ?_ (distinct_of_run run few).nodup
    rintro ⟨text⟩ ⟨text'⟩ other rfl
    exact other rfl
  · rintro older m newer rfl id given
    obtain ⟨past, moved, _⟩ := run.at_moment
    obtain ⟨when, a, ids, before, after⟩ := m
    dsimp only at moved given past
    cases turn_of_step moved with
    | draw => cases given
    | look => cases given
    | number => cases given
    | @give t id' named =>
      obtain rfl := List.mem_singleton.1 given
      have traced := (orderly_of_run past).traced t
      rw [named] at traced
      obtain ⟨random, clock, count, made, rfl⟩ := traced
      have below : count < 2 ^ 64 := by
        have := made.count_lt
        simp only [taken, List.countP_append] at few this
        omega
      have digits := Text.Base64.encode_digits random.toList
      rw [random.length_toList] at digits
      refine ⟨t, random, clock, count, String.ofList (Text.Base64.encode random.toList), rfl, made,
        ?_, ?_, ?_, ?_⟩
      · rw [segments?_ofSegments, UInt64.toNat_ofNat', Nat.mod_eq_of_lt below]
      · rw [String.length_ofList, digits.1]
      · rw [String.toList_ofList]
        exact digits.2
      · rw [String.toList_ofList, Text.Base64.decode_encode]

/-- Two threads that draw the same bytes at the same time, the second of which takes the first number, while
the clock of the other goes back behind 1970. -/
def overtaking : List (Nat × Action) := [
  (0, .draw 0 (.replicate 8 255)), (0, .draw 1 (.replicate 8 255)), (0, .look 0 0), (0, .look 1 (-5)),
  (0, .number 1), (0, .number 0), (0, .give 0), (0, .give 1)]

/-- Bytes and nanoseconds are the same, and the IDs are different. -/
theorem distinct_of_overtaking : ∃ ms now s, Run ms now s ∧ taken ms = 2 ∧
    (eventsOf ms).map CorrelationId.text = ["__________8_0_1", "__________8_0_0"] ∧
    ((eventsOf ms).map CorrelationId.text).Nodup := by
  have played : ((History.play step fresh overtaking).map fun r =>
      (taken r.1, (eventsOf r.1).map CorrelationId.text)) =
        some (2, ["__________8_0_1", "__________8_0_0"]) := by decide
  obtain ⟨⟨ms, s⟩, went, computed⟩ := Option.map_eq_some_iff.1 played
  obtain ⟨two, given⟩ := Prod.mk.inj computed
  have run := History.of_play went (show History.inOrder 0 overtaking = true by decide)
  exact ⟨ms, _, s, run, two, given, (generated_distinct run (by rw [two]; decide)).1⟩

end CallPool.CorrelationId.Threads
