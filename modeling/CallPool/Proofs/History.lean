import CallPool.History

/-!
# Parts of a history

A history can be cut in front of and behind any of its moments, and two histories of which one
begins where the other ends make one. What can be taken step by step from a script of actions is a
history (`History.of_play`), so that a run can be given by its script and computed.
-/

set_option autoImplicit false

namespace CallPool

variable {σ α ε : Type}

/-- Where nothing is done nothing is told. -/
@[simp] theorem eventsOf_nil : eventsOf ([] : List (Moment σ α ε)) = [] := rfl

/-- What is told in one history behind another is what is told in both, in order. -/
@[simp] theorem eventsOf_append (ms ms' : List (Moment σ α ε)) :
    eventsOf (ms ++ ms') = eventsOf ms ++ eventsOf ms' := by
  simp [eventsOf]

/-- What is told in a history is what is told in its first moment, and then in the others. -/
@[simp] theorem eventsOf_cons (m : Moment σ α ε) (ms : List (Moment σ α ε)) :
    eventsOf (m :: ms) = m.events ++ eventsOf ms := by
  simp [eventsOf]

/-- What is told in a history is told in one of its moments. -/
theorem mem_eventsOf {e : ε} {ms : List (Moment σ α ε)} :
    e ∈ eventsOf ms ↔ ∃ m ∈ ms, e ∈ m.events := by
  simp [eventsOf]

/-- What is seen in a history is seen in a moment that has a past and a future. -/
theorem exists_moment_of_mem_eventsOf {e : ε} {ms : List (Moment σ α ε)} (h : e ∈ eventsOf ms) :
    ∃ older m newer, ms = older ++ m :: newer ∧ e ∈ m.events := by
  obtain ⟨m, member, seen⟩ := mem_eventsOf.1 h
  obtain ⟨older, newer, rfl⟩ := List.append_of_mem member
  exact ⟨older, m, newer, rfl, seen⟩

/-- What is left from a place on begins with the moment at that place. -/
theorem drop_at {ms : List (Moment σ α ε)} {i : Nat} {m : Moment σ α ε} (there : ms[i]? = some m) :
    ms.drop i = m :: ms.drop (i + 1) := by
  obtain ⟨short, rfl⟩ := List.getElem?_eq_some_iff.1 there
  exact List.drop_eq_getElem_cons short

/-- A history is cut at any of its places. -/
theorem cut_at {ms : List (Moment σ α ε)} {i : Nat} {m : Moment σ α ε} (there : ms[i]? = some m) :
    ms = ms.take i ++ m :: ms.drop (i + 1) := by
  rw [← drop_at there, List.take_append_drop]

/-- A history is cut at any two of its places, one of which is behind the other. -/
theorem cut_at_both {ms : List (Moment σ α ε)} {i j : Nat} {m m' : Moment σ α ε}
    (there : ms[i]? = some m) (behind : ms[i + 1 + j]? = some m') :
    ms = ms.take i ++ m :: ((ms.drop (i + 1)).take j ++ m' :: (ms.drop (i + 1)).drop (j + 1)) := by
  rw [← List.getElem?_drop] at behind
  rw [← cut_at behind]
  exact cut_at there

/-- The state that something which began in a start is in at the end of an instant. -/
def stateAt (start : σ) (moments : List (Moment σ α ε)) (t : Nat) : σ :=
  moments.foldl (fun s m => if m.instant ≤ t then m.after else s) start

/-- One more moment counts if it is not too late. -/
theorem stateAt_concat (start : σ) (ms : List (Moment σ α ε)) (m : Moment σ α ε) (t : Nat) :
    stateAt start (ms ++ [m]) t = if m.instant ≤ t then m.after else stateAt start ms t := by
  simp [stateAt]

namespace History

variable {step : σ → Nat → α → Option (σ × List ε)} {mayRest : σ → Nat → Nat → Prop} {start : σ}
  {began : Nat}

/-- Two histories of which one begins where the other ends make one. -/
theorem append {ms ms' : List (Moment σ α ε)} {middle now : Nat} {s s' : σ}
    (first : History step mayRest start began ms middle s)
    (second : History step mayRest s middle ms' now s') :
    History step mayRest start began (ms ++ ms') now s' := by
  induction second with
  | start => simpa using first
  | act _ taken ih =>
    rw [← List.append_assoc]
    exact .act ih taken
  | rest _ forward allowed ih => exact .rest ih forward allowed

/-- A history is cut at any of its places. -/
theorem split {ms ms' : List (Moment σ α ε)} {now : Nat} {s : σ}
    (h : History step mayRest start began (ms ++ ms') now s) :
    ∃ middle s', History step mayRest start began ms middle s' ∧
      History step mayRest s' middle ms' now s := by
  generalize same : ms ++ ms' = all at h
  induction h generalizing ms' with
  | start =>
    obtain ⟨rfl, rfl⟩ := List.append_eq_nil_iff.1 same
    exact ⟨began, start, .start, .start⟩
  | @act moments now before after action events past taken ih =>
    rcases List.eq_nil_or_concat ms' with rfl | ⟨front, last, rfl⟩
    · rw [List.append_nil] at same
      rw [same]
      exact ⟨now, after, .act past taken, .start⟩
    · rw [List.concat_eq_append, ← List.append_assoc] at same
      obtain ⟨rfl, same_last⟩ := List.append_inj' same rfl
      obtain ⟨middle, s', first, second⟩ := ih rfl
      rw [List.concat_eq_append, same_last]
      exact ⟨middle, s', first, .act second taken⟩
  | rest _ forward allowed ih =>
    obtain ⟨middle, s', first, second⟩ := ih same
    exact ⟨middle, s', first, .rest second forward allowed⟩

/-- The last moment of a history is a step from the history before it. -/
theorem of_concat {ms : List (Moment σ α ε)} {m : Moment σ α ε} {now : Nat} {s : σ}
    (h : History step mayRest start began (ms ++ [m]) now s) :
    History step mayRest start began ms m.instant m.before ∧
      step m.before m.instant m.action = some (m.after, m.events) ∧ s = m.after := by
  generalize same : ms ++ [m] = all at h
  induction h with
  | start => simp at same
  | act past taken _ =>
    obtain ⟨rfl, same_last⟩ := List.append_inj' same rfl
    obtain rfl := List.singleton_inj.1 same_last
    exact ⟨past, taken, rfl⟩
  | rest _ _ _ ih => exact ih same

/-- Each moment of a history is a step from the history before it, and what comes behind it is a
history from where it led. -/
theorem at_moment {older newer : List (Moment σ α ε)} {m : Moment σ α ε} {now : Nat} {s : σ}
    (h : History step mayRest start began (older ++ m :: newer) now s) :
    History step mayRest start began older m.instant m.before ∧
      step m.before m.instant m.action = some (m.after, m.events) ∧
      ∃ middle, History step mayRest start began (older ++ [m]) middle m.after ∧
        History step mayRest m.after middle newer now s := by
  rw [List.append_cons] at h
  obtain ⟨middle, s', first, second⟩ := h.split
  obtain ⟨past, taken, rfl⟩ := first.of_concat
  exact ⟨past, taken, middle, first, second⟩

/-- A moment that comes after another one is a step from the history before it. -/
theorem at_later {older front back : List (Moment σ α ε)} {first m : Moment σ α ε} {now : Nat} {s : σ}
    (h : History step mayRest start began (older ++ first :: (front ++ m :: back)) now s) :
    History step mayRest start began (older ++ first :: front) m.instant m.before ∧
      step m.before m.instant m.action = some (m.after, m.events) := by
  rw [← List.cons_append, ← List.append_assoc] at h
  obtain ⟨past, taken, _⟩ := h.at_moment
  exact ⟨past, taken⟩

/-- What comes behind a moment is a history from that moment on. -/
theorem behind {older newer : List (Moment σ α ε)} {m : Moment σ α ε} {now : Nat} {s : σ}
    (h : History step mayRest start began (older ++ m :: newer) now s) :
    History step mayRest m.after m.instant newer now s := by
  generalize same : older ++ m :: newer = all at h
  induction h generalizing newer with
  | start => simp at same
  | act past taken ih =>
    rcases List.eq_nil_or_concat newer with rfl | ⟨front, last, rfl⟩
    · obtain ⟨rfl, same_last⟩ := List.append_inj' same rfl
      obtain rfl := List.singleton_inj.1 same_last
      exact .start
    · rw [List.concat_eq_append, ← List.cons_append, ← List.append_assoc] at same
      obtain ⟨rfl, same_last⟩ := List.append_inj' same rfl
      rw [List.concat_eq_append, same_last]
      exact .act (ih rfl) taken
  | rest _ forward allowed ih => exact .rest (ih same) forward allowed

/-- A moment and what comes behind it are a history from where the moment began. -/
theorem onwards {older newer : List (Moment σ α ε)} {m : Moment σ α ε} {now : Nat} {s : σ}
    (h : History step mayRest start began (older ++ m :: newer) now s) :
    History step mayRest m.before m.instant (m :: newer) now s := by
  obtain ⟨_, taken, _⟩ := h.at_moment
  exact (History.act .start taken).append h.behind

/-- Where nothing is done nothing changes. -/
theorem eq_start {now : Nat} {s : σ} (h : History step mayRest start began [] now s) : s = start := by
  generalize same : ([] : List (Moment σ α ε)) = moments at h
  induction h with
  | start => rfl
  | act _ _ _ => simp at same
  | rest _ _ _ ih => exact ih same

/-- A history is cut at the end of any instant. -/
theorem cut_behind {ms : List (Moment σ α ε)} {now : Nat} {s : σ}
    (h : History step mayRest start began ms now s) (t : Nat) :
    ∃ older newer middle, ms = older ++ newer ∧ (∀ m ∈ older, m.instant ≤ t) ∧
      (∀ m ∈ newer, t < m.instant) ∧
        History step mayRest start began older middle (stateAt start ms t) ∧
          History step mayRest (stateAt start ms t) middle newer now s := by
  induction h with
  | start => exact ⟨[], [], began, rfl, by simp, by simp, .start, .start⟩
  | @act ms now before after a es past taken ih =>
    rw [stateAt_concat]
    by_cases reached : now ≤ t
    · rw [if_pos reached]
      refine ⟨_, [], now, (List.append_nil _).symm, ?_, by simp, .act past taken, .start⟩
      intro m member
      exact Nat.le_trans ((History.act past taken).instant_mem_range.2 m member).2 reached
    · rw [if_neg reached]
      obtain ⟨older, newer, middle, rfl, upTo, behind, first, second⟩ := ih
      refine ⟨older, _, middle, List.append_assoc _ _ _, upTo, ?_, first, .act second taken⟩
      intro m member
      rcases List.mem_append.1 member with earlier | last
      · exact behind m earlier
      · rw [List.mem_singleton.1 last]
        exact Nat.lt_of_not_le reached
  | rest _ forward allowed ih =>
    obtain ⟨older, newer, middle, same, upTo, behind, first, second⟩ := ih
    exact ⟨older, newer, middle, same, upTo, behind, first, .rest second forward allowed⟩

/-- What the start satisfies without a past, and every action keeps with what it adds to the past,
holds of a history and the state that it leads to. -/
theorem induct_moments {holds : List (Moment σ α ε) → σ → Prop} (base : holds [] start)
    (kept : ∀ (ms : List (Moment σ α ε)) (now : Nat) (s : σ) (a : α) (s' : σ) (es : List ε),
      History step mayRest start began ms now s → holds ms s → step s now a = some (s', es) →
        holds (ms ++ [⟨now, a, es, s, s'⟩]) s')
    {ms : List (Moment σ α ε)} {now : Nat} {s : σ}
    (h : History step mayRest start began ms now s) : holds ms s := by
  induction h with
  | start => exact base
  | act past taken ih => exact kept _ _ _ _ _ _ past ih taken
  | rest _ _ _ ih => exact ih

/-- Where time may pass as it likes a history goes on to any later instant. -/
theorem linger (free : ∀ s now later, mayRest s now later) {ms : List (Moment σ α ε)}
    {now later : Nat} {s : σ} (h : History step mayRest start began ms now s) (le : now ≤ later) :
    History step mayRest start began ms later s := by
  rcases Nat.lt_or_eq_of_le le with sooner | rfl
  · exact .rest h sooner (free _ _ _)
  · exact h

/-! ## Scripts -/

/-- Takes the actions of a script at their instants, as long as each of them can be taken. -/
def play (step : σ → Nat → α → Option (σ × List ε)) (s : σ) :
    List (Nat × α) → Option (List (Moment σ α ε) × σ)
  | [] => some ([], s)
  | (now, a) :: later =>
    match step s now a with
    | none => none
    | some (s', es) => (play step s' later).map fun r => (⟨now, a, es, s, s'⟩ :: r.1, r.2)

/-- Whether the instants of a script never go back, from a given one on. -/
def inOrder (began : Nat) : List (Nat × α) → Bool
  | [] => true
  | (now, _) :: later => decide (began ≤ now) && inOrder now later

/-- The instant at which a script ends. -/
def lastInstant (began : Nat) : List (Nat × α) → Nat
  | [] => began
  | (now, _) :: later => lastInstant now later

/-- What has been played is a history, if time may pass as it likes. -/
theorem of_play {script : List (Nat × α)} {ms : List (Moment σ α ε)} {s : σ}
    (played : play step start script = some (ms, s)) (ordered : inOrder began script = true) :
    History step (fun _ _ _ => True) start began ms (lastInstant began script) s := by
  induction script generalizing start began ms with
  | nil =>
    simp only [play, Option.some.injEq, Prod.mk.injEq] at played
    obtain ⟨rfl, rfl⟩ := played
    exact .start
  | cons first later ih =>
    obtain ⟨now, a⟩ := first
    simp only [inOrder, Bool.and_eq_true, decide_eq_true_eq] at ordered
    simp only [play] at played
    cases taken : step start now a with
    | none => simp [taken] at played
    | some r =>
      obtain ⟨s', es⟩ := r
      simp only [taken, Option.map_eq_some_iff, Prod.mk.injEq, Prod.exists] at played
      obtain ⟨ms', _, behind, rfl, rfl⟩ := played
      have reached : History step (fun _ _ _ => True) start began [] now start :=
        History.start.linger (fun _ _ _ => trivial) ordered.1
      exact (History.act reached taken).append (ih behind ordered.2)

/-- Whether the state may rest in front of each action of a script. -/
def restsBetween (step : σ → Nat → α → Option (σ × List ε)) (mayRest : σ → Nat → Nat → Prop)
    [∀ s now later, Decidable (mayRest s now later)] (s : σ) (now : Nat) : List (Nat × α) → Bool
  | [] => true
  | (later, a) :: script =>
    (decide (now = later) || decide (now < later) && decide (mayRest s now later)) &&
      match step s later a with
      | none => false
      | some (s', _) => restsBetween step mayRest s' later script

/-- What has been played is a history, if the state may rest wherever time passes. -/
theorem of_play_resting [∀ s now later, Decidable (mayRest s now later)]
    {script : List (Nat × α)} {ms : List (Moment σ α ε)} {s : σ}
    (played : play step start script = some (ms, s))
    (rests : restsBetween step mayRest start began script = true) :
    History step mayRest start began ms (lastInstant began script) s := by
  induction script generalizing start began ms with
  | nil =>
    simp only [play, Option.some.injEq, Prod.mk.injEq] at played
    obtain ⟨rfl, rfl⟩ := played
    exact .start
  | cons first script ih =>
    obtain ⟨later, a⟩ := first
    simp only [restsBetween, Bool.and_eq_true, Bool.or_eq_true, decide_eq_true_eq] at rests
    obtain ⟨gap, behind_rests⟩ := rests
    simp only [play] at played
    cases taken : step start later a with
    | none => simp [taken] at played
    | some r =>
      obtain ⟨s', es⟩ := r
      simp only [taken, Option.map_eq_some_iff, Prod.mk.injEq, Prod.exists] at played behind_rests
      obtain ⟨ms', _, behind, rfl, rfl⟩ := played
      have reached : History step mayRest start began [] later start := by
        rcases gap with rfl | ⟨forward, allowed⟩
        · exact .start
        · exact .rest .start forward allowed
      exact (History.act reached taken).append (ih behind behind_rests)

/-- The actions of a script that is played are its own, at its instants. -/
theorem action_of_play {script : List (Nat × α)} {ms : List (Moment σ α ε)} {s : σ} {i : Nat}
    {m : Moment σ α ε} (played : play step start script = some (ms, s)) (there : ms[i]? = some m) :
    script[i]? = some (m.instant, m.action) := by
  induction script generalizing start ms i with
  | nil =>
    simp only [play, Option.some.injEq, Prod.mk.injEq] at played
    rw [← played.1] at there
    cases there
  | cons first later ih =>
    obtain ⟨now, a⟩ := first
    simp only [play] at played
    cases taken : step start now a with
    | none => simp [taken] at played
    | some r =>
      simp only [taken, Option.map_eq_some_iff, Prod.mk.injEq, Prod.exists] at played
      obtain ⟨ms', _, behind, rfl, rfl⟩ := played
      cases i with
      | zero =>
        obtain rfl := Option.some.inj there
        rfl
      | succ i => exact ih behind there

/-- A moment of a script that is played has the instant and the action of its place. -/
theorem moment_of_play {script : List (Nat × α)} {ms : List (Moment σ α ε)} {s : σ} {i now : Nat}
    {m : Moment σ α ε} {a : α} (played : play step start script = some (ms, s))
    (there : ms[i]? = some m) (entry : script[i]? = some (now, a)) : m.instant = now ∧ m.action = a := by
  rw [action_of_play played there] at entry
  exact Prod.mk.inj (Option.some.inj entry)

/-- The moments of a script that is played begin with its first action. -/
theorem eq_cons_of_play {script : List (Nat × α)} {ms : List (Moment σ α ε)} {s : σ} {now : Nat}
    {a : α} (played : play step start ((now, a) :: script) = some (ms, s)) :
    ∃ m later, ms = m :: later ∧ m.instant = now ∧ m.action = a ∧ m.before = start := by
  simp only [play] at played
  cases taken : step start now a with
  | none => simp [taken] at played
  | some r =>
    simp only [taken, Option.map_eq_some_iff, Prod.mk.injEq] at played
    obtain ⟨r', -, rfl, -⟩ := played
    exact ⟨_, _, rfl, rfl, rfl, rfl⟩

end History

end CallPool
