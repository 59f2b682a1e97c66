/-!
# Histories

Something with a state takes actions at instants, one after the other. A history lists what it did
from its start on: for each action the instant, what could be seen, and the state on either side.
Instants never go back. Between two actions time may pass, if the state may rest so long; which
rests are allowed is a parameter, so that one notion serves both what merely can happen in some
order and what happens exactly when it is due.

Main statements: what the start satisfies and every action keeps holds in every state of a history
(`History.induct`), and a history is one for every looser notion of rest (`History.loosen`).
-/

set_option autoImplicit false

namespace CallPool

/-- One action in a history. -/
structure Moment (σ α ε : Type) where
  instant : Nat
  action : α
  events : List ε
  before : σ
  after : σ

/-- What can be seen in a history, in order. -/
def eventsOf {σ α ε : Type} (moments : List (Moment σ α ε)) : List ε :=
  moments.flatMap fun m => m.events

/-- The lists of moments, instants and states to which a start leads. -/
inductive History {σ α ε : Type} (step : σ → Nat → α → Option (σ × List ε))
    (mayRest : σ → Nat → Nat → Prop) (start : σ) (began : Nat) :
    List (Moment σ α ε) → Nat → σ → Prop
  | start : History step mayRest start began [] began start
  | act {moments : List (Moment σ α ε)} {now : Nat} {before after : σ} {action : α}
      {events : List ε} (past : History step mayRest start began moments now before)
      (taken : step before now action = some (after, events)) :
      History step mayRest start began (moments ++ [⟨now, action, events, before, after⟩]) now after
  | rest {moments : List (Moment σ α ε)} {now later : Nat} {state : σ}
      (past : History step mayRest start began moments now state) (forward : now < later)
      (allowed : mayRest state now later) : History step mayRest start began moments later state

namespace History

variable {σ α ε : Type} {step : σ → Nat → α → Option (σ × List ε)}
  {mayRest : σ → Nat → Nat → Prop} {start : σ} {began : Nat}

/-- What the start satisfies and every action keeps holds in the state that a history leads to. -/
theorem induct {holds : σ → Prop} (base : holds start)
    (kept : ∀ (s : σ) (now : Nat) (a : α) (s' : σ) (es : List ε),
      step s now a = some (s', es) → holds s → holds s')
    {moments : List (Moment σ α ε)} {now : Nat} {state : σ}
    (h : History step mayRest start began moments now state) : holds state := by
  induction h with
  | start => exact base
  | act _ taken ih => exact kept _ _ _ _ _ taken ih
  | rest _ _ _ ih => exact ih

/-- A history is one for every looser notion of rest. -/
theorem loosen {mayRest' : σ → Nat → Nat → Prop}
    (looser : ∀ s now later, mayRest s now later → mayRest' s now later)
    {moments : List (Moment σ α ε)} {now : Nat} {state : σ}
    (h : History step mayRest start began moments now state) :
    History step mayRest' start began moments now state := by
  induction h with
  | start => exact .start
  | act _ taken ih => exact .act ih taken
  | rest _ forward allowed ih => exact .rest ih forward (looser _ _ _ allowed)

/-- No moment of a history is earlier than its start or later than its end. -/
theorem instant_mem_range {moments : List (Moment σ α ε)} {now : Nat} {state : σ}
    (h : History step mayRest start began moments now state) :
    began ≤ now ∧ ∀ m ∈ moments, began ≤ m.instant ∧ m.instant ≤ now := by
  induction h with
  | start => simp
  | act _ _ ih =>
    refine ⟨ih.1, fun m member => ?_⟩
    rcases List.mem_append.1 member with older | newest
    · exact ih.2 m older
    · rw [List.mem_singleton.1 newest]
      exact ⟨ih.1, Nat.le_refl _⟩
  | rest _ forward _ ih =>
    exact ⟨by omega, fun m member => ⟨(ih.2 m member).1, by have := (ih.2 m member).2; omega⟩⟩

end History

end CallPool
