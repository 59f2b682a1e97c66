import CallPool.History
import CallPool.Pool.Schedule

/-!
# The runs of a pool

A run of a pool is any order in which its actions can happen, those of its connections among them.
In a prompt run what is due happens when it is due.
-/

set_option autoImplicit false

namespace CallPool.Pool

/-- Whether a pool may stay as it is from one instant to a later one. -/
def mayRest (unfit? : Options → Option DialFault) (p : Pool) (now later : Nat) : Prop :=
  p.ready unfit? now = [] ∧ ∀ alarm ∈ p.alarms, alarm ≤ now ∨ later ≤ alarm

/-- An action in a run of a pool. -/
abbrev Moment := CallPool.Moment Pool Action Event

/-- The runs of a pool from an instant on. -/
abbrev Run : Pool → Nat → List Moment → Nat → Pool → Prop := History step fun _ _ _ => True

/-- The runs in which everything happens when it is due. -/
abbrev PromptRun (unfit? : Options → Option DialFault) :
    Pool → Nat → List Moment → Nat → Pool → Prop :=
  History step (mayRest unfit?)

end CallPool.Pool
