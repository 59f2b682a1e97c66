import CallPool.Connection.Schedule
import CallPool.History

/-!
# The runs of a connection

A run of a connection is any order in which its actions can happen. In a prompt run what is due
happens when it is due: time passes only while nothing is ready, and never past an alarm.
-/

set_option autoImplicit false

namespace CallPool.Connection

/-- Whether a connection may stay as it is from one instant to a later one. -/
def mayRest (c : Connection) (now later : Nat) : Prop :=
  c.ready now = [] ∧ ∀ alarm ∈ c.alarms, alarm ≤ now ∨ later ≤ alarm

/-- An action in a run of a connection. -/
abbrev Moment := CallPool.Moment Connection Action Event

/-- The runs of a connection from an instant on. -/
abbrev Run : Connection → Nat → List Moment → Nat → Connection → Prop :=
  History step fun _ _ _ => True

/-- The runs in which everything happens when it is due. -/
abbrev PromptRun : Connection → Nat → List Moment → Nat → Connection → Prop :=
  History step mayRest

end CallPool.Connection
