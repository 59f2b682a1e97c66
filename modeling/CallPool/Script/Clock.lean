/-!
# Virtual time

A clockwork is a state that changes by itself at an instant until it is settled, and that knows the
later instants at which it will change again. `Clockwork.pass` lets time pass: it stops at each
such instant on its way, so that everything happens exactly when it is due.
-/

set_option autoImplicit false

namespace CallPool.Script

/-- How a state changes by itself and with time. -/
structure Clockwork (σ : Type) where
  /-- The next change of the state at its instant, if it is not settled. -/
  advance? : σ → Option σ
  /-- Enough changes to settle the state. -/
  bound : σ → Nat
  /-- The instants at which the state changes by itself. -/
  alarms : σ → List Nat
  /-- The state at a later instant, if nothing happens until then. -/
  moveTo : σ → Nat → σ

namespace Clockwork

variable {σ : Type}

/-- Makes at most `n` changes. -/
def advanceMany (w : Clockwork σ) : Nat → σ → σ
  | 0, s => s
  | n + 1, s =>
    match w.advance? s with
    | none => s
    | some s => w.advanceMany n s

/-- Everything that can happen at the instant happens. -/
def settle (w : Clockwork σ) (s : σ) : σ := w.advanceMany (w.bound s) s

/-- The first instant behind `now` and not behind `target` at which the state changes. -/
def nextAlarm? (w : Clockwork σ) (s : σ) (now target : Nat) : Option Nat :=
  ((w.alarms s).filter fun a => now < a ∧ a ≤ target).min?

/-- Lets time pass from `now` to `target`. -/
def pass (w : Clockwork σ) (now target : Nat) (s : σ) : σ :=
  match w.nextAlarm? s now target with
  | none => w.settle (w.moveTo s target)
  | some a =>
    if now < a ∧ a ≤ target then w.pass a target (w.settle (w.moveTo s a))
    else w.settle (w.moveTo s target)
termination_by target - now

end Clockwork

end CallPool.Script
