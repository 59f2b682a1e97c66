import CallPool.Duration

/-!
# The reconnect schedule

A lost slot is dialed again after delays that double from a base and are cut off at a maximum.
`Backoff.delay n` is the delay before attempt `n`; `Backoff.delays` lists the delays of one whole
attempt budget.
-/

set_option autoImplicit false

namespace CallPool

/-- A schedule of delays: the first one, the longest one, and how many there are. -/
structure Backoff where
  base : Duration
  max : Duration
  attempts : Nat
  deriving DecidableEq

namespace Backoff

/-- What attempt `n` multiplies the base by: `2^n` while that fits in 32 bits, and the largest
32-bit number from there on. -/
def factor (n : Nat) : Nat := if n < 32 then Nat.pow 2 n else Nat.pow 2 32 - 1

/-- The delay before attempt `n`. A product that is out of range counts as longer than the
maximum. -/
def delay (b : Backoff) (n : Nat) : Duration :=
  match b.base.times? (factor n) with
  | some d => d.shorter b.max
  | none => b.max

/-- The first `k` delays of the schedule, or all of them if there are fewer. -/
def firstDelays (b : Backoff) (k : Nat) : List Duration :=
  (List.range (min k b.attempts)).map b.delay

/-- The delays of a whole attempt budget, in order. -/
def delays (b : Backoff) : List Duration := b.firstDelays b.attempts

end Backoff

end CallPool
