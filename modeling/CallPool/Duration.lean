/-!
# Durations

A duration is a whole number of nanoseconds below `2^64` seconds. `Duration.millis` is the count of
whole milliseconds that error messages show, `Duration.text` the form that configuration messages
quote.
-/

set_option autoImplicit false

namespace CallPool

/-- The nanoseconds of one second. -/
def nanosPerSecond : Nat := 1000000000

/-- The longest duration: one nanosecond short of `2^64` seconds. -/
def maxNanos : Nat := Nat.pow 2 64 * nanosPerSecond - 1

/-- The latest instant that the clock shows, in nanoseconds: one short of `2^63` seconds. -/
def latestInstant : Nat := Nat.pow 2 63 * nanosPerSecond - 1

/-- A span of time, in nanoseconds. -/
structure Duration where
  nanos : Nat
  le_max : nanos ≤ maxNanos := by decide
  deriving DecidableEq

namespace Duration

/-- The duration of `n` nanoseconds, if it is in range. -/
def ofNanos? (n : Nat) : Option Duration :=
  if h : n ≤ maxNanos then some ⟨n, h⟩ else none

/-- The duration of `n` nanoseconds, cut off at the longest one. -/
def ofNanos (n : Nat) : Duration := ⟨min n maxNanos, Nat.min_le_right _ _⟩

/-- The duration of `n` milliseconds, cut off at the longest one. -/
def ofMillis (n : Nat) : Duration := ofNanos (n * 1000000)

/-- The duration of `n` seconds, cut off at the longest one. -/
def ofSeconds (n : Nat) : Duration := ofNanos (n * nanosPerSecond)

/-- No time at all. -/
def zero : Duration := ⟨0, Nat.zero_le _⟩

instance : Inhabited Duration := ⟨zero⟩

instance : LE Duration := ⟨fun a b => a.nanos ≤ b.nanos⟩

instance : LT Duration := ⟨fun a b => a.nanos < b.nanos⟩

instance (a b : Duration) : Decidable (a ≤ b) := inferInstanceAs (Decidable (a.nanos ≤ b.nanos))

instance (a b : Duration) : Decidable (a < b) := inferInstanceAs (Decidable (a.nanos < b.nanos))

/-- The shorter of two durations. -/
def shorter (a b : Duration) : Duration := if a ≤ b then a else b

/-- `k` times a duration, or `none` if that is out of range. -/
def times? (d : Duration) (k : Nat) : Option Duration := ofNanos? (d.nanos * k)

/-- The whole milliseconds in a duration, cut off at the largest 64-bit number. -/
def millis (d : Duration) : Nat := min (d.nanos / 1000000) (Nat.pow 2 64 - 1)

/-- The digits of `n`, on at least `width` places. -/
def padded (width n : Nat) : String :=
  let digits := toString n
  String.ofList (List.replicate (width - digits.length) '0') ++ digits

/-- `whole` and `fraction / 10^places` of a unit, as a decimal without trailing zeros. -/
def decimalText (whole fraction places : Nat) : String :=
  let digits := (padded places fraction).toList.reverse.dropWhile (· == '0')
  if digits.isEmpty then toString whole
  else toString whole ++ "." ++ String.ofList digits.reverse

/-- The duration in the largest of the units s, ms, µs and ns of which it holds a whole one. -/
def text (d : Duration) : String :=
  let n := d.nanos
  if nanosPerSecond ≤ n then decimalText (n / nanosPerSecond) (n % nanosPerSecond) 9 ++ "s"
  else if 1000000 ≤ n then decimalText (n / 1000000) (n % 1000000) 6 ++ "ms"
  else if 1000 ≤ n then decimalText (n / 1000) (n % 1000) 3 ++ "µs"
  else toString n ++ "ns"

end Duration

end CallPool
