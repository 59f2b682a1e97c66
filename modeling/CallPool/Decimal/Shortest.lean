import CallPool.Binary64

/-!
# The shortest decimal of a binary number

Every decimal number between two bounds reads back as a given finite number: the bounds are half
way to its two neighbours, and belong to the range when the significand is even. `shortest` gives
the decimal with the fewest digits in that range, and of those the one nearest to the number. It
tries one digit, two digits and so on, and on each decimal grid only the two points beside the
number: if any point of the grid is in the range, so is one of these. Seventeen digits always
suffice.
-/

set_option autoImplicit false

namespace CallPool.Decimal

/-- A positive decimal number: `0.d₁d₂… * 10 ^ point`, with the digits of `digits`. -/
structure Expansion where
  digits : List (Fin 10)
  point : Int
  deriving DecidableEq

/-- The digits of a number, most significant first. -/
def digitsOf (n : Nat) : List (Fin 10) :=
  (Nat.toDigits 10 n).map fun c => Fin.ofNat 10 (c.toNat - 48)

/-- A number and the range of reals that read back as it, in units of a quarter of its last
place. -/
structure Target where
  /-- The number, in these units. -/
  value : Nat
  low : Nat
  high : Nat
  /-- Whether the bounds belong to the range. -/
  closed : Bool
  /-- The unit, as a ratio. -/
  num : Nat
  den : Nat

/-- The range of a number with this significand and this power of two. Below a power of two that
is not the least normal one, numbers lie twice as close. -/
def Target.of (exponent : Fin 2047) (fraction : Fin (Nat.pow 2 52)) : Target :=
  let m := Binary64.significand exponent fraction
  let (num, den) := Binary64.twoPower (Binary64.power exponent - 2)
  { value := 4 * m
    low := if fraction.val = 0 ∧ 1 < exponent.val then 4 * m - 1 else 4 * m - 2
    high := 4 * m + 2
    closed := m % 2 = 0
    num := num
    den := den }

/-- Whether the decimal `d * (a / b)` reads back as the target. -/
def Target.holds (t : Target) (d a b : Nat) : Bool :=
  let x := d * a * t.den
  let low := t.low * t.num * b
  let high := t.high * t.num * b
  if t.closed then low ≤ x && x ≤ high else low < x && x < high

/-- A power of ten as a ratio. -/
def tenPower (e : Int) : Nat × Nat := (Nat.pow 10 e.toNat, Nat.pow 10 (-e).toNat)

/-- The point of the grid of `10 ^ k` that reads back as the target, if one does: of two, the
nearer, and of two equally near ones the even one. -/
def Target.onGrid (t : Target) (k : Int) : Option Nat :=
  let (a, b) := tenPower k
  let num := t.value * t.num * b
  let den := t.den * a
  let below := num / den
  let above := below + 1
  let nearest := roundRatio num den
  let other := if nearest = below then above else below
  if t.holds nearest a b then some nearest
  else if t.holds other a b then some other
  else none

/-- The exponent `p` with `10 ^ p ≤ value < 10 ^ (p + 1)`, found from a guess at or below it by
going up. -/
def Target.exponentFrom (t : Target) : Nat → Int → Int
  | 0, p => p
  | fuel + 1, p =>
    let (a, b) := tenPower (p + 1)
    if t.den * a ≤ t.value * t.num * b then t.exponentFrom fuel (p + 1) else p

/-- The exponent of the first decimal digit. The binary logarithm bounds it from below within two,
so four steps up are enough. -/
def Target.exponent (t : Target) : Int :=
  let l := Binary64.ratioLog (t.value * t.num) t.den
  t.exponentFrom 4 (l * 30103 / 100000 - 2)

/-- The first decimal found with `n`, `n + 1`, … digits, `fuel` counts in all. -/
def Target.search (t : Target) (p : Int) : Nat → Nat → Expansion
  | 0, _ => ⟨[], p + 1⟩
  | fuel + 1, n =>
    let k := p - n + 1
    match t.onGrid k with
    | some d =>
      let ds := digitsOf d
      ⟨(ds.reverse.dropWhile (· = 0)).reverse, ds.length + k⟩
    | none => t.search p fuel (n + 1)

/-- The shortest decimal that reads back as the positive finite number with these fields. -/
def shortest (exponent : Fin 2047) (fraction : Fin (Nat.pow 2 52)) : Expansion :=
  let t := Target.of exponent fraction
  t.search t.exponent 17 1

end CallPool.Decimal
