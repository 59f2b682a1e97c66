import CallPool.Proofs.Decimal.Digits
import Mathlib.Algebra.Group.Nat.Defs

/-!
# Seventeen digits suffice

The search for the shortest decimal of a finite number tries grids with one digit up to seventeen. The
last of them has a point in the range that reads back as the number. For the exponent that is found is
at most that of the first decimal digit (`atLeast_exponent`), so the last grid is finer than the number
by a factor of `10 ^ 16`, and since the significand is below `2 ^ 53`, its points lie closer together
than the bounds of the range do (`onGrid_isSome`). So the search ends with digits, and as a point in the
range is not zero, the first of them is none (`shortest_head`).

Main statement: `shortest_head`.
-/

set_option autoImplicit false

namespace CallPool.Decimal

open Binary64 (twoPower ratioLog significand power)

/-! ### Powers as ratios -/

/-- Powers of ten multiply by adding their exponents. -/
theorem tenPower_add (k : Int) (n : Nat) : (tenPower (k + n)).1 * (tenPower k).2 =
    10 ^ n * (tenPower k).1 * (tenPower (k + n)).2 := by
  have exponents : (k + n).toNat + (-k).toNat = n + k.toNat + (-(k + n)).toNat := by omega
  simp only [tenPower, Nat.pow_eq]
  rw [← Nat.pow_add, ← Nat.pow_add, ← Nat.pow_add, exponents]

/-- A power of ten is a ratio of positive numbers. -/
theorem tenPower_pos (k : Int) : 0 < (tenPower k).1 ∧ 0 < (tenPower k).2 :=
  ⟨Nat.pow_pos (by decide), Nat.pow_pos (by decide)⟩

/-- A power of two is a ratio of positive numbers. -/
theorem twoPower_pos (k : Int) : 0 < (twoPower k).1 ∧ 0 < (twoPower k).2 :=
  ⟨Nat.pow_pos (by decide), Nat.pow_pos (by decide)⟩

/-- The power of two that is found for a ratio is at most the ratio. -/
theorem twoPower_ratioLog_le {num den : Nat} (num_pos : 0 < num) :
    den * (twoPower (ratioLog num den)).1 ≤ num * (twoPower (ratioLog num den)).2 := by
  have num_low : 2 ^ num.log2 ≤ num := Nat.log2_self_le (by omega)
  have den_high : den < 2 ^ (den.log2 + 1) := Nat.lt_log2_self
  rw [ratioLog]
  simp only []
  split
  case isFalse enough => exact Nat.le_of_not_lt enough
  case isTrue =>
    simp only [twoPower, Nat.pow_eq]
    have exponents : den.log2 + 1 + ((num.log2 : Int) - den.log2 - 1).toNat =
        num.log2 + (-((num.log2 : Int) - den.log2 - 1)).toNat := by omega
    calc den * 2 ^ ((num.log2 : Int) - den.log2 - 1).toNat
        ≤ 2 ^ (den.log2 + 1) * 2 ^ ((num.log2 : Int) - den.log2 - 1).toNat :=
          Nat.mul_le_mul_right _ (Nat.le_of_lt den_high)
      _ = 2 ^ num.log2 * 2 ^ (-((num.log2 : Int) - den.log2 - 1)).toNat := by
          rw [← Nat.pow_add, ← Nat.pow_add, exponents]
      _ ≤ num * 2 ^ (-((num.log2 : Int) - den.log2 - 1)).toNat := Nat.mul_le_mul_right _ num_low

/-- The estimate for the logarithm of a ratio is off by one at most. -/
theorem ratioLog_bounds (num den : Nat) :
    (num.log2 : Int) - den.log2 - 1 ≤ ratioLog num den ∧
      ratioLog num den ≤ (num.log2 : Int) - den.log2 := by
  rw [ratioLog]
  simp only []
  split <;> omega

/-- A power is at most another one if this holds of some powers of the bases, with exponents that do not
give the first more room. -/
theorem pow_le_pow_of_ratio {a b r s p q : Nat} (base : 0 < b) (some_power : r ≠ 0)
    (at_ratio : a ^ r ≤ b ^ s) (room : s * p ≤ r * q) : a ^ p ≤ b ^ q := by
  refine (Nat.pow_le_pow_iff_left some_power).1 ?_
  calc (a ^ p) ^ r = (a ^ r) ^ p := Nat.pow_right_comm a p r
    _ ≤ (b ^ s) ^ p := Nat.pow_le_pow_left at_ratio p
    _ = b ^ (s * p) := (Nat.pow_mul b s p).symm
    _ ≤ b ^ (r * q) := Nat.pow_le_pow_right base room
    _ = (b ^ q) ^ r := by rw [Nat.mul_comm, Nat.pow_mul]

/-- The decimal exponent that is guessed for a binary one, in the range of finite numbers, is none too
large. -/
theorem tenPower_guess_le {l : Int} (low : -1077 ≤ l) (high : l ≤ 1023) :
    (tenPower (l * 30103 / 100000 - 2)).1 * (twoPower l).2 ≤
      (twoPower l).1 * (tenPower (l * 30103 / 100000 - 2)).2 := by
  generalize guess : l * 30103 / 100000 - 2 = p
  simp only [tenPower, twoPower, Nat.pow_eq]
  -- `10 ^ 3 ≤ 2 ^ 10` and `2 ^ 93 ≤ 10 ^ 28` are close enough for exponents of this size.
  rcases Int.le_total 0 l with positive | negative
  · have small : 10 ^ p.toNat ≤ 2 ^ l.toNat :=
      pow_le_pow_of_ratio (r := 3) (s := 10) (by decide) (by decide) (by decide) (by omega)
    have no_divisor : (-l).toNat = 0 := by omega
    rw [no_divisor]
    exact Nat.mul_le_mul small (Nat.pow_pos (by decide))
  · have small : 2 ^ (-l).toNat ≤ 10 ^ (-p).toNat :=
      pow_le_pow_of_ratio (r := 93) (s := 28) (by decide) (by decide) (by decide) (by omega)
    have no_factor : p.toNat = 0 := by omega
    rw [no_factor]
    exact Nat.mul_le_mul (Nat.pow_pos (by decide)) small

/-! ### The exponent of the first digit -/

namespace Target

/-- A target is at least this power of ten. -/
def AtLeast (t : Target) (p : Int) : Prop :=
  t.den * (tenPower p).1 ≤ t.value * t.num * (tenPower p).2

/-- The search for the exponent goes up only where the target still reaches it. -/
theorem atLeast_exponentFrom {t : Target} {p : Int} (fuel : Nat) (start : t.AtLeast p) :
    t.AtLeast (t.exponentFrom fuel p) := by
  induction fuel generalizing p with
  | zero => exact start
  | succ fuel ih =>
    rw [exponentFrom]
    simp only []
    split
    case isTrue next => exact ih next
    case isFalse => exact start

/-- What is at least a power of two is at least a power of ten that this is at least. -/
theorem atLeast_of_twoPower {t : Target} {l p : Int}
    (two : t.den * (twoPower l).1 ≤ t.value * t.num * (twoPower l).2)
    (ten : (tenPower p).1 * (twoPower l).2 ≤ (twoPower l).1 * (tenPower p).2) : t.AtLeast p := by
  refine Nat.le_of_mul_le_mul_right ?_ (twoPower_pos l).2
  calc t.den * (tenPower p).1 * (twoPower l).2
      = t.den * ((tenPower p).1 * (twoPower l).2) := Nat.mul_assoc _ _ _
    _ ≤ t.den * ((twoPower l).1 * (tenPower p).2) := Nat.mul_le_mul_left _ ten
    _ = t.den * (twoPower l).1 * (tenPower p).2 := (Nat.mul_assoc _ _ _).symm
    _ ≤ t.value * t.num * (twoPower l).2 * (tenPower p).2 := Nat.mul_le_mul_right _ two
    _ = t.value * t.num * (tenPower p).2 * (twoPower l).2 := Nat.mul_right_comm _ _ _

/-- A target in the range of finite numbers is at least ten to the exponent that is found for it. -/
theorem atLeast_exponent {t : Target} (positive : 0 < t.value * t.num)
    (num_bound : (t.value * t.num).log2 ≤ 1023) (den_bound : t.den.log2 ≤ 1076) :
    t.AtLeast t.exponent := by
  have bounds := ratioLog_bounds (t.value * t.num) t.den
  exact atLeast_exponentFrom 4 (atLeast_of_twoPower (twoPower_ratioLog_le positive)
    (tenPower_guess_le (by omega) (by omega)))

/-! ### Points of a grid -/

/-- A ratio is rounded to an integer that is half a unit away at most. -/
theorem roundRatio_close (num : Nat) {den : Nat} (den_pos : 0 < den) :
    2 * num ≤ 2 * (roundRatio num den * den) + den ∧
      2 * (roundRatio num den * den) ≤ 2 * num + den := by
  have parts := Nat.div_add_mod' num den
  have rest := Nat.mod_lt num den_pos
  rw [roundRatio]
  repeat' split
  all_goals
    try rw [Nat.add_mul, Nat.one_mul]
    omega

/-- A decimal less than `w` units away from a target reads back as it, if the bounds are at least `w`
units away. -/
theorem holds_of_close {t : Target} {d a b w : Nat} (below : t.low + w = t.value)
    (above : t.value + w ≤ t.high) (not_below : t.value * t.num * b < d * a * t.den + w * (t.num * b))
    (not_above : d * a * t.den < t.value * t.num * b + w * (t.num * b)) :
    t.holds d a b = true := by
  have low : t.low * t.num * b + w * (t.num * b) = t.value * t.num * b := by
    rw [← below, Nat.add_mul, Nat.add_mul, Nat.mul_assoc w]
  have high : t.value * t.num * b + w * (t.num * b) ≤ t.high * t.num * b := by
    rw [← Nat.mul_assoc w, ← Nat.add_mul, ← Nat.add_mul]
    exact Nat.mul_le_mul_right _ (Nat.mul_le_mul_right _ above)
  rw [holds]
  split <;> simp only [Bool.and_eq_true, decide_eq_true_eq] <;> omega

/-- On a grid whose points lie closer together than the bounds some point reads back as the target. -/
theorem onGrid_isSome {t : Target} {w : Nat} {k : Int} (den_pos : 0 < t.den)
    (below : t.low + w = t.value) (above : t.value + w ≤ t.high)
    (fine : t.den * (tenPower k).1 < 2 * w * (t.num * (tenPower k).2)) : (t.onGrid k).isSome := by
  have cell : 0 < t.den * (tenPower k).1 := Nat.mul_pos den_pos (tenPower_pos k).1
  obtain ⟨upward, downward⟩ := roundRatio_close (t.value * t.num * (tenPower k).2) cell
  have point : ∀ d, d * (t.den * (tenPower k).1) = d * (tenPower k).1 * t.den := by
    intro d
    rw [Nat.mul_comm t.den, Nat.mul_assoc]
  rw [Nat.mul_assoc] at fine
  have nearest := holds_of_close (t := t)
    (d := roundRatio (t.value * t.num * (tenPower k).2) (t.den * (tenPower k).1))
    (a := (tenPower k).1) (b := (tenPower k).2) below above
    (by rw [← point]; omega) (by rw [← point]; omega)
  rw [onGrid]
  simp only []
  rw [if_pos nearest]
  rfl

/-- A point of the grid that is found reads back as the target. -/
theorem holds_of_onGrid {t : Target} {k : Int} {d : Nat} (found : t.onGrid k = some d) :
    t.holds d (tenPower k).1 (tenPower k).2 = true := by
  rw [onGrid] at found
  simp only [] at found
  split at found
  case isTrue nearest =>
    obtain rfl := Option.some.inj found
    exact nearest
  case isFalse =>
    obtain ⟨other, same⟩ := Option.ite_none_right_eq_some.1 found
    obtain rfl := Option.some.inj same
    exact other

/-- A decimal that reads back as a target above zero is not zero. -/
theorem pos_of_holds {t : Target} {d a b : Nat} (low_pos : 0 < t.low * t.num * b)
    (holds : t.holds d a b = true) : 0 < d := by
  refine Nat.pos_of_ne_zero fun zero => ?_
  subst zero
  rw [Target.holds] at holds
  simp only [Nat.zero_mul] at holds
  split at holds <;> simp only [Bool.and_eq_true, decide_eq_true_eq] at holds <;> omega

/-! ### The search -/

/-- The search ends with the first digits of a point that reads back, if a grid that it tries has
one. -/
theorem search_digits {t : Target} {p : Int} (fuel n : Nat)
    (exists_grid : ∃ i, i < fuel ∧ (t.onGrid (p - ((n + i : Nat) : Int) + 1)).isSome) :
    ∃ k d, t.onGrid k = some d ∧
      (t.search p fuel n).digits = ((digitsOf d).reverse.dropWhile (· = 0)).reverse := by
  induction fuel generalizing n with
  | zero =>
    obtain ⟨i, absurd_bound, _⟩ := exists_grid
    omega
  | succ fuel ih =>
    rw [search]
    simp only []
    split
    case h_1 d found => exact ⟨_, d, found, rfl⟩
    case h_2 none_here =>
      obtain ⟨i, bound, found⟩ := exists_grid
      cases i with
      | zero => rw [Nat.add_zero, none_here] at found; cases found
      | succ i => exact ih (n + 1) ⟨i, by omega, by rwa [Nat.add_assoc, Nat.add_comm 1]⟩

end Target

/-! ### Finite numbers -/

/-- The significand of a number that is not zero is positive. -/
theorem significand_pos {exponent : Fin 2047} {fraction : Fin (Nat.pow 2 52)}
    (nonzero : ¬ (exponent.val = 0 ∧ fraction.val = 0)) : 0 < significand exponent fraction := by
  rw [significand]
  split
  · omega
  · have := Nat.pow_pos (n := 52) (show 0 < 2 by decide)
    simp only [Nat.pow_eq]
    omega

/-- A significand has 53 bits at most. -/
theorem significand_lt (exponent : Fin 2047) (fraction : Fin (Nat.pow 2 52)) :
    significand exponent fraction < 9007199254740992 := by
  have bound : fraction.val < 4503599627370496 := fraction.isLt
  have pow : Nat.pow 2 52 = 4503599627370496 := by decide
  rw [significand]
  split <;> omega

/-- How far the bounds of the range are from the number at least, in its units. -/
def margin (exponent : Fin 2047) (fraction : Fin (Nat.pow 2 52)) : Nat :=
  if fraction.val = 0 ∧ 1 < exponent.val then 1 else 2

/-- The lower bound of the range is its margin below the number. -/
theorem low_add_margin {exponent : Fin 2047} {fraction : Fin (Nat.pow 2 52)}
    (nonzero : ¬ (exponent.val = 0 ∧ fraction.val = 0)) :
    (Target.of exponent fraction).low + margin exponent fraction =
      (Target.of exponent fraction).value := by
  have positive := significand_pos nonzero
  simp only [Target.of, margin]
  split <;> omega

/-- The upper bound of the range is its margin above the number at least. -/
theorem value_add_margin (exponent : Fin 2047) (fraction : Fin (Nat.pow 2 52)) :
    (Target.of exponent fraction).value + margin exponent fraction ≤
      (Target.of exponent fraction).high := by
  simp only [Target.of, margin]
  split <;> omega

/-- The margin is large enough for 17 digits to tell a number from its neighbours. -/
theorem value_lt_margin (exponent : Fin 2047) (fraction : Fin (Nat.pow 2 52)) :
    (Target.of exponent fraction).value < 2 * margin exponent fraction * 10 ^ 16 := by
  have bound := significand_lt exponent fraction
  simp only [Target.of, margin]
  split
  case isTrue narrow =>
    have pow : Nat.pow 2 52 = 4503599627370496 := by decide
    rw [significand, if_neg (by omega), narrow.1]
    omega
  case isFalse => omega

/-- The power of two of a double lies between those of the least and the largest one. -/
theorem power_bounds (exponent : Fin 2047) : -1074 ≤ power exponent ∧ power exponent ≤ 971 := by
  have bound := exponent.isLt
  rw [power]
  split <;> omega

/-- A power of two with a lesser exponent is no larger. -/
theorem twoPower_le {k : Int} {n : Nat} (le : k ≤ n) : (twoPower k).1 ≤ 2 ^ n :=
  Nat.pow_le_pow_right (by decide) (by omega)

/-- The bits of a product are not more than those of its factors together. -/
theorem log2_mul_lt {a b m n : Nat} (positive : 0 < a * b) (left : a < 2 ^ m) (right : b ≤ 2 ^ n) :
    (a * b).log2 < m + n := by
  refine (Nat.log2_lt (Nat.ne_of_gt positive)).2 ?_
  calc a * b < 2 ^ m * b := Nat.mul_lt_mul_of_pos_right left (Nat.pos_of_mul_pos_left positive)
    _ ≤ 2 ^ m * 2 ^ n := Nat.mul_le_mul_left _ right
    _ = 2 ^ (m + n) := (Nat.pow_add 2 m n).symm

/-- The numerator of a double has 1024 bits at most. -/
theorem log2_ratio_le {exponent : Fin 2047} {fraction : Fin (Nat.pow 2 52)}
    (positive : 0 < (Target.of exponent fraction).value * (Target.of exponent fraction).num) :
    ((Target.of exponent fraction).value * (Target.of exponent fraction).num).log2 ≤ 1023 := by
  have bound := significand_lt exponent fraction
  have exponent_bound := power_bounds exponent
  have left : (Target.of exponent fraction).value < 2 ^ 55 := by
    simp only [Target.of]
    omega
  -- The bound is kept as a variable, so that its power is not computed.
  obtain ⟨n, limit⟩ : ∃ n, n = 969 := ⟨_, rfl⟩
  have lt := log2_mul_lt (n := n) positive left (twoPower_le (by omega))
  omega

/-- The denominator of a double has 1077 bits at most. -/
theorem log2_den_le (exponent : Fin 2047) (fraction : Fin (Nat.pow 2 52)) :
    (Target.of exponent fraction).den.log2 ≤ 1076 := by
  have exponent_bound := power_bounds exponent
  simp only [Target.of, twoPower, Nat.pow_eq, Nat.log2_two_pow]
  omega

/-- The grid of seventeen digits has a point that reads back as the number. -/
theorem onGrid_seventeen {exponent : Fin 2047} {fraction : Fin (Nat.pow 2 52)}
    (nonzero : ¬ (exponent.val = 0 ∧ fraction.val = 0)) :
    ((Target.of exponent fraction).onGrid ((Target.of exponent fraction).exponent - 16)).isSome := by
  have value_pos : 0 < (Target.of exponent fraction).value := by
    have positive := significand_pos nonzero
    simp only [Target.of]
    omega
  have num_pos : 0 < (Target.of exponent fraction).num := (twoPower_pos _).1
  have den_pos : 0 < (Target.of exponent fraction).den := (twoPower_pos _).2
  have positive := Nat.mul_pos value_pos num_pos
  have at_least := Target.atLeast_exponent positive (log2_ratio_le positive)
    (log2_den_le exponent fraction)
  have below := low_add_margin nonzero
  have above := value_add_margin exponent fraction
  have small := value_lt_margin exponent fraction
  generalize Target.of exponent fraction = t at *
  generalize margin exponent fraction = w at *
  have finer := tenPower_add (t.exponent - 16) 16
  rw [show t.exponent - 16 + (16 : Nat) = t.exponent by omega] at finer
  rw [Target.AtLeast] at at_least
  have top_pos := (tenPower_pos t.exponent).2
  have grid_pos := (tenPower_pos (t.exponent - 16)).2
  refine Target.onGrid_isSome den_pos below above ?_
  generalize tenPower t.exponent = top at *
  generalize tenPower (t.exponent - 16) = grid at *
  refine Nat.lt_of_mul_lt_mul_right (a := 10 ^ 16 * top.2) ?_
  calc t.den * grid.1 * (10 ^ 16 * top.2)
      = t.den * (10 ^ 16 * grid.1 * top.2) := by ac_rfl
    _ = t.den * top.1 * grid.2 := by rw [← finer, Nat.mul_assoc]
    _ ≤ t.value * t.num * top.2 * grid.2 := Nat.mul_le_mul_right _ at_least
    _ = t.value * (t.num * top.2 * grid.2) := by ac_rfl
    _ < 2 * w * 10 ^ 16 * (t.num * top.2 * grid.2) :=
        Nat.mul_lt_mul_of_pos_right small (Nat.mul_pos (Nat.mul_pos num_pos top_pos) grid_pos)
    _ = 2 * w * (t.num * grid.2) * (10 ^ 16 * top.2) := by ac_rfl

/-- The shortest decimal of a finite number other than zero has digits, and does not begin with a
zero. -/
theorem shortest_head {exponent : Fin 2047} {fraction : Fin (Nat.pow 2 52)}
    (nonzero : ¬ (exponent.val = 0 ∧ fraction.val = 0)) :
    ∃ d, (shortest exponent fraction).digits.head? = some d ∧ d ≠ 0 := by
  have seventeen := onGrid_seventeen nonzero
  obtain ⟨k, d, found, digits⟩ := Target.search_digits
    (t := Target.of exponent fraction) (p := (Target.of exponent fraction).exponent) 17 1
    ⟨16, by decide, by rwa [show ∀ p : Int, p - ((1 + 16 : Nat) : Int) + 1 = p - 16 by omega]⟩
  have low_pos : 0 < (Target.of exponent fraction).low := by
    have positive := significand_pos nonzero
    simp only [Target.of]
    split <;> omega
  have positive : 0 < d := Target.pos_of_holds
    (Nat.mul_pos (Nat.mul_pos low_pos (twoPower_pos _).1) (tenPower_pos k).2)
    (Target.holds_of_onGrid found)
  obtain ⟨e, ds, same⟩ := List.exists_cons_of_ne_nil (digitsOf_ne_nil d)
  have nonzero_head : e ≠ 0 := by
    have head := digitsOf_head_ne_zero positive
    rw [same] at head
    exact fun zero => head (congrArg some zero)
  exact ⟨e, by rw [shortest]; exact digits ▸ head_trimmed (by rw [same]; rfl) nonzero_head,
    nonzero_head⟩

end CallPool.Decimal
