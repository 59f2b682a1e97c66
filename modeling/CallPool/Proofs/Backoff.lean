import CallPool.Backoff
import Mathlib.Algebra.Group.Nat.Defs
import Mathlib.Order.MinMax
import Mathlib.Order.Nat

/-!
# The reconnect schedule in exact arithmetic

A delay is the base times a factor, cut off at the maximum, in unbounded arithmetic (`nanos_delay`): a
product that is out of range is longer than every maximum. The factor of attempt `n` is `2^n` as long as
that fits in 32 bits, and from there on the largest number that does. So a delay is the base doubled `n`
times and cut off, except where the maximum is longer than the base times that largest number: there the
doubling stops short of it (`delay_eq_ideal_iff`).

Main statements: `delay_eq_ideal_iff` and, for the delays of a whole attempt budget, `delays_climb`.
-/

set_option autoImplicit false

namespace CallPool

/-- The shorter of two durations has the lesser number of nanoseconds. -/
theorem Duration.nanos_shorter (a b : Duration) : (a.shorter b).nanos = min a.nanos b.nanos := by
  unfold shorter
  split
  · rename_i le
    exact (Nat.min_eq_left le).symm
  · rename_i more
    exact (Nat.min_eq_right (Nat.le_of_not_le more)).symm

/-- A duration is known by its nanoseconds. -/
theorem Duration.eq_of_nanos {a b : Duration} (same : a.nanos = b.nanos) : a = b := by
  cases a
  cases b
  cases same
  rfl

namespace Backoff

variable {b : Backoff} {m n : Nat}

/-! ## The factor -/

/-- Below the 32nd attempt the factor is a power of two. -/
theorem factor_of_lt (small : n < 32) : factor n = 2 ^ n := if_pos small

/-- From the 32nd attempt on the factor is the largest that fits into 32 bits. -/
theorem factor_of_le (large : 32 ≤ n) : factor n = 2 ^ 32 - 1 := if_neg (Nat.not_lt.2 large)

/-- No attempt has a factor of zero. -/
theorem factor_pos (n : Nat) : 0 < factor n := by
  unfold factor
  split
  · exact Nat.two_pow_pos n
  · decide

/-- A factor fits in 32 bits. -/
theorem factor_lt (n : Nat) : factor n < 2 ^ 32 := by
  rcases Nat.lt_or_ge n 32 with small | large
  · rw [factor_of_lt small]
    exact Nat.pow_lt_pow_right (by decide) small
  · rw [factor_of_le large]
    decide

/-- Factors never decrease, also where they stop to double. -/
theorem factor_mono (le : m ≤ n) : factor m ≤ factor n := by
  rcases Nat.lt_or_ge n 32 with small | large
  · rw [factor_of_lt small, factor_of_lt (Nat.lt_of_le_of_lt le small)]
    exact Nat.pow_le_pow_right (by decide) le
  · rw [factor_of_le large]
    exact Nat.le_pred_of_lt (factor_lt m)

/-- The factor doubles as long as it fits. -/
theorem factor_succ (small : n < 31) : factor (n + 1) = 2 * factor n := by
  rw [factor_of_lt (Nat.succ_lt_succ small), factor_of_lt (Nat.lt_succ_of_lt small), Nat.pow_succ,
    Nat.mul_comm]

/-- The factor is never more than the power of two that it stands for. -/
theorem factor_le_two_pow (n : Nat) : factor n ≤ 2 ^ n := by
  rcases Nat.lt_or_ge n 32 with small | large
  · exact Nat.le_of_eq (factor_of_lt small)
  · rw [factor_of_le large]
    exact Nat.le_trans (Nat.sub_le _ _) (Nat.pow_le_pow_right (by decide) large)

/-! ## A single delay -/

/-- A delay is what unbounded arithmetic gives, for a product that is out of range exceeds every
maximum. -/
theorem nanos_delay (b : Backoff) (n : Nat) :
    (b.delay n).nanos = min (b.base.nanos * factor n) b.max.nanos := by
  unfold delay Duration.times? Duration.ofNanos?
  by_cases inRange : b.base.nanos * factor n ≤ maxNanos
  · simp only [dif_pos inRange, Duration.nanos_shorter]
  · have beyond : b.max.nanos ≤ b.base.nanos * factor n :=
      Nat.le_trans b.max.le_max (Nat.le_of_not_le inRange)
    simp only [dif_neg inRange, Nat.min_eq_right beyond]

/-- No delay exceeds the maximum. -/
theorem delay_le_max (b : Backoff) (n : Nat) : b.delay n ≤ b.max := by
  show (b.delay n).nanos ≤ b.max.nanos
  rw [nanos_delay]
  exact Nat.min_le_right _ _

/-- A schedule without a delay of zero keeps everybody waiting. -/
theorem delay_pos (base : 0 < b.base.nanos) (max : 0 < b.max.nanos) (n : Nat) :
    0 < (b.delay n).nanos := by
  rw [nanos_delay]
  exact Nat.lt_min.2 ⟨Nat.mul_pos base (factor_pos n), max⟩

/-- A later attempt does not wait less than an earlier one. -/
theorem delay_mono (b : Backoff) (le : m ≤ n) : b.delay m ≤ b.delay n := by
  show (b.delay m).nanos ≤ (b.delay n).nanos
  rw [nanos_delay, nanos_delay]
  exact min_le_min_right _ (Nat.mul_le_mul_left _ (factor_mono le))

/-- A delay of attempt `n` as it is meant: the base doubled `n` times, and cut off at the maximum. -/
def ideal (b : Backoff) (n : Nat) : Nat := min (b.base.nanos * 2 ^ n) b.max.nanos

/-- A delay is the base doubled `n` times and cut off at the maximum, exactly if the doubling fits in 32
bits, or makes no difference, or the maximum is reached with the largest factor that fits. It is never
longer, and where it is shorter it is the base times that factor. -/
theorem delay_eq_ideal_iff (b : Backoff) (n : Nat) :
    ((b.delay n).nanos = b.ideal n ↔
      n < 32 ∨ b.base.nanos = 0 ∨ b.max.nanos ≤ b.base.nanos * (2 ^ 32 - 1)) ∧
    (b.delay n).nanos ≤ b.ideal n ∧
    ((b.delay n).nanos < b.ideal n → (b.delay n).nanos = b.base.nanos * (2 ^ 32 - 1)) := by
  unfold ideal
  rw [nanos_delay]
  have below : b.base.nanos * factor n ≤ b.base.nanos * 2 ^ n :=
    Nat.mul_le_mul_left _ (factor_le_two_pow n)
  rcases Nat.lt_or_ge n 32 with small | large
  · rw [factor_of_lt small]
    exact ⟨⟨fun _ => .inl small, fun _ => rfl⟩, Nat.le_refl _, fun less => absurd less (Nat.lt_irrefl _)⟩
  · rw [factor_of_le large] at below ⊢
    have doubled : 2 ^ 32 ≤ 2 ^ n := Nat.pow_le_pow_right (by decide) large
    refine ⟨⟨fun same => .inr ?_, ?_⟩, min_le_min_right _ below, fun less => ?_⟩
    · by_contra otherwise
      obtain ⟨nonzero, beyond⟩ := not_or.1 otherwise
      have more : b.base.nanos * (2 ^ 32 - 1) < b.base.nanos * 2 ^ n :=
        Nat.mul_lt_mul_of_pos_left (Nat.lt_of_lt_of_le (by decide) doubled) (Nat.pos_of_ne_zero nonzero)
      rw [Nat.min_eq_left (Nat.le_of_not_le beyond)] at same
      exact absurd same (Nat.ne_of_lt (Nat.lt_min.2 ⟨more, Nat.lt_of_not_le beyond⟩))
    · rintro (small | zero | reached)
      · exact absurd small (Nat.not_lt.2 large)
      · rw [zero, Nat.zero_mul, Nat.zero_mul]
      · rw [Nat.min_eq_right reached, Nat.min_eq_right (Nat.le_trans reached below)]
    · refine Nat.min_eq_left (Nat.le_of_not_le fun reached => ?_)
      rw [Nat.min_eq_right reached, Nat.min_eq_right (Nat.le_trans reached below)] at less
      exact absurd less (Nat.lt_irrefl _)

/-- A schedule that doubles from a millisecond on and is cut off only after sixty days. -/
def patient : Backoff := ⟨⟨1000000, by decide⟩, ⟨5184000000000000, by decide⟩, 40⟩

/-- Its delay before attempt 32 is a millisecond short. -/
theorem delay_of_patient : (patient.delay 32).nanos = 4294967295000000 ∧
    patient.ideal 32 = 4294967296000000 ∧
      ¬ (32 < 32 ∨ patient.base.nanos = 0 ∨ patient.max.nanos ≤ patient.base.nanos * (2 ^ 32 - 1)) := by
  have short : (patient.delay 32).nanos < patient.ideal 32 := by decide
  refine ⟨(delay_eq_ideal_iff patient 32).2.2 short, by decide, fun exact_there => ?_⟩
  exact absurd ((delay_eq_ideal_iff patient 32).1.2 exact_there) (Nat.ne_of_lt short)

/-! ## The delays of a whole attempt budget -/

/-- How delays climb from a base to a maximum. -/
structure Climbs (base max : Duration) (delays : List Duration) : Prop where
  starts : ∀ d, delays[0]? = some d → d = base
  ascends : delays.Pairwise (· ≤ ·)
  within : ∀ d ∈ delays, base ≤ d ∧ d ≤ max
  /-- The first 31 steps at least double, or have reached the maximum. -/
  doubles : ∀ k : Nat, k < 31 → ∀ d d', delays[k]? = some d → delays[k + 1]? = some d' →
    2 * d.nanos ≤ d'.nanos ∨ d' = max
  stays : ∀ i j : Nat, i ≤ j → delays[i]? = some max → ∀ d, delays[j]? = some d → d = max

/-- The delays of a schedule are those of its attempts, in order. -/
theorem delays_eq (b : Backoff) : b.delays = (List.range b.attempts).map b.delay := by
  rw [delays, firstDelays, Nat.min_self]

/-- The delay at a place of the schedule is the delay of that attempt. -/
theorem delay_of_getElem? {k : Nat} {d : Duration} (there : b.delays[k]? = some d) : d = b.delay k := by
  rw [delays_eq, List.getElem?_map, Option.map_eq_some_iff] at there
  obtain ⟨k', counted, rfl⟩ := there
  obtain ⟨_, rfl⟩ := List.getElem?_eq_some_iff.1 counted
  rw [List.getElem_range]

/-- The first delay is the base, if that does not exceed the maximum. -/
theorem delay_zero (le : b.base ≤ b.max) : b.delay 0 = b.base := by
  apply Duration.eq_of_nanos
  rw [nanos_delay, factor_of_lt (by decide), Nat.pow_zero, Nat.mul_one]
  exact Nat.min_eq_left le

/-- No delay is below the base, if that does not exceed the maximum. -/
theorem base_le_delay (le : b.base ≤ b.max) (n : Nat) : b.base ≤ b.delay n := by
  rw [← delay_zero le]
  exact b.delay_mono (Nat.zero_le n)

/-- The delays of a schedule climb from its base to its maximum. -/
theorem climbs_delays (le : b.base ≤ b.max) : Climbs b.base b.max b.delays where
  starts := by
    intro d there
    rw [delay_of_getElem? there, delay_zero le]
  ascends := by
    rw [delays_eq, List.pairwise_map]
    exact List.pairwise_lt_range.imp fun less => b.delay_mono (Nat.le_of_lt less)
  within := by
    intro d member
    rw [delays_eq] at member
    obtain ⟨n, -, rfl⟩ := List.mem_map.1 member
    exact ⟨base_le_delay le n, b.delay_le_max n⟩
  doubles := by
    intro k small d d' there there'
    rw [delay_of_getElem? there, delay_of_getElem? there']
    have step : b.base.nanos * factor (k + 1) = 2 * (b.base.nanos * factor k) := by
      rw [factor_succ small, Nat.mul_left_comm]
    rcases Nat.le_total (b.base.nanos * factor (k + 1)) b.max.nanos with inside | reached
    · left
      rw [nanos_delay b (k + 1), Nat.min_eq_left inside, step, nanos_delay]
      exact Nat.mul_le_mul_left 2 (Nat.min_le_left _ _)
    · right
      apply Duration.eq_of_nanos
      rw [nanos_delay, Nat.min_eq_right reached]
  stays := by
    intro i j le_j there d there'
    rw [delay_of_getElem? there']
    have reached : b.max ≤ b.delay j := by
      rw [delay_of_getElem? there]
      exact b.delay_mono le_j
    exact Duration.eq_of_nanos (Nat.le_antisymm (b.delay_le_max j) reached)

/-- A budget has as many delays as attempts. From a base that is no longer than the maximum they climb to
it, and with a longer base each of them is the maximum. Nothing leaves its range on the way: each factor
fits in 32 bits, and each delay is what unbounded arithmetic makes of it. -/
theorem delays_climb (b : Backoff) : b.delays.length = b.attempts ∧
    (b.base ≤ b.max → Climbs b.base b.max b.delays) ∧
    (b.max < b.base → ∀ n, b.delay n = b.max) ∧
    ∀ n, factor n < 2 ^ 32 ∧ (b.delay n).nanos = min (b.base.nanos * factor n) b.max.nanos := by
  refine ⟨?_, climbs_delays, ?_, fun n => ⟨factor_lt n, nanos_delay b n⟩⟩
  · rw [delays_eq, List.length_map, List.length_range]
  · intro longer n
    have reached : b.max.nanos ≤ b.base.nanos * factor n :=
      Nat.le_trans (Nat.le_of_lt longer) (Nat.le_mul_of_pos_right _ (factor_pos n))
    apply Duration.eq_of_nanos
    rw [nanos_delay, Nat.min_eq_right reached]

/-- The patient schedule climbs through all its forty attempts, and one with a base above its maximum
keeps to the maximum. -/
theorem climbs_of_patient : patient.delays.length = 40 ∧
    Climbs patient.base patient.max patient.delays ∧
      ∀ n, (Backoff.mk (.ofSeconds 2) (.ofSeconds 1) 3).delay n = .ofSeconds 1 := by
  obtain ⟨count, climbs, -, -⟩ := delays_climb patient
  obtain ⟨-, -, keeps, -⟩ := delays_climb ⟨.ofSeconds 2, .ofSeconds 1, 3⟩
  exact ⟨count, climbs (by decide), keeps (by decide)⟩

end Backoff

end CallPool
