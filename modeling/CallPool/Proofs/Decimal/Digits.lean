import CallPool.Decimal.Shortest

/-!
# Decimal digits

`digitsOf` takes the last digit off the end, until one digit is left. So the digits of a number are
never none, and those of a positive number do not begin with a zero, also when the zeros at their end
are taken off.
-/

set_option autoImplicit false

namespace CallPool.Decimal

/-- A number below ten has one digit. -/
theorem digitsOf_of_lt_ten {n : Nat} (small : n < 10) : digitsOf n = [Fin.ofNat 10 n] := by
  rw [digitsOf, Nat.toDigits_of_lt_base small, List.map_singleton,
    Nat.toNat_digitChar_sub_48_of_lt_ten small]

/-- The last digit of a larger number is its remainder by ten. -/
theorem digitsOf_of_ten_le {n : Nat} (large : 10 ≤ n) :
    digitsOf n = digitsOf (n / 10) ++ [Fin.ofNat 10 (n % 10)] := by
  rw [digitsOf, Nat.toDigits_of_base_le (by decide) large, List.map_append, List.map_singleton,
    Nat.toNat_digitChar_sub_48_of_lt_ten (Nat.mod_lt n (by decide)), digitsOf]

/-- Every number has a digit. -/
theorem digitsOf_ne_nil (n : Nat) : digitsOf n ≠ [] := by
  simp [digitsOf, Nat.toDigits_ne_nil]

/-- A positive number does not begin with a zero. -/
theorem digitsOf_head_ne_zero {n : Nat} (positive : 0 < n) : (digitsOf n).head? ≠ some 0 := by
  induction n using Nat.strongRecOn with
  | _ n ih =>
    by_cases small : n < 10
    · rw [digitsOf_of_lt_ten small]
      intro zero
      have value : n % 10 = 0 := congrArg Fin.val (Option.some.inj zero)
      omega
    · have front := ih (n / 10) (by omega) (by omega)
      obtain ⟨d, ds, same⟩ := List.exists_cons_of_ne_nil (digitsOf_ne_nil (n / 10))
      rw [same] at front
      rw [digitsOf_of_ten_le (by omega), same]
      exact front

/-- Digits that do not begin with a zero keep their first one when the zeros at the end are taken
off. -/
theorem head_trimmed {ds : List (Fin 10)} {d : Fin 10} (first : ds.head? = some d) (nonzero : d ≠ 0) :
    ((ds.reverse.dropWhile (· = 0)).reverse).head? = some d := by
  cases ds with
  | nil => cases first
  | cons e ds =>
    obtain rfl : e = d := Option.some.inj first
    rw [List.reverse_cons, List.dropWhile_append]
    split
    · simp [nonzero]
    · simp

end CallPool.Decimal
