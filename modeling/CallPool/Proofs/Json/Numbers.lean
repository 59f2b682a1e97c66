import CallPool.Json.Writing
import CallPool.Proofs.Decimal.Shortest
import CallPool.Proofs.Json.Spelling

/-!
# Numbers read back

Every number that has a spelling is written as JSON admits (`Numeral.ofNumber?_wellSpelled`). Integers
of 64 bits are read back as they are. A floating-point number is read back or not (`ReadsBack`): its
shortest spelling need not be read as the number nearest to it. If it is, then wherever it stands, and
as a floating-point number also where any number may stand, for its spelling has a point or an exponent.
-/

set_option autoImplicit false

namespace CallPool.Json

namespace Numeral

/-! ### Spellings -/

/-- An integer is written as a numeral. -/
theorem ofInt_wellSpelled (i : Int) : (ofInt i).WellSpelled where
  whole := Decimal.digitsOf_ne_nil _
  leading zero := by
    rcases Nat.eq_zero_or_pos i.natAbs with none_of_it | positive
    · simp only [ofInt, none_of_it]
      exact Decimal.digitsOf_of_lt_ten (by decide)
    · exact absurd zero (Decimal.digitsOf_head_ne_zero positive)
  fraction := by simp [ofInt]
  exponent := by simp [ofInt]

/-- A decimal expansion that begins with no zero is written as a numeral. -/
theorem ofDecimal_wellSpelled (negative : Bool) {d : Decimal.Expansion} {first : Digit}
    (head : d.digits.head? = some first) (nonzero : first ≠ 0) :
    (ofDecimal negative d).WellSpelled := by
  obtain ⟨digits, point⟩ := d
  obtain ⟨rest, rfl⟩ : ∃ rest, digits = first :: rest := List.head?_eq_some_iff.1 head
  have not_leading : first ≠ Digit.zero := nonzero
  rw [ofDecimal]
  simp only [List.length_cons]
  split
  case isTrue inside =>
    split
    case isTrue => exact ⟨by simp, by simp [not_leading], by simp, by simp⟩
    case isFalse more =>
      obtain ⟨n, same⟩ : ∃ n, point.toNat = n + 1 := ⟨point.toNat - 1, by omega⟩
      have shorter : ¬ rest.length ≤ n := by omega
      exact ⟨by simp [same], by simp [same, not_leading], by simp [same, shorter], by simp⟩
  case isFalse =>
    split
    case isTrue => exact ⟨by simp, by simp, by simp, by simp⟩
    case isFalse =>
      refine ⟨by simp, by simp [not_leading], ?_, ?_⟩
      · split
        case isTrue => simp
        case isFalse more =>
          have nonempty : rest ≠ [] := by rintro rfl; simp at more
          simp [nonempty]
      · rintro e rfl_e
        obtain rfl := Option.some.inj rfl_e
        exact Decimal.digitsOf_ne_nil _

/-- A floating-point number is written as a numeral. -/
theorem ofBinary64?_wellSpelled {x : Binary64} {n : Numeral} (written : ofBinary64? x = some n) :
    n.WellSpelled := by
  cases x with
  | nan => cases written
  | infinite => cases written
  | finite negative exponent fraction =>
    rw [ofBinary64?] at written
    split at written
    case isTrue =>
      obtain rfl := Option.some.inj written
      exact ⟨by simp, by simp, by simp, by simp⟩
    case isFalse nonzero =>
      obtain rfl := Option.some.inj written
      obtain ⟨first, head, not_zero⟩ := Decimal.shortest_head nonzero
      exact ofDecimal_wellSpelled negative head not_zero

/-- What a number is written as is spelled as JSON admits. -/
theorem ofNumber?_wellSpelled {x : Number} {n : Numeral} (written : ofNumber? x = some n) :
    n.WellSpelled := by
  cases x with
  | natural k => exact Option.some.inj written ▸ ofInt_wellSpelled _
  | negative k => exact Option.some.inj written ▸ ofInt_wellSpelled _
  | float x => exact ofBinary64?_wellSpelled written

/-! ### Integers -/

/-- One more digit is gathered if the number still fits. -/
theorem gatherWhole_concat {ds : List Digit} {d : Digit} {n : Nat} (front : gatherWhole ds = (n, 0))
    (fits : n * 10 + d.val ≤ maxWord) : gatherWhole (ds ++ [d]) = (n * 10 + d.val, 0) := by
  rw [gatherWhole, List.foldl_append, ← gatherWhole, front]
  exact if_pos ⟨rfl, fits⟩

/-- The digits of a number that fits are gathered to that number. -/
theorem gatherWhole_digitsOf {n : Nat} (fits : n ≤ maxWord) :
    gatherWhole (Decimal.digitsOf n) = (n, 0) := by
  induction n using Nat.strongRecOn with
  | _ n ih =>
    by_cases small : n < 10
    · have front : gatherWhole [] = (0, 0) := rfl
      have value : (Fin.ofNat 10 n).val = n := Nat.mod_eq_of_lt small
      have all := gatherWhole_concat (d := Fin.ofNat 10 n) front (by rw [value]; omega)
      rw [value] at all
      simpa [Decimal.digitsOf_of_lt_ten small] using all
    · have value : (Fin.ofNat 10 (n % 10)).val = n % 10 := Nat.mod_mod n 10
      have all := gatherWhole_concat (d := Fin.ofNat 10 (n % 10))
        (ih (n / 10) (by omega) (by omega)) (by rw [value]; omega)
      rw [value, Nat.div_add_mod'] at all
      rw [Decimal.digitsOf_of_ten_le (by omega), all]

/-- An integer that fits is read back from its numeral. -/
theorem number_ofInt {i : Int} (fits : i.natAbs ≤ maxWord) (place : Nat) :
    (ofInt i).number place = .ok (integer (i < 0) i.natAbs) := by
  simp [number, ofInt, gatherWhole_digitsOf fits]

/-- A natural number of 64 bits is read back from its numeral. -/
theorem number_natural (k : UInt64) (place : Nat) :
    (ofInt k.toNat).number place = .ok (.natural k) := by
  have fits : (k.toNat : Int).natAbs ≤ maxWord := Nat.le_pred_of_lt k.toNat_lt
  have not_negative : ¬ (k.toNat : Int) < 0 := by omega
  simp [number_ofInt fits, not_negative, integer]

/-- A negative number of 64 bits is read back from its numeral. -/
theorem number_negative (k : Fin (Nat.pow 2 63)) (place : Nat) :
    (ofInt (Int.negSucc k.val)).number place = .ok (.negative k) := by
  have bound : k.val < Nat.pow 2 63 := k.isLt
  have fits : (Int.negSucc k.val).natAbs ≤ maxWord := by
    have words : Nat.pow 2 63 ≤ maxWord := by decide
    rw [Int.natAbs_negSucc]
    omega
  have in_range : 0 < k.val + 1 ∧ k.val + 1 ≤ Nat.pow 2 63 := ⟨Nat.succ_pos _, bound⟩
  rw [number_ofInt fits, Int.natAbs_negSucc, integer, if_pos (by simp [Int.negSucc_lt_zero]),
    dif_pos in_range]
  rfl

/-! ### Floating-point numbers -/

/-- Whether a spelling has a point or an exponent. -/
def HasPart (n : Numeral) : Prop := n.fraction ≠ none ∨ n.exponent ≠ none

/-- A floating-point number is written with a point or an exponent. -/
theorem ofBinary64?_hasPart {x : Binary64} {n : Numeral} (written : ofBinary64? x = some n) :
    n.HasPart := by
  cases x with
  | nan => cases written
  | infinite => cases written
  | finite negative exponent fraction =>
    rw [ofBinary64?] at written
    split at written
    case isTrue => exact Option.some.inj written ▸ .inl (by simp)
    case isFalse =>
      obtain rfl := Option.some.inj written
      rw [ofDecimal]
      simp only []
      split
      · split <;> exact .inl (by simp)
      · split
        · exact .inl (by simp)
        · exact .inr (by simp)

/-- What is read from a significand and an exponent is a floating-point number. -/
theorem float_ok {negative : Bool} {significand : Nat} {e : Int} {x : Number}
    (read : float negative significand e = .ok x) : ∃ f, x = .float f := by
  rw [float] at read
  split at read
  · exact ⟨_, (Except.ok.inj read).symm⟩
  · cases read

/-- A spelling with a point or an exponent is read as a floating-point number. -/
theorem number_float {n : Numeral} (part : n.HasPart) {place : Nat} {x : Number}
    (read : n.number place = .ok x) : ∃ f, x = .float f := by
  rw [number] at read
  simp only [] at read
  split at read
  case h_1 no_exponent =>
    split at read
    case isTrue plain =>
      rcases part with fraction | exponent
      · simp at plain
        exact absurd plain.1 fraction
      · exact absurd no_exponent exponent
    case isFalse =>
      split at read
      · next number => exact float_ok (Except.ok.inj read ▸ number)
      · cases read
  case h_2 =>
    split at read
    · split at read
      · next number => exact float_ok (Except.ok.inj read ▸ number)
      · cases read
    · split at read
      · cases read
      · exact ⟨_, (Except.ok.inj read).symm⟩

/-- The number that is read does not depend on the place. -/
theorem number_place {n : Numeral} {place : Nat} {x : Number} (read : n.number place = .ok x)
    (place' : Nat) : n.number place' = .ok x := by
  rw [number] at read ⊢
  simp only [] at read ⊢
  split at read <;> split at read <;> try split at read
  all_goals simp_all

end Numeral

/-- Every number is written as it may be spelled. -/
theorem Doc.ofNumber_wellSpelled (x : Number) : (Doc.ofNumber x).WellSpelled := by
  rw [Doc.ofNumber]
  split
  · next written => exact Numeral.ofNumber?_wellSpelled written
  · exact trivial

end CallPool.Json

namespace CallPool

open Json (Reader Doc Numeral Number Place)

/-- What a floating-point number is written as is read as the same number. Numbers without a finite
value are written as no number, so they are not read back. -/
def Binary64.ReadsBack (x : Binary64) : Prop :=
  Reader.float.parse (Doc.ofNumber (.float x)).text = .ok x

/-- A number that is read back is finite, and what it is written as is read as that number, and as a
floating-point one, wherever it stands. -/
theorem Binary64.ReadsBack.numeral {x : Binary64} (back : x.ReadsBack) :
    ∃ n, Numeral.ofBinary64? x = some n ∧ ∀ place, n.number place = .ok (.float x) := by
  have taken := Reader.ofDoc_of_parse_text (Doc.ofNumber_wellSpelled _) back
  cases written : Numeral.ofBinary64? x with
  | none =>
    rw [Doc.ofNumber, Numeral.ofNumber?, written] at taken
    cases taken
  | some n =>
    have same : Doc.ofNumber (.float x) = .number n := by rw [Doc.ofNumber, Numeral.ofNumber?, written]
    rw [same] at taken
    refine ⟨n, rfl, ?_⟩
    cases read : n.number (Place.start 0).offset with
    | error f => simp [Reader.float, Reader.ofNumber, read] at taken
    | ok y =>
      obtain ⟨z, rfl⟩ := Numeral.number_float (Numeral.ofBinary64?_hasPart written) read
      have value : z = x := by
        simpa [Reader.float, Reader.ofNumber, read, Number.toBinary64] using taken
      exact fun place => Numeral.number_place (value ▸ read) place

end CallPool
