import CallPool.CorrelationId

/-!
# The segments of a generated ID

Digits are no `_`, so that the sequence number and the nanoseconds are what is split off from the right,
and the random bytes are what is left, even where the digits that they are written with contain `_`
(`segments?_ofSegments`). Each segment can be read back, so IDs with different sequence numbers are
different.
-/

set_option autoImplicit false

namespace CallPool.CorrelationId

open Text (Base64.encode Base64.decode Base64.isDigit Base64.digit)

/-- What has no `_` is split off from the right. -/
theorem splitLast_append {front back : List Char} (plain : '_' ∉ back) :
    splitLast (front ++ '_' :: back) = some (front, back) := by
  have none_there : ∀ c ∈ back.reverse, decide (c ≠ '_') = true := by
    intro c member
    have : c ≠ '_' := fun same => plain (same ▸ List.mem_reverse.1 member)
    simpa using this
  have backwards : (front ++ '_' :: back).reverse = back.reverse ++ '_' :: front.reverse := by simp
  unfold splitLast
  rw [backwards, List.takeWhile_append_of_pos none_there, List.dropWhile_append_of_pos none_there]
  simp

/-- The digits of a number contain no underscore. -/
theorem underscore_notMem_toString (n : Nat) : '_' ∉ (toString n).toList := by
  rw [Nat.toString_eq_repr, Nat.toList_repr]
  exact Nat.underscore_not_in_toDigits

/-- The three segments of a generated ID are split off again. -/
theorem segments?_ofSegments (random : RandomBytes) (nanos : Nat) (sequence : UInt64) :
    (ofSegments random nanos sequence).segments? =
      some (String.ofList (Base64.encode random.toList), toString nanos, toString sequence.toNat) := by
  have written : (ofSegments random nanos sequence).text.toList =
      (Base64.encode random.toList ++ '_' :: (toString nanos).toList) ++
        '_' :: (toString sequence.toNat).toList := by
    simp [ofSegments, String.toList_append]
  simp only [segments?, written, splitLast_append (underscore_notMem_toString _),
    Option.bind_eq_bind, Option.bind_some, String.ofList_toList]

/-- A decimal number is read back. -/
theorem ofDigitChars_toString (n : Nat) : Nat.ofDigitChars 10 (toString n).toList 0 = n := by
  rw [Nat.toString_eq_repr, Nat.toList_repr, Nat.ofDigitChars_ten_toDigits]

/-- A generated ID has one sequence number. -/
theorem sequence_of_ofSegments_eq {random random' : RandomBytes} {nanos nanos' : Nat}
    {sequence sequence' : UInt64}
    (same : ofSegments random nanos sequence = ofSegments random' nanos' sequence') :
    sequence = sequence' := by
  have segments := congrArg segments? same
  rw [segments?_ofSegments, segments?_ofSegments] at segments
  simp only [Option.some.injEq, Prod.mk.injEq] at segments
  have numbers := congrArg (fun t => Nat.ofDigitChars 10 t.toList 0) segments.2.2
  simp only [ofDigitChars_toString] at numbers
  exact UInt64.toNat.inj numbers

end CallPool.CorrelationId

namespace CallPool.Text.Base64

/-- What stands for a digit is one. -/
theorem isDigit_digit {n : Nat} (small : n < 64) : isDigit (digit n) = true := by
  rw [isDigit, value?_digit small]
  rfl

/-- What is written consists of digits, four for three bytes, rounded up. -/
theorem encode_digits (bytes : List UInt8) :
    (encode bytes).length = (4 * bytes.length + 2) / 3 ∧ ∀ c ∈ encode bytes, isDigit c = true := by
  fun_induction encode bytes with
  | case1 a b c rest n ih =>
    have := a.toNat_lt
    have := b.toNat_lt
    have := c.toNat_lt
    have four : n / 262144 < 64 ∧ n / 4096 % 64 < 64 ∧ n / 64 % 64 < 64 ∧ n % 64 < 64 := by omega
    refine ⟨?_, ?_⟩
    · simp only [List.length_append, List.length_map, List.length_cons, List.length_nil, ih.1]
      omega
    · simp only [List.map_cons, List.map_nil, List.mem_append, List.mem_cons, List.not_mem_nil,
        or_false]
      rintro d ((rfl | rfl | rfl | rfl) | member)
      · exact isDigit_digit four.1
      · exact isDigit_digit four.2.1
      · exact isDigit_digit four.2.2.1
      · exact isDigit_digit four.2.2.2
      · exact ih.2 d member
  | case2 a b n =>
    have := a.toNat_lt
    have := b.toNat_lt
    have three : n / 4096 < 64 ∧ n / 64 % 64 < 64 ∧ n % 64 < 64 := by omega
    refine ⟨by simp, ?_⟩
    simp only [List.map_cons, List.map_nil, List.mem_cons, List.not_mem_nil, or_false]
    rintro d (rfl | rfl | rfl)
    · exact isDigit_digit three.1
    · exact isDigit_digit three.2.1
    · exact isDigit_digit three.2.2
  | case3 a n =>
    have := a.toNat_lt
    have two : n / 64 < 64 ∧ n % 64 < 64 := by omega
    refine ⟨by simp, ?_⟩
    simp only [List.map_cons, List.map_nil, List.mem_cons, List.not_mem_nil, or_false]
    rintro d (rfl | rfl)
    · exact isDigit_digit two.1
    · exact isDigit_digit two.2
  | case4 => exact ⟨rfl, by simp⟩

end CallPool.Text.Base64
