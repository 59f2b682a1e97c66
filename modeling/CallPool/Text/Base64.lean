/-!
# URL-safe base64

Three bytes are written as four digits of six bits each, and one or two bytes at the end as two or
three digits without padding. Reading accepts exactly what writing produces: the bits of the last
digit that no byte takes must be zero. Main statement: what is written is read back
(`decode_encode`).
-/

set_option autoImplicit false

namespace CallPool.Text.Base64

/-- The digit of a value below 64. -/
def digit (n : Nat) : Char :=
  if n < 26 then Char.ofNat (0x41 + n)
  else if n < 52 then Char.ofNat (0x61 + (n - 26))
  else if n < 62 then Char.ofNat (0x30 + (n - 52))
  else if n = 62 then '-'
  else '_'

/-- The value of a digit. -/
def value? (c : Char) : Option Nat :=
  let n := c.toNat
  if 0x41 ≤ n ∧ n ≤ 0x5A then some (n - 0x41)
  else if 0x61 ≤ n ∧ n ≤ 0x7A then some (n - 0x61 + 26)
  else if 0x30 ≤ n ∧ n ≤ 0x39 then some (n - 0x30 + 52)
  else if c = '-' then some 62
  else if c = '_' then some 63
  else none

/-- Whether a character is a digit. -/
def isDigit (c : Char) : Bool := (value? c).isSome

/-- Writes bytes. -/
def encode : List UInt8 → List Char
  | a :: b :: c :: rest =>
    let n := (a.toNat * 256 + b.toNat) * 256 + c.toNat
    [n / 262144, n / 4096 % 64, n / 64 % 64, n % 64].map digit ++ encode rest
  | [a, b] =>
    let n := (a.toNat * 256 + b.toNat) * 4
    [n / 4096, n / 64 % 64, n % 64].map digit
  | [a] =>
    let n := a.toNat * 16
    [n / 64, n % 64].map digit
  | [] => []

/-- Reads bytes. -/
def decode : List Char → Option (List UInt8)
  | a :: b :: c :: d :: rest => do
    let n := (((← value? a) * 64 + (← value? b)) * 64 + (← value? c)) * 64 + (← value? d)
    let bytes ← decode rest
    some (UInt8.ofNat (n / 65536) :: UInt8.ofNat (n / 256) :: UInt8.ofNat n :: bytes)
  | [a, b, c] => do
    let n := ((← value? a) * 64 + (← value? b)) * 64 + (← value? c)
    if n % 4 = 0 then some [UInt8.ofNat (n / 1024), UInt8.ofNat (n / 4)] else none
  | [a, b] => do
    let n := (← value? a) * 64 + (← value? b)
    if n % 16 = 0 then some [UInt8.ofNat (n / 16)] else none
  | [_] => none
  | [] => some []

/-- A digit has its value. -/
theorem value?_digit {n : Nat} (h : n < 64) : value? (digit n) = some n := by
  have all : ∀ i : Fin 64, value? (digit i.val) = some i.val := by decide
  exact all ⟨n, h⟩

/-- What is written is read back. -/
theorem decode_encode (bytes : List UInt8) : decode (encode bytes) = some bytes := by
  fun_induction encode bytes with
  | case1 a b c rest n ih =>
    have ha := a.toNat_lt
    have hb := b.toNat_lt
    have hc := c.toNat_lt
    have whole : ((n / 262144 * 64 + n / 4096 % 64) * 64 + n / 64 % 64) * 64 + n % 64 = n := by
      omega
    simp only [List.map_cons, List.map_nil, List.cons_append, List.nil_append, decode,
      value?_digit (show n / 262144 < 64 by omega), value?_digit (Nat.mod_lt _ (by decide : 0 < 64)),
      ih, Option.bind_eq_bind, Option.bind_some, whole]
    simp only [Option.some.injEq, List.cons.injEq, and_true]
    refine ⟨UInt8.toNat.inj ?_, UInt8.toNat.inj ?_, UInt8.toNat.inj ?_⟩ <;>
      simp only [UInt8.toNat_ofNat'] <;> omega
  | case2 a b n =>
    have ha := a.toNat_lt
    have hb := b.toNat_lt
    have whole : (n / 4096 * 64 + n / 64 % 64) * 64 + n % 64 = n := by omega
    simp only [List.map_cons, List.map_nil, decode, value?_digit (show n / 4096 < 64 by omega),
      value?_digit (Nat.mod_lt _ (by decide : 0 < 64)), Option.bind_eq_bind, Option.bind_some, whole]
    rw [if_pos (by omega)]
    simp only [Option.some.injEq, List.cons.injEq, and_true]
    refine ⟨UInt8.toNat.inj ?_, UInt8.toNat.inj ?_⟩ <;> simp only [UInt8.toNat_ofNat'] <;> omega
  | case3 a n =>
    have ha := a.toNat_lt
    have whole : n / 64 * 64 + n % 64 = n := by omega
    simp only [List.map_cons, List.map_nil, decode, value?_digit (show n / 64 < 64 by omega),
      value?_digit (Nat.mod_lt _ (by decide : 0 < 64)), Option.bind_eq_bind, Option.bind_some, whole]
    rw [if_pos (by omega)]
    simp only [Option.some.injEq, List.cons.injEq, and_true]
    refine UInt8.toNat.inj ?_
    simp only [UInt8.toNat_ofNat']
    omega
  | case4 => rfl

end CallPool.Text.Base64
