/-!
# Binary floating-point numbers of 64 bits

A number is held by the fields of its standard encoding. A finite one stands for
`± significand * 2 ^ power`. All arithmetic is exact on ratios of natural numbers and is rounded
once, to the nearest number and to the one with an even significand between two equally near ones:
`Binary64.ofRatio` does that rounding, and products, quotients and conversions go through it.
-/

set_option autoImplicit false

namespace CallPool

/-- A binary floating-point number of 64 bits. Exponent 0 is that of zero and of the numbers below
the normal ones. -/
inductive Binary64
  | nan
  | infinite (negative : Bool)
  | finite (negative : Bool) (exponent : Fin 2047) (fraction : Fin (Nat.pow 2 52))
  deriving DecidableEq

/-- `num / den` rounded to the nearest natural number, a half to the even one. -/
def roundRatio (num den : Nat) : Nat :=
  let q := num / den
  let r := num % den
  if 2 * r < den then q
  else if den < 2 * r then q + 1
  else if q % 2 = 0 then q else q + 1

namespace Binary64

/-- Zero, with its sign. -/
def zero (negative : Bool) : Binary64 := finite negative 0 0

instance : Inhabited Binary64 := ⟨zero false⟩

/-- The natural number that a finite number multiplies a power of two by. -/
def significand (exponent : Fin 2047) (fraction : Fin (Nat.pow 2 52)) : Nat :=
  if exponent.val = 0 then fraction.val else fraction.val + Nat.pow 2 52

/-- The power of two that a finite number multiplies its significand by. -/
def power (exponent : Fin 2047) : Int :=
  if exponent.val = 0 then -1074 else (exponent.val : Int) - 1075

/-- The number `m * 2 ^ q` for `m ≤ 2 ^ 53` that needs no rounding: `2 ^ 52 ≤ m` or
`q = -1074`. Beyond the finite numbers it is infinite. -/
def assemble (negative : Bool) (m : Nat) (q : Int) : Binary64 :=
  let m' := if m = Nat.pow 2 53 then Nat.pow 2 52 else m
  let q' := if m = Nat.pow 2 53 then q + 1 else q
  let e := if m' < Nat.pow 2 52 then 0 else (q' + 1075).toNat
  if h : e < 2047 then
    finite negative ⟨e, h⟩ ⟨m' % Nat.pow 2 52, Nat.mod_lt _ (by decide)⟩
  else infinite negative

/-- `2 ^ e` as a ratio. -/
def twoPower (e : Int) : Nat × Nat := (Nat.pow 2 e.toNat, Nat.pow 2 (-e).toNat)

/-- The power of two at or below a ratio of positive numbers. -/
def ratioLog (num den : Nat) : Int :=
  let l : Int := (num.log2 : Int) - (den.log2 : Int)
  let (a, b) := twoPower l
  if num * b < den * a then l - 1 else l

/-- The number nearest to `num / den`, for a positive `den`. -/
def ofRatio (negative : Bool) (num den : Nat) : Binary64 :=
  if num = 0 then zero negative
  else
    let q := max (-1074) (ratioLog num den - 52)
    let (a, b) := twoPower q
    assemble negative (roundRatio (num * b) (den * a)) q

/-- The number nearest to `(num / den) * 2 ^ e`, for a positive `den`. -/
def ofScaled (negative : Bool) (num den : Nat) (e : Int) : Binary64 :=
  let (a, b) := twoPower e
  ofRatio negative (num * a) (den * b)

/-- The number nearest to a natural number. -/
def ofNat (n : Nat) : Binary64 := ofRatio false n 1

/-- The number nearest to an integer. -/
def ofInt (i : Int) : Binary64 := ofRatio (i < 0) i.natAbs 1

/-- The number nearest to a power of ten. -/
def tenPower (n : Nat) : Binary64 := ofNat (Nat.pow 10 n)

/-- The number with the other sign. -/
def neg : Binary64 → Binary64
  | nan => nan
  | infinite s => infinite !s
  | finite s e f => finite (!s) e f

/-- Whether a number is zero, of either sign. -/
def isZero : Binary64 → Bool
  | finite _ e f => e.val == 0 && f.val == 0
  | _ => false

/-- Whether a number is infinite. -/
def isInfinite : Binary64 → Bool
  | infinite _ => true
  | _ => false

/-- The rounded product. -/
def mul : Binary64 → Binary64 → Binary64
  | nan, _ => nan
  | _, nan => nan
  | infinite s, infinite t => infinite (s != t)
  | infinite s, finite t e f => if isZero (finite t e f) then nan else infinite (s != t)
  | finite s e f, infinite t => if isZero (finite s e f) then nan else infinite (s != t)
  | finite s e f, finite t e' f' =>
    ofScaled (s != t) (significand e f * significand e' f') 1 (power e + power e')

/-- The rounded quotient. -/
def div : Binary64 → Binary64 → Binary64
  | nan, _ => nan
  | _, nan => nan
  | infinite _, infinite _ => nan
  | infinite s, finite t _ _ => infinite (s != t)
  | finite s _ _, infinite t => zero (s != t)
  | finite s e f, finite t e' f' =>
    if isZero (finite t e' f') then
      if isZero (finite s e f) then nan else infinite (s != t)
    else ofScaled (s != t) (significand e f) (significand e' f') (power e - power e')

end Binary64

end CallPool
