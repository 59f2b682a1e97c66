import CallPool.Json.Fault
import CallPool.Json.Value
import CallPool.Decimal.Shortest

/-!
# Numbers, read and written

`Numeral.number` says which number a spelling stands for. Integers of 64 bits are exact. For the
others the leading digits are gathered into a 64-bit significand as far as they fit; the rest of
the whole part only scales it, the rest of the fraction is dropped, and the significand is then
multiplied or divided by a rounded power of ten. So not every spelling gives the floating-point
number nearest to it, but the shortest spelling of a number mostly does.

`Numeral.ofNumber` is the spelling that a number is written with.
-/

set_option autoImplicit false

namespace CallPool.Json

/-- The largest 64-bit number. -/
def maxWord : Nat := Nat.pow 2 64 - 1

/-- The largest exponent that is counted. -/
def maxExponent : Nat := Nat.pow 2 31 - 1

/-- The digits of the whole part: the significand they give, and how many digits did not fit. From
the first that does not fit on, none is taken. -/
def gatherWhole (ds : List Digit) : Nat × Nat :=
  ds.foldl (fun (acc : Nat × Nat) d =>
    if acc.2 = 0 ∧ acc.1 * 10 + d.val ≤ maxWord then (acc.1 * 10 + d.val, 0)
    else (acc.1, acc.2 + 1)) (0, 0)

/-- The digits of the fraction, added to a significand as far as they fit: the significand and how
many were taken. -/
def gatherFraction (significand : Nat) : List Digit → Nat × Nat
  | [] => (significand, 0)
  | d :: ds =>
    if significand * 10 + d.val ≤ maxWord then
      let (s, taken) := gatherFraction (significand * 10 + d.val) ds
      (s, taken + 1)
    else (significand, 0)

/-- The digits of an exponent: their value, or how many of them had been read when it became too
large. -/
def gatherExponent (value read : Nat) : List Digit → Nat ⊕ Nat
  | [] => .inl value
  | d :: ds =>
    if value * 10 + d.val ≤ maxExponent then gatherExponent (value * 10 + d.val) (read + 1) ds
    else .inr (read + 1)

/-- A number too large for floating point. -/
inductive OutOfRange
  | outOfRange

/-- `f * 10 ^ e`, by powers of ten up to the largest finite one. `steps` bounds the number of
divisions that make up for a more negative exponent. -/
def scale : Nat → Binary64 → Int → Except OutOfRange Binary64
  | steps, f, e =>
    if e.natAbs ≤ 308 then
      if 0 ≤ e then
        let g := f.mul (Binary64.tenPower e.toNat)
        if g.isInfinite then .error .outOfRange else .ok g
      else .ok (f.div (Binary64.tenPower (-e).toNat))
    else if f.isZero then .ok f
    else if 0 ≤ e then .error .outOfRange
    else
      match steps with
      | 0 => .ok f
      | steps + 1 => scale steps (f.div (Binary64.tenPower 308)) (e + 308)

namespace Numeral

/-- The floating-point number `± significand * 10 ^ e`. -/
def float (negative : Bool) (significand : Nat) (e : Int) : Except OutOfRange Number :=
  match scale (e.natAbs / 308) (Binary64.ofNat significand) e with
  | .ok f => .ok (.float (if negative then f.neg else f))
  | .error r => .error r

/-- The number of a whole part alone that fits. Negative numbers that are no 64-bit integers, and
the negative zero, are floating point. -/
def integer (negative : Bool) (significand : Nat) : Number :=
  if negative then
    if h : 0 < significand ∧ significand ≤ Nat.pow 2 63 then
      .negative ⟨significand - 1, Nat.lt_of_lt_of_le (Nat.sub_lt h.1 (by decide)) h.2⟩
    else .float (Binary64.ofNat significand).neg
  else .natural (UInt64.ofNat significand)

/-- How many bytes of the spelling stand in front of the digits of the exponent. -/
def exponentStart (n : Numeral) : Nat :=
  n.text.length - (match n.exponent with
    | some e => e.digits.length
    | none => 0)

/-- The number that a spelling at this place stands for. -/
def number (n : Numeral) (place : Nat) : Except Fault Number :=
  let (whole, extra) := gatherWhole n.whole
  let (significand, taken) := gatherFraction whole (n.fraction.getD [])
  let start : Int := (extra : Int) - (taken : Int)
  let atEnd := fun (r : Except OutOfRange Number) =>
    match r with
    | .ok x => .ok x
    | .error _ => .error ⟨.spelling .numberOutOfRange, .at (place + n.text.length)⟩
  match n.exponent with
  | none =>
    if n.fraction.isNone && extra == 0 then .ok (integer n.negative whole)
    else atEnd (float n.negative significand start)
  | some e =>
    match gatherExponent 0 0 e.digits with
    | .inl x =>
      atEnd (float n.negative significand
        (if e.sign = .minus then start - (x : Int) else start + (x : Int)))
    | .inr read =>
      if significand ≠ 0 ∧ e.sign ≠ .minus then
        .error ⟨.spelling .numberOutOfRange, .at (place + n.exponentStart + read)⟩
      else .ok (.float (Binary64.zero n.negative))

/-- The spelling of an integer. -/
def ofInt (i : Int) : Numeral :=
  ⟨i < 0, Decimal.digitsOf i.natAbs, none, none⟩

/-- The spelling of a positive decimal with its sign. Where the point falls within the digits, or
up to sixteen places from their start, or up to four zeros in front of them, it is written there,
with at least one digit on either side; otherwise an exponent follows the first digit and the
rest. -/
def ofDecimal (negative : Bool) (d : Decimal.Expansion) : Numeral :=
  let n : Int := d.digits.length
  if 0 < d.point ∧ d.point ≤ 16 then
    if n ≤ d.point then
      ⟨negative, d.digits ++ List.replicate (d.point - n).toNat Digit.zero, some [Digit.zero], none⟩
    else ⟨negative, d.digits.take d.point.toNat, some (d.digits.drop d.point.toNat), none⟩
  else if -5 < d.point ∧ d.point ≤ 0 then
    ⟨negative, [Digit.zero], some (List.replicate (-d.point).toNat Digit.zero ++ d.digits), none⟩
  else
    let e := d.point - 1
    ⟨negative, d.digits.take 1, if n ≤ 1 then none else some (d.digits.drop 1),
      some ⟨false, if e < 0 then .minus else .plus, Decimal.digitsOf e.natAbs⟩⟩

/-- The spelling of a floating-point number, if it is finite. -/
def ofBinary64? : Binary64 → Option Numeral
  | .nan => none
  | .infinite _ => none
  | .finite negative exponent fraction =>
    if exponent.val = 0 ∧ fraction.val = 0 then
      some ⟨negative, [Digit.zero], some [Digit.zero], none⟩
    else some (ofDecimal negative (Decimal.shortest exponent fraction))

/-- The spelling of a number, if it has one. -/
def ofNumber? : Number → Option Numeral
  | .natural n => some (ofInt n.toNat)
  | .negative n => some (ofInt (Int.negSucc n.val))
  | .float x => ofBinary64? x

end Numeral

/-- The text of ASCII bytes. -/
def asciiText (bytes : List UInt8) : String :=
  String.ofList (bytes.map fun b => Char.ofNat b.toNat)

/-- What a number is called where something else was expected. -/
def Number.found (n : Number) : Found :=
  match n.toInt?, Numeral.ofNumber? n with
  | some i, _ => .integer i
  | none, some t => .float (asciiText t.text)
  | none, none => .null

end CallPool.Json
