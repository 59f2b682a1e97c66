import CallPool.Binary64

/-!
# Floating-point numbers from decimal text

`readBinary64` gives the floating-point number nearest to a decimal: digits with or without a point
and an exponent, or the words for infinity and for no number, with or without a sign.
-/

set_option autoImplicit false

namespace CallPool.Decimal

/-- The value of decimal digits. -/
def digitsValue (ds : List Char) : Nat := ds.foldl (fun n c => n * 10 + (c.toNat - 48)) 0

/-- The digits that a text starts with, and what stands behind them. -/
def spanDigits (s : List Char) : List Char × List Char := s.span Char.isDigit

/-- The sign that a text starts with, and what stands behind it. -/
def takeSign : List Char → Bool × List Char
  | '-' :: rest => (true, rest)
  | '+' :: rest => (false, rest)
  | s => (false, s)

/-- The exponent that a text consists of, `0` if the text is empty. -/
def exponentOf : List Char → Option Int
  | [] => some 0
  | c :: rest =>
    if c = 'e' ∨ c = 'E' then
      let (negative, ds) := takeSign rest
      if ds.isEmpty || !ds.all Char.isDigit then none
      else some (if negative then -(digitsValue ds : Int) else digitsValue ds)
    else none

/-- The number nearest to `n * 10 ^ e`. Beyond these bounds it is zero or infinite. -/
def nearest (negative : Bool) (n : Nat) (e : Int) : Binary64 :=
  let size : Int := (Nat.toDigits 10 n).length + e
  if n = 0 ∨ size < -330 then Binary64.zero negative
  else if 310 < size then .infinite negative
  else Binary64.ofRatio negative (n * Nat.pow 10 e.toNat) (Nat.pow 10 (-e).toNat)

/-- The floating-point number that a text gives, if it gives one. -/
def readBinary64 (text : String) : Option Binary64 :=
  let (negative, s) := takeSign text.toList
  let word := String.ofList (s.map Char.toLower)
  if word = "nan" then some .nan
  else if word = "inf" ∨ word = "infinity" then some (.infinite negative)
  else
    let (whole, rest) := spanDigits s
    let (fraction, rest) := (match rest with
      | '.' :: rest => spanDigits rest
      | rest => ([], rest))
    if whole.isEmpty && fraction.isEmpty then none
    else
      (exponentOf rest).map fun e =>
        nearest negative (digitsValue (whole ++ fraction)) (e - fraction.length)

end CallPool.Decimal
