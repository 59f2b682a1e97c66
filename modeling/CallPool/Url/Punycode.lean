/-!
# Punycode

Labels of host names outside ASCII are written with ASCII letters behind `xn--`: the ASCII
characters of the label come first, and numbers in a mixed base of 36 say where the others go.
`decode` gives the label back.
-/

set_option autoImplicit false

namespace CallPool.Url.Punycode

/-- The value of a digit. -/
def digit? (c : Char) : Option Nat :=
  let n := c.toNat
  if 0x61 ≤ n ∧ n ≤ 0x7A then some (n - 0x61)
  else if 0x41 ≤ n ∧ n ≤ 0x5A then some (n - 0x41)
  else if 0x30 ≤ n ∧ n ≤ 0x39 then some (n - 0x30 + 26)
  else none

/-- The least value of a digit with which a number goes on, at this weight. -/
def threshold (k bias : Nat) : Nat :=
  if k ≤ bias then 1 else if bias + 26 ≤ k then 26 else k - bias

/-- A number and what stands behind it: `weight` is that of its first digit, `k` the position. -/
def number (bias : Nat) : Nat → Nat → Nat → List Char → Option (Nat × List Char)
  | _, _, _, [] => none
  | value, weight, k, c :: rest =>
    match digit? c with
    | none => none
    | some d =>
      let value := value + d * weight
      let t := threshold k bias
      if Nat.pow 2 32 ≤ value then none
      else if d < t then some (value, rest)
      else number bias value (weight * (36 - t)) (k + 36) rest

/-- Divides by 35 as long as the number is large, and counts how often, `steps` times at most. -/
def shrink : Nat → Nat → Nat → Nat × Nat
  | 0, delta, k => (delta, k)
  | steps + 1, delta, k => if 455 < delta then shrink steps (delta / 35) (k + 36) else (delta, k)

/-- The bias behind a number. -/
def adapt (delta points : Nat) (first : Bool) : Nat :=
  let delta := if first then delta / 700 else delta / 2
  let (delta, k) := shrink 40 (delta + delta / points) 0
  k + 36 * delta / (delta + 38)

/-- Puts the characters that the digits spell into a label, one for each step. -/
def insertAll : Nat → Nat → Nat → Nat → List Char → List Char → Option (List Char)
  | _, _, _, _, [], label => some label
  | 0, _, _, _, _ :: _, _ => none
  | steps + 1, n, i, bias, c :: rest, label =>
    match number bias 0 1 36 (c :: rest) with
    | none => none
    | some (delta, rest) =>
      let points := label.length + 1
      let position := i + delta
      let code := n + position / points
      let spot := position % points
      if h : code.isValidChar then
        insertAll steps code (spot + 1) (adapt delta points (i = 0)) rest
          (label.take spot ++ Char.ofNatAux code h :: label.drop spot)
      else none

/-- The label that a text behind `xn--` stands for. -/
def decode (s : List Char) : Option (List Char) :=
  let behind := (s.reverse.takeWhile (· ≠ '-')).reverse
  let front := (s.take (s.length - behind.length)).dropLast
  if front.all fun c => c.toNat < 0x80 then insertAll (s.length + 1) 128 0 72 behind front
  else none

end CallPool.Url.Punycode
