import CallPool.Url.Fault

/-!
# Numeric hosts

Hosts that are IPv4 or IPv6 addresses. A host whose last part is a number must be an IPv4 address:
up to four parts, decimal, octal or hexadecimal, of which the last fills the bytes that are left. A
host in square brackets must be an IPv6 address.
-/

set_option autoImplicit false

namespace CallPool.Url

/-- The parts of a text between the separators. -/
def splitOn (separator : Char) : List Char → List (List Char)
  | [] => [[]]
  | c :: rest =>
    if c = separator then [] :: splitOn separator rest
    else
      match splitOn separator rest with
      | [] => [[c]]
      | part :: parts => (c :: part) :: parts

/-- The value of a digit in some base up to 16. -/
def digitValue? (base : Nat) (c : Char) : Option Nat :=
  let n := c.toNat
  let v := if 0x30 ≤ n ∧ n ≤ 0x39 then n - 0x30
    else if 0x41 ≤ n ∧ n ≤ 0x46 then n - 0x37
    else if 0x61 ≤ n ∧ n ≤ 0x66 then n - 0x57
    else base
  if v < base then some v else none

/-- The number that digits spell in some base, if they are digits. -/
def digitsValue? (base : Nat) (ds : List Char) : Option Nat :=
  ds.foldlM (fun n c => (digitValue? base c).map (n * base + ·)) 0

/-- The number that a part of an IPv4 address spells: hexadecimal behind `0x`, octal behind `0`,
else decimal. -/
def ipv4Number? : List Char → Option Nat
  | [] => none
  | '0' :: 'x' :: ds => digitsValue? 16 ds
  | '0' :: 'X' :: ds => digitsValue? 16 ds
  | '0' :: d :: ds => digitsValue? 8 (d :: ds)
  | ds => digitsValue? 10 ds

/-- The parts of a host, without the empty one behind a dot at the end. -/
def hostParts (host : List Char) : List (List Char) :=
  let parts := splitOn '.' host
  if parts.length ≥ 2 ∧ parts.getLast? = some [] then parts.dropLast else parts

/-- Whether the last part of a host is a number. -/
def endsInNumber (host : List Char) : Bool :=
  match (hostParts host).getLast? with
  | some (c :: cs) => (c :: cs).all Char.isDigit || (ipv4Number? (c :: cs)).isSome
  | _ => false

/-- Whether a host is an IPv4 address: all parts but the last fit a byte, and the last one fits
the bytes that are left. -/
def isIpv4 (host : List Char) : Bool :=
  let parts := hostParts host
  match parts.mapM ipv4Number? with
  | none => false
  | some numbers =>
    numbers.length ≤ 4 && numbers.dropLast.all (· ≤ 255) &&
      (numbers.getLast?.getD 0) < Nat.pow 2 (8 * (5 - numbers.length))

/-- Whether a text is four decimal bytes with dots between them, none with a leading zero. -/
def isDottedQuad (s : List Char) : Bool :=
  let parts := splitOn '.' s
  parts.length == 4 && parts.all fun part =>
    (match part with
      | [] => false
      | ['0'] => true
      | '0' :: _ => false
      | _ => true) &&
    (match digitsValue? 10 part with
      | some n => n ≤ 255
      | none => false)

/-- How many hexadecimal digits a text starts with, at most four. -/
def leadingHex (s : List Char) : Nat :=
  ((s.take 4).takeWhile fun c => (digitValue? 16 c).isSome).length

/-- Whether the rest of an IPv6 address may follow so many pieces: `compressed` tells whether a run
of zeros has been left out, and `steps` bounds how many pieces are looked at. -/
def ipv6Rest : Nat → Nat → Bool → List Char → Bool
  | 0, _, _, _ => false
  | steps + 1, pieces, compressed, s =>
    match s with
    | [] => compressed || pieces == 8
    | c :: rest =>
      if pieces ≥ 8 then false
      else if c = ':' then !compressed && ipv6Rest steps (pieces + 1) true rest
      else
        let n := leadingHex s
        match s.drop n with
        | [] => ipv6Rest steps (pieces + 1) compressed []
        | '.' :: _ =>
          n ≠ 0 && pieces ≤ 6 && isDottedQuad s && (compressed || pieces == 6)
        | ':' :: behind => !behind.isEmpty && ipv6Rest steps (pieces + 1) compressed behind
        | _ => false

/-- Whether a text is an IPv6 address. -/
def isIpv6 (s : List Char) : Bool :=
  match s with
  | ':' :: ':' :: rest => ipv6Rest (s.length + 1) 1 true rest
  | ':' :: _ => false
  | _ => s.length ≥ 2 && ipv6Rest (s.length + 1) 0 false s

end CallPool.Url
