import CallPool.Binary64

/-!
# JSON values

A value is what a document stands for. Numbers without a fraction and an exponent are integers of
64 bits where they fit, all others are floating point. An object is a list of members; the values
that are handed out are in normal form, where the keys of every object ascend and none occurs
twice. Reading keeps the last of several members with one key, and so does `Value.normal`.
-/

set_option autoImplicit false

namespace CallPool.Json

/-- A JSON number: a natural number of 64 bits, a negative number `-(n + 1)` of 64 bits, or a
floating-point number. -/
inductive Number
  | natural (n : UInt64)
  | negative (n : Fin (Nat.pow 2 63))
  | float (x : Binary64)
  deriving DecidableEq

namespace Number

/-- The integer that a number is written as, if it is an integer. -/
def toInt? : Number → Option Int
  | natural n => some n.toNat
  | negative n => some (Int.negSucc n.val)
  | float _ => none

/-- The floating-point number nearest to a number. -/
def toBinary64 : Number → Binary64
  | natural n => Binary64.ofNat n.toNat
  | negative n => Binary64.ofInt (Int.negSucc n.val)
  | float x => x

/-- The number of an integer of 64 bits. -/
def ofInt64 (i : Int64) : Number :=
  if 0 ≤ i.toInt then natural (UInt64.ofNat i.toInt.toNat)
  else negative (Fin.ofNat (Nat.pow 2 63) (-i.toInt - 1).toNat)

end Number

/-- A JSON value. -/
inductive Value
  | null
  | bool (b : Bool)
  | number (n : Number)
  | string (s : String)
  | list (items : List Value)
  | object (members : List (String × Value))

/-- The members of an object. -/
abbrev Members := List (String × Value)

/-- The members with `v` under the key `k`, in the place that the order of keys gives it. Text is
ordered as its bytes are. -/
def Members.insert (k : String) (v : Value) : Members → Members
  | [] => [(k, v)]
  | (k', v') :: rest =>
    if k < k' then (k, v) :: (k', v') :: rest
    else if k = k' then (k, v) :: rest
    else (k', v') :: Members.insert k v rest

mutual

/-- The value in normal form: in every object the keys ascend, and of several members with one key
the last is kept. -/
def Value.normal : Value → Value
  | .null => .null
  | .bool b => .bool b
  | .number n => .number n
  | .string s => .string s
  | .list items => .list (normalItems items)
  | .object members => .object (normalMembers members [])

/-- The values of a list in normal form. -/
def normalItems : List Value → List Value
  | [] => []
  | v :: rest => v.normal :: normalItems rest

/-- The members in normal form, added to members that are so already. -/
def normalMembers : List (String × Value) → Members → Members
  | [], done => done
  | (k, v) :: rest, done => normalMembers rest (done.insert k v.normal)

end

end CallPool.Json
