import CallPool.Json.StringText
import CallPool.Proofs.Json.Spelling

/-!
# Strings read back

A text is written byte for byte, each byte of its UTF-8 as one piece. Every piece is one that JSON
admits (`ofString_wellSpelled`), and the pieces stand for the very bytes they were made from, so the
text that is read is the text that was written.

Main statement: `Quoted.string_ofString`.
-/

set_option autoImplicit false

namespace CallPool.Json

/-- The byte of a hexadecimal digit is read as that digit. -/
theorem hexValue?_hexByte {n : Nat} (small : n < 16) : hexValue? (hexByte n) = some n := by
  have all : ∀ n : Fin 16, hexValue? (hexByte n.val) = some n.val := by decide
  exact all ⟨n, small⟩

/-- Every byte is written as it may be spelled. -/
theorem Piece.ofByte_wellSpelled (b : UInt8) : (Piece.ofByte b).WellSpelled := by
  have high : b.toNat / 16 < 16 := by have := b.toNat_lt; omega
  have low : b.toNat % 16 < 16 := Nat.mod_lt _ (by decide)
  have zero : hexValue? 0x30 = some 0 := by decide
  unfold Piece.ofByte
  repeat' split
  all_goals try exact trivial
  · simp [Piece.WellSpelled, hexValue?_hexByte high, hexValue?_hexByte low, zero]
  · exact ⟨‹_›, ‹_›, ‹_›⟩

/-- Every text is written as it may be spelled. -/
theorem Quoted.ofString_wellSpelled (s : String) : (Quoted.ofString s).WellSpelled := by
  intro piece member
  obtain ⟨b, -, rfl⟩ := List.mem_map.1 member
  exact Piece.ofByte_wellSpelled b

/-- A control character is the code point of its two digits. -/
theorem unitValue_control (b : UInt8) :
    unitValue 0x30 0x30 (hexByte (b.toNat / 16)) (hexByte (b.toNat % 16)) = b.toNat := by
  have high : b.toNat / 16 < 16 := by have := b.toNat_lt; omega
  have low : b.toNat % 16 < 16 := Nat.mod_lt _ (by decide)
  have zero : hexValue? 0x30 = some 0 := by decide
  simp only [unitValue, hexValue?_hexByte high, hexValue?_hexByte low, zero, Option.getD_some]
  omega

/-- A control character is one byte. -/
theorem codePointBytes_control {b : UInt8} (control : b < 0x20) : codePointBytes b.toNat = [b] := by
  have all : ∀ n : Fin 32, codePointBytes n.val = [UInt8.ofNat n.val] := by decide
  have byte := all ⟨b.toNat, control⟩
  rwa [UInt8.ofNat_toNat] at byte

/-- The spelling of a byte stands for it. -/
theorem Quoted.bytes_ofByte (dangling : Nat → Fault) (place : Nat) (b : UInt8) (rest : Quoted) :
    Quoted.bytes dangling place (Piece.ofByte b :: rest) =
      (Quoted.bytes dangling (place + (Piece.ofByte b).width) rest).map (b :: ·) := by
  unfold Piece.ofByte
  split
  case isTrue quote => subst quote; rfl
  split
  case isTrue backslash => subst backslash; rfl
  split
  case isTrue backspace => subst backspace; rfl
  split
  case isTrue tab => subst tab; rfl
  split
  case isTrue lineFeed => subst lineFeed; rfl
  split
  case isTrue formFeed => subst formFeed; rfl
  split
  case isTrue carriageReturn => subst carriageReturn; rfl
  split
  case isTrue control =>
    have bound : b.toNat < 32 := control
    rw [Quoted.bytes.eq_def]
    simp only [unitValue_control, codePointBytes_control control]
    rw [if_neg (by omega), if_neg (by omega)]
    rfl
  case isFalse => rfl

/-- The spelling of bytes stands for them. -/
theorem Quoted.bytes_map_ofByte (dangling : Nat → Fault) (place : Nat) (bs : List UInt8) :
    Quoted.bytes dangling place (bs.map Piece.ofByte) = .ok bs := by
  induction bs generalizing place with
  | nil => rfl
  | cons b bs ih => rw [List.map_cons, Quoted.bytes_ofByte, ih]; rfl

/-- A text is read back from the string it is written as, wherever that stands. -/
theorem Quoted.string_ofString (s : String) (place : Nat) :
    Quoted.string (Quoted.ofString s) place = .ok s := by
  have valid : String.fromUTF8? s.toUTF8 = some s := by
    unfold String.fromUTF8?
    rw [String.toUTF8_eq_toByteArray, dif_pos s.isValidUTF8]
    rfl
  simp only [Quoted.string, Quoted.ofString, Quoted.bytes_map_ofByte, Array.toArray_toList, valid]

end CallPool.Json
