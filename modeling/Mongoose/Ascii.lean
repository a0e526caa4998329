import Mongoose.Bytes

/-!
# Mongoose.Ascii

Characters of a text as bytes.
-/

namespace Mongoose

/-- The bytes of an ASCII text. -/
def ascii (s : String) : Bytes := s.toList.map fun c => UInt8.ofNat c.toNat

/-- `isspace` in the C locale. -/
def isspace (b : UInt8) : Bool := b = 32 || (9 ≤ b && b ≤ 13)

/-- The value of a hexadecimal digit in either case. -/
def digit (c : UInt8) : Option Nat :=
  if 48 ≤ c ∧ c ≤ 57 then some (c.toNat - 48)
  else if 97 ≤ c ∧ c ≤ 102 then some (c.toNat - 97 + 10)
  else if 65 ≤ c ∧ c ≤ 70 then some (c.toNat - 65 + 10)
  else none

theorem digit_lt {c : UInt8} {n : Nat} (h : digit c = some n) : n < 16 := by
  simp only [digit, UInt8.le_iff_toNat_le] at h
  grind

end Mongoose
