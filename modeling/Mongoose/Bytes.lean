import Mathlib.Algebra.Order.Ring.Int
import Mathlib.Control.Monad.Basic
import Mathlib.Data.List.GetD
import Mathlib.Tactic.Common

/-!
# Mongoose.Bytes

Byte vectors and the little-endian fields read from and written to them, with
the exceptions the driver throws.

`le16` and `le32` throw on a short field, as in the source; `le16At` and
`le32At` are the values they return when the field is there.  Every reader of
the driver checks a length first, so later modules rewrite one into the other
with `le16_of_le` and `le32_of_le`.
-/

namespace Mongoose

/-- `std::vector<uint8_t>`. -/
abbrev Bytes := List UInt8

/-- What the driver throws: its own `Error`, which carries a J2534 status, and
the two standard exceptions of the codec. -/
inductive Exception
  | Error (code : Int) (what : String)
  | invalid_argument (what : String)
  | out_of_range (what : String)
  deriving DecidableEq, Repr

/-- A sequence of two operations succeeds when both do. -/
theorem bind_ok {α β : Type} {x : Except Exception α} {f : α → Except Exception β} {b : β}
    (h : (x >>= f) = .ok b) : ∃ a, x = .ok a ∧ f a = .ok b := by
  cases x with
  | error e => cases h
  | ok a => exact ⟨a, rfl, h⟩

/-- A check that did not throw was passed. -/
theorem check_ok {α : Type} {c : Prop} [Decidable c] {e : Exception}
    {f : PUnit → Except Exception α} {a : α}
    (h : (if c then (throw e : Except Exception PUnit) >>= f else f ⟨⟩) = .ok a) :
    ¬ c ∧ f ⟨⟩ = .ok a := by
  split at h
  · cases h
  · next hc => exact ⟨hc, h⟩

/-! ## little-endian fields -/

/-- The little-endian 16-bit field at offset `o`; bytes past the end read as 0. -/
def le16At (d : Bytes) (o : Nat) : Nat :=
  (d.getD o 0).toNat + 256 * (d.getD (o + 1) 0).toNat

/-- The little-endian 32-bit field at offset `o`. -/
def le32At (d : Bytes) (o : Nat) : Nat := le16At d o + 65536 * le16At d (o + 2)

def le16 (d : Bytes) (o : Nat) : Except Exception Nat :=
  if o > d.length ∨ d.length - o < 2 then throw (.out_of_range "short u16 field")
  else pure (le16At d o)

def le32 (d : Bytes) (o : Nat) : Except Exception Nat := do
  let low ← le16 d o
  let high ← le16 d (o + 2)
  pure (low + 65536 * high)

/-- Overwrite the 16-bit field at offset `o` with the low 16 bits of `v`. -/
def put16 (d : Bytes) (o : Nat) (v : Nat) : Except Exception Bytes :=
  if o > d.length ∨ d.length - o < 2 then throw (.out_of_range "short u16 destination")
  else pure ((d.set o (UInt8.ofNat v)).set (o + 1) (UInt8.ofNat (v / 256)))

/-- `v` as the two bytes `put16` stores. -/
def bytes16 (v : Nat) : Bytes := [UInt8.ofNat v, UInt8.ofNat (v / 256)]

theorem le16_of_le {d : Bytes} {o : Nat} (h : o + 2 ≤ d.length) : le16 d o = .ok (le16At d o) := by
  rw [le16, if_neg (by omega)]
  rfl

/-- A read that did not throw returned the field. -/
theorem le16_bind_ok {α : Type} {d : Bytes} {o : Nat} {f : Nat → Except Exception α} {a : α}
    (h : (le16 d o >>= f) = .ok a) : f (le16At d o) = .ok a := by
  rw [le16] at h
  split at h
  · cases h
  · exact h

theorem le32_of_le {d : Bytes} {o : Nat} (h : o + 4 ≤ d.length) : le32 d o = .ok (le32At d o) := by
  rw [le32, le16_of_le (by omega), le16_of_le (by omega)]
  rfl

theorem put16_of_le {d : Bytes} {o : Nat} (v : Nat) (h : o + 2 ≤ d.length) :
    put16 d o v = .ok ((d.set o (UInt8.ofNat v)).set (o + 1) (UInt8.ofNat (v / 256))) := by
  rw [put16, if_neg (by omega)]
  rfl

theorem le16At_lt (d : Bytes) (o : Nat) : le16At d o < 65536 := by
  have h0 := (d.getD o 0).toNat_lt
  have h1 := (d.getD (o + 1) 0).toNat_lt
  rw [le16At]; omega

theorem le32At_lt (d : Bytes) (o : Nat) : le32At d o < 2 ^ 32 := by
  have h0 := le16At_lt d o
  have h1 := le16At_lt d (o + 2)
  rw [le32At]; omega

/-- A field inside a prefix is not changed by what follows it. -/
theorem le16At_append {d : Bytes} {o : Nat} (e : Bytes) (h : o + 2 ≤ d.length) :
    le16At (d ++ e) o = le16At d o := by
  simp only [le16At, List.getD_append _ _ _ _ (show o < d.length by omega),
    List.getD_append _ _ _ _ (show o + 1 < d.length by omega)]

/-- Reading past a prefix reads what follows it. -/
theorem le16At_append_right {d e : Bytes} {o : Nat} (h : d.length ≤ o) :
    le16At (d ++ e) o = le16At e (o - d.length) := by
  simp only [le16At, List.getD_append_right _ _ _ _ h,
    List.getD_append_right _ _ _ _ (show d.length ≤ o + 1 by omega),
    show o + 1 - d.length = o - d.length + 1 by omega]

/-- A field of a buffer's rest is a field of the buffer. -/
theorem le16At_drop (d : Bytes) (k o : Nat) : le16At (d.drop k) o = le16At d (k + o) := by
  simp only [le16At, List.getD_eq_getElem?_getD, List.getElem?_drop, Nat.add_assoc]

/-- What `bytes16` stores is what `le16At` reads back. -/
theorem le16At_bytes16 {v : Nat} (e : Bytes) (h : v < 65536) : le16At (bytes16 v ++ e) 0 = v := by
  simp only [le16At, bytes16, List.cons_append, List.getD_cons_zero, List.getD_cons_succ,
    UInt8.toNat_ofNat']
  omega

/-- Two bytes read as a field are stored by `bytes16` as they were. -/
theorem bytes16_le16At {d : Bytes} {o : Nat} (h : o + 2 ≤ d.length) :
    bytes16 (le16At d o) = (d.drop o).take 2 := by
  have ho : o < d.length := by omega
  have ho' : o + 1 < d.length := by omega
  have h0 := d[o].toNat_lt
  have h1 := d[o + 1].toNat_lt
  rw [List.drop_eq_getElem_cons ho, List.drop_eq_getElem_cons ho']
  simp only [bytes16, le16At, List.getD_eq_getElem _ _ ho, List.getD_eq_getElem _ _ ho',
    List.take_succ_cons, List.take_zero, List.cons.injEq, and_true]
  constructor <;> apply UInt8.toNat_inj.mp <;> rw [UInt8.toNat_ofNat'] <;> omega

end Mongoose
