import Mongoose.Ascii

/-!
# Mongoose.Codec.Hex

Bytes as hexadecimal text, and back.

`unhex` skips blanks wherever they stand, and accepts what is left if it spells bytes, two
digits of either case for each.  So it undoes `hex`, however the text is broken up.
-/

namespace Mongoose

def hex_digit (n : Nat) : UInt8 := (ascii "0123456789abcdef").getD n 0

def hex (d : Bytes) : Bytes := d.flatMap fun b => [hex_digit (b.toNat >>> 4), hex_digit (b.toNat &&& 15)]

/-- The loop of `unhex`; `high` is a digit that waits for another. -/
def unhex_loop (result : Bytes) (high : Option Nat) : Bytes → Except Exception Bytes
  | [] => if high.isSome then .error (.invalid_argument "odd hex length") else .ok result
  | c :: s =>
      if isspace c then unhex_loop result high s
      else
        match digit c with
        | none => .error (.invalid_argument "invalid hex digit")
        | some n =>
            match high with
            | none => unhex_loop result (some n) s
            | some high => unhex_loop (result ++ [UInt8.ofNat (high <<< 4 ||| n)]) none s

def unhex (s : Bytes) : Except Exception Bytes := unhex_loop [] none s

/-! ## what a text spells -/

/-- The values of the two digits of each byte. -/
def nibbles (d : Bytes) : List (Option Nat) := d.flatMap fun b => [some (b.toNat >>> 4), some (b.toNat &&& 15)]

/-- The values of the characters of a text that are no blanks. -/
def spelt (s : Bytes) : List (Option Nat) := (s.filter fun c => !isspace c).map digit

theorem nibbles_cons (b : UInt8) (d : Bytes) :
    nibbles (b :: d) = some (b.toNat >>> 4) :: some (b.toNat &&& 15) :: nibbles d := rfl

theorem spelt_cons (c : UInt8) (s : Bytes) :
    spelt (c :: s) = if isspace c then spelt s else digit c :: spelt s := by
  cases h : isspace c <;> simp [spelt, h]

/-- A byte is its two digits. -/
theorem nibbles_eq_iff {b : UInt8} {h l : Nat} (hh : h < 16) (hl : l < 16) :
    b.toNat >>> 4 = h ∧ b.toNat &&& 15 = l ↔ b = UInt8.ofNat (h <<< 4 ||| l) := by
  have hb := b.toNat_lt
  have hor : h <<< 4 ||| l = h * 16 + l := by
    rw [Nat.shiftLeft_eq, Nat.mul_comm, ← Nat.two_pow_add_eq_or_of_lt hl]
  have hand : b.toNat &&& 15 = b.toNat % 16 := Nat.and_two_pow_sub_one_eq_mod b.toNat 4
  rw [hor, hand, Nat.shiftRight_eq_div_pow, ← UInt8.toNat_inj, UInt8.toNat_ofNat']
  omega

theorem unhex_loop_eq_ok {result out s : Bytes} {high : Option Nat} (hhigh : ∀ n ∈ high, n < 16) :
    unhex_loop result high s = .ok out ↔
      ∃ d, out = result ++ d ∧ (high.map some).toList ++ spelt s = nibbles d := by
  induction s generalizing result high with
  | nil =>
      cases high with
      | none =>
          simp only [unhex_loop, Option.isSome_none, Bool.false_eq_true, if_false, Except.ok.injEq]
          constructor
          · intro h
            exact ⟨[], by rw [List.append_nil, h], rfl⟩
          · intro hspelt
            obtain ⟨d, hout, hd⟩ := hspelt
            cases d with
            | nil => rw [hout, List.append_nil]
            | cons b d => cases hd
      | some n =>
          simp only [unhex_loop, Option.isSome_some, if_true, reduceCtorEq, false_iff]
          intro hspelt
          obtain ⟨d, -, hd⟩ := hspelt
          cases d <;> cases hd
  | cons c s ih =>
      rw [unhex_loop, spelt_cons]
      by_cases hc : isspace c
      · rw [if_pos hc, if_pos hc, ih hhigh]
      rw [if_neg hc, if_neg hc]
      cases hdigit : digit c with
      | none =>
          -- what bytes spell are digits
          simp only [reduceCtorEq, false_iff]
          intro hspelt
          obtain ⟨d, -, hd⟩ := hspelt
          have hmem : none ∈ nibbles d := hd ▸ by simp
          simp [nibbles] at hmem
      | some n =>
          have hn := digit_lt hdigit
          cases high with
          | none =>
              rw [ih (by simpa using hn)]
              rfl
          | some h =>
              have hh : h < 16 := hhigh h rfl
              rw [ih (by simp)]
              constructor
              · intro hspelt
                obtain ⟨d, hout, hd⟩ := hspelt
                refine ⟨UInt8.ofNat (h <<< 4 ||| n) :: d, by simp [hout], ?_⟩
                obtain ⟨hhi, hlo⟩ := (nibbles_eq_iff hh hn).mpr rfl
                rw [nibbles_cons, hhi, hlo, ← hd]
                rfl
              · intro hspelt
                obtain ⟨d, hout, hd⟩ := hspelt
                cases d with
                | nil => cases hd
                | cons b d =>
                    rw [nibbles_cons] at hd
                    simp only [Option.map_some, Option.toList_some, List.cons_append, List.nil_append, List.cons.injEq,
                      Option.some.injEq] at hd
                    obtain ⟨hhi, hlo, hd⟩ := hd
                    rw [(nibbles_eq_iff hh hn).mp ⟨hhi.symm, hlo.symm⟩] at hout
                    exact ⟨d, by simp [hout], hd⟩

/-- **A text is accepted for the bytes that it spells.** -/
theorem unhex_eq_ok {s d : Bytes} : unhex s = .ok d ↔ spelt s = nibbles d := by
  simp [unhex, unhex_loop_eq_ok]

end Mongoose
