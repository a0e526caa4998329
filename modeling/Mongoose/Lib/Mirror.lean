import Mathlib.Data.Set.Insert
import Mathlib.Logic.Function.Basic

/-!
# Mongoose.Lib.Mirror

Maps that mirror a set kept elsewhere.

A partial map mirrors a set when it holds every element of it under exactly one
key, and nothing else.  The rules say how the two move together: a new element
under a new key, an element and its key removed, and all elements of a kind
removed at once.
-/

/-- Every element of the set is held under one key, and nothing else is held. -/
structure Mirrors {κ ε : Type*} (m : κ → Option ε) (s : Set ε) : Prop where
  mem : ∀ x, x ∈ s ↔ ∃ k, m k = some x
  inj : ∀ k k' x, m k = some x → m k' = some x → k = k'

namespace Mirrors

variable {κ ε : Type*} {m m' : κ → Option ε} {s : Set ε} {k : κ} {x : ε}

/-- Empty maps mirror each other. -/
theorem empty : Mirrors (fun _ : κ => (none : Option ε)) ∅ where
  mem := by simp
  inj := by simp

/-- A map that holds nothing mirrors no element. -/
theorem eq_empty (h : Mirrors (fun _ : κ => (none : Option ε)) s) : s = ∅ := by
  ext x
  simp [h.mem x]

variable [DecidableEq κ]

/-- A new element under a new key. -/
theorem insert (h : Mirrors m s) (hk : m k = none) (hx : x ∉ s)
    (hm : ∀ k', m' k' = if k' = k then some x else m k') : Mirrors m' (Insert.insert x s) where
  mem := fun y => by
    rw [Set.mem_insert_iff, h.mem y]
    constructor
    · rintro (rfl | ⟨k', hk'⟩)
      · exact ⟨k, by rw [hm, if_pos rfl]⟩
      · refine ⟨k', ?_⟩
        rw [hm, if_neg]
        · exact hk'
        · rintro rfl
          rw [hk] at hk'
          cases hk'
    · rintro ⟨k', hk'⟩
      rw [hm] at hk'
      split at hk'
      · exact .inl (Option.some.inj hk').symm
      · exact .inr ⟨k', hk'⟩
  inj := fun k₁ k₂ y h₁ h₂ => by
    rw [hm] at h₁ h₂
    split at h₁ <;> split at h₂
    · next e₁ e₂ => exact e₁.trans e₂.symm
    · cases h₁
      exact absurd ((h.mem x).mpr ⟨k₂, h₂⟩) hx
    · cases h₂
      exact absurd ((h.mem x).mpr ⟨k₁, h₁⟩) hx
    · exact h.inj k₁ k₂ y h₁ h₂

/-- An element and its key. -/
theorem erase (h : Mirrors m s) (hk : m k = some x)
    (hm : ∀ k', m' k' = if k' = k then none else m k') : Mirrors m' (s \ {x}) where
  mem := fun y => by
    rw [Set.mem_sdiff, Set.mem_singleton_iff, h.mem y]
    constructor
    · rintro ⟨⟨k', hk'⟩, hne⟩
      refine ⟨k', ?_⟩
      rw [hm, if_neg]
      · exact hk'
      · rintro rfl
        exact hne (Option.some.inj (hk'.symm.trans hk))
    · rintro ⟨k', hk'⟩
      rw [hm] at hk'
      split at hk'
      · cases hk'
      · next hne =>
          refine ⟨⟨k', hk'⟩, ?_⟩
          rintro rfl
          exact hne (h.inj k' k y hk' hk)
  inj := fun k₁ k₂ y h₁ h₂ => by
    rw [hm] at h₁ h₂
    split at h₁ <;> split at h₂
    · cases h₁
    · cases h₁
    · cases h₂
    · exact h.inj k₁ k₂ y h₁ h₂

omit [DecidableEq κ] in
/-- All elements but those of a kind. -/
theorem filter (h : Mirrors m s) {p : ε → Bool} (hm : ∀ k', m' k' = (m k').filter p) :
    Mirrors m' {x ∈ s | p x} where
  mem := fun y => by
    simp only [Set.mem_ofPred_eq, h.mem y, hm, Option.filter_eq_some_iff]
    exact exists_and_right.symm
  inj := fun k₁ k₂ y h₁ h₂ => by
    rw [hm, Option.filter_eq_some_iff] at h₁ h₂
    exact h.inj k₁ k₂ y h₁.1 h₂.1

end Mirrors
