import Mongoose.Lib.Run

/-!
# Simulation

A system whose steps are runs of a smaller one.

`Plays` says that the smaller system goes from one state to another and what is observed
on the way.  `exists_run` puts the runs of the steps together: if every step of the
larger system plays in its `view`, then so does every run, and what is observed is what a
history variable of the larger system has collected.
-/

namespace Simulation

open Run

variable {σ τ ℓ κ ω : Type*} {small : τ → κ → Option τ} {seen : κ → Option ω} {t t' t'' : τ} {xs ys : List ω}

/-- The smaller system goes from a state to another, with these observations. -/
def Plays (small : τ → κ → Option τ) (seen : κ → Option ω) (t t' : τ) (xs : List ω) : Prop :=
  ∃ ks, run small t ks = some t' ∧ ks.filterMap seen = xs

namespace Plays

/-- No step plays nothing. -/
theorem refl (t : τ) : Plays small seen t t [] := ⟨[], rfl, rfl⟩

/-- Nor does a state that is the same. -/
theorem of_eq (h : t = t') : Plays small seen t t' [] := h ▸ refl t

/-- One step plays. -/
theorem single {k : κ} (h : small t k = some t') : Plays small seen t t' (seen k).toList :=
  ⟨[k], run_singleton.trans h, by cases hk : seen k <;> simp [hk]⟩

/-- One play after the other. -/
theorem trans (h : Plays small seen t t' xs) (h' : Plays small seen t' t'' ys) :
    Plays small seen t t'' (xs ++ ys) := by
  obtain ⟨ks, hrun, rfl⟩ := h
  obtain ⟨ls, hrun', rfl⟩ := h'
  exact ⟨ks ++ ls, run_append hrun hrun', List.filterMap_append⟩

end Plays

variable {large : σ → ℓ → Option σ} {sees : σ → ℓ → List ω} {P : ℓ → Prop} {s s' : σ} {ls : List ℓ}

/-- **Steps that play make runs that play.** -/
theorem exists_run (view : σ → τ) (hstep : ∀ m l m', P l → large m l = some m' → Plays small seen (view m) (view m') (sees m l))
    (hP : ∀ l ∈ ls, P l)
    (h : run (recording large fun m l _ xs => xs ++ sees m l) (s, []) ls = some (s', xs)) :
    Plays small seen (view s) (view s') xs := by
  refine run_induction (P := fun ls r => (∀ l ∈ ls, P l) → Plays small seen (view s) (view r.1) r.2) ?_ ?_ h hP
  · exact fun _ => .refl _
  · rintro ks ⟨m, ys⟩ l ⟨m', zs⟩ - ih hl hP
    obtain ⟨hm, rfl⟩ := recording_eq_some_iff.mp hl
    exact (ih fun k hk => hP k (List.mem_append_left _ hk)).trans (hstep m l m' (hP l (by simp)) hm)

end Simulation
