import Mongoose.Lib.Run

/-!
# Mongoose.Lib.Product

Two transition systems that take some of their steps together.

`parts` says of a label of the product what each side does in it, if anything, where the
two stand.  Every run of the product is one of each side, so an invariant of a side is one
of the product.
-/

namespace Product

variable {σ τ ℓ κ Λ : Type*}

/-- A side performs its label, or nothing. -/
def advance (step : σ → ℓ → Option σ) (s : σ) : Option ℓ → Option σ
  | none => some s
  | some l => step s l

/-- Both sides perform their parts of a label. -/
def step (left : σ → ℓ → Option σ) (right : τ → κ → Option τ) (parts : σ × τ → Λ → Option (Option ℓ × Option κ))
    (s : σ × τ) (a : Λ) : Option (σ × τ) :=
  (parts s a).bind fun p => (advance left s.1 p.1).bind fun m => (advance right s.2 p.2).map fun n => (m, n)

variable {left : σ → ℓ → Option σ} {right : τ → κ → Option τ} {parts : σ × τ → Λ → Option (Option ℓ × Option κ)}
  {s t : σ × τ} {a : Λ} {as : List Λ}

/-- A step of the product is one of each side that its label has a part for. -/
theorem step_eq_some_iff :
    step left right parts s a = some t ↔
      ∃ l k, parts s a = some (l, k) ∧ advance left s.1 l = some t.1 ∧ advance right s.2 k = some t.2 := by
  obtain ⟨m, n⟩ := t
  simp only [step, Option.bind_eq_some_iff, Option.map_eq_some_iff, Prod.exists, Prod.mk.injEq]
  constructor
  · rintro ⟨l, k, hp, m', hm, n', hn, rfl, rfl⟩
    exact ⟨l, k, hp, hm, hn⟩
  · rintro ⟨l, k, hp, hm, hn⟩
    exact ⟨l, k, hp, m, hm, n, hn, rfl, rfl⟩

/-- What a side's steps keep, its part of a label keeps. -/
theorem advance_keeps {I : σ → Prop} {s t : σ} {l : Option ℓ} (hstep : ∀ m l t, I m → left m l = some t → I t)
    (hs : I s) (h : advance left s l = some t) : I t := by
  cases l with
  | none =>
      obtain rfl := Option.some.inj h
      exact hs
  | some l => exact hstep s l t hs h

/-- A run of the product is one of its left side. -/
theorem exists_left_run (h : Run.run (step left right parts) s as = some t) :
    ∃ ls, Run.run left s.1 ls = some t.1 := by
  refine Run.invariant (I := fun t => ∃ ls, Run.run left s.1 ls = some t.1) ?_ ⟨[], rfl⟩ h
  rintro m a t ⟨ls, hrun⟩ hstep
  obtain ⟨l, k, -, hleft, -⟩ := step_eq_some_iff.mp hstep
  refine advance_keeps (I := fun t => ∃ ls, Run.run left s.1 ls = some t) ?_ ⟨ls, hrun⟩ hleft
  rintro m l t ⟨ls, hrun⟩ hl
  exact ⟨ls ++ [l], Run.run_concat hrun hl⟩

/-- A run of the product is one of its right side. -/
theorem exists_right_run (h : Run.run (step left right parts) s as = some t) :
    ∃ ks, Run.run right s.2 ks = some t.2 := by
  refine Run.invariant (I := fun t => ∃ ks, Run.run right s.2 ks = some t.2) ?_ ⟨[], rfl⟩ h
  rintro m a t ⟨ks, hrun⟩ hstep
  obtain ⟨l, k, -, -, hright⟩ := step_eq_some_iff.mp hstep
  refine advance_keeps (I := fun t => ∃ ks, Run.run right s.2 ks = some t) ?_ ⟨ks, hrun⟩ hright
  rintro m k t ⟨ks, hrun⟩ hk
  exact ⟨ks ++ [k], Run.run_concat hrun hk⟩

end Product
