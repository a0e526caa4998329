import Mongoose.Lib.Run

/-!
# Leads

What a labelled transition system can still reach.

`Leads` says that from every state with one property some run of allowed labels ends in a
state with another.  Such facts chain; where it is not known how many steps are needed,
`of_rank` asks for one that lowers a rank.  `length_le_of_potential` bounds every run
instead, by a potential that pays for each step and is paid by a cost.
-/

namespace Run

variable {σ ℓ : Type*}

/-- From every state of `P` a run of labels in `ok` ends in one of `Q`. -/
def Leads (step : σ → ℓ → Option σ) (ok : ℓ → Prop) (P Q : σ → Prop) : Prop :=
  ∀ s, P s → ∃ ls t, (∀ l ∈ ls, ok l) ∧ run step s ls = some t ∧ Q t

variable {step : σ → ℓ → Option σ} {ok ok' : ℓ → Prop} {P Q R : σ → Prop}

/-- What holds already is led to by no step. -/
theorem Leads.of_imp (h : ∀ s, P s → Q s) : Leads step ok P Q := by
  intro s hs
  exact ⟨[], s, by simp, rfl, h s hs⟩

/-- One step that may be taken leads to what holds after it. -/
theorem Leads.of_step (h : ∀ s, P s → ∃ l t, ok l ∧ step s l = some t ∧ Q t) : Leads step ok P Q := by
  intro s hs
  obtain ⟨l, t, hl, hstep, ht⟩ := h s hs
  exact ⟨[l], t, by simpa using hl, run_singleton.trans hstep, ht⟩

/-- Leading on. -/
theorem Leads.trans (h : Leads step ok P Q) (h' : Leads step ok Q R) : Leads step ok P R := by
  intro s hs
  obtain ⟨ls, m, hls, hm, hq⟩ := h s hs
  obtain ⟨ks, t, hks, ht, hr⟩ := h' m hq
  refine ⟨ls ++ ks, t, fun l hl => ?_, run_append hm ht, hr⟩
  obtain hl | hl := List.mem_append.mp hl
  · exact hls l hl
  · exact hks l hl

/-- By cases on where the run begins. -/
theorem Leads.or (h : Leads step ok P R) (h' : Leads step ok Q R) : Leads step ok (fun s => P s ∨ Q s) R := by
  intro s hs
  obtain hs | hs := hs
  · exact h s hs
  · exact h' s hs

/-- More labels lead no less. -/
theorem Leads.mono (h : Leads step ok P Q) (hok : ∀ l, ok l → ok' l) : Leads step ok' P Q := by
  intro s hs
  obtain ⟨ls, t, hls, ht, hq⟩ := h s hs
  exact ⟨ls, t, fun l hl => hok l (hls l hl), ht, hq⟩

/-- Some step from every state of `P` ends in `Q`, or stays in `P` and lowers the rank. -/
theorem Leads.of_rank (rank : σ → ℕ)
    (h : ∀ s, P s → ∃ l t, ok l ∧ step s l = some t ∧ (Q t ∨ P t ∧ rank t < rank s)) : Leads step ok P Q := by
  intro s hs
  induction hn : rank s using Nat.strongRecOn generalizing s with
  | ind n ih =>
      obtain ⟨l, t, hl, hstep, ht⟩ := h s hs
      obtain ht | ⟨ht, hlt⟩ := ht
      · exact ⟨[l], t, by simpa using hl, run_singleton.trans hstep, ht⟩
      · obtain ⟨ls, u, hls, hrun, hu⟩ := ih (rank t) (hn ▸ hlt) t ht rfl
        refine ⟨l :: ls, u, fun k hk => ?_, run_cons_iff.mpr ⟨t, hstep, hrun⟩, hu⟩
        obtain rfl | hk := List.mem_cons.mp hk
        · exact hl
        · exact hls k hk

/-- A potential that pays for every step, but for what the cost grows by, bounds every run. -/
theorem length_le_of_potential {I : σ → Prop} (potential cost : σ → ℕ)
    (hinv : ∀ s l t, I s → step s l = some t → I t)
    (hpay : ∀ s l t, I s → step s l = some t → potential t + 1 + cost s ≤ potential s + cost t) {s t : σ} {ls : List ℓ}
    (hs : I s) (h : run step s ls = some t) : ls.length + potential t + cost s ≤ potential s + cost t := by
  induction ls generalizing s with
  | nil =>
      obtain rfl : s = t := by simpa using h
      simp
  | cons l ls ih =>
      obtain ⟨m, hm, ht⟩ := run_cons_iff.mp h
      have hstep := hpay s l m hs hm
      have hrest := ih (hinv s l m hs hm) ht
      simp only [List.length_cons]
      omega

end Run
