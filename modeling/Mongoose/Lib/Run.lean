import Mathlib.Data.List.Induction
import Mathlib.Data.Option.Basic
import Mathlib.Tactic.Common

/-!
# Run

Labelled transition systems given by a partial step function, and the rules
for what holds along their runs.

`invariant` is induction over a run for a property of states, `run_induction`
for a property of states and the labels so far.  `Along` says that every step
of a run satisfies a relation of its two states and its label.  `recording`
adds a history variable: a value updated at every step that never decides
whether a step is enabled.
-/

namespace Run

variable {σ ℓ η : Type*}

/-- The state a sequence of labels leads to, if each of them is enabled in turn. -/
def run (step : σ → ℓ → Option σ) (s : σ) : List ℓ → Option σ
  | [] => some s
  | l :: ls => (step s l).bind fun m => run step m ls

section run

variable {step : σ → ℓ → Option σ} {s m t : σ} {l : ℓ} {ls ks : List ℓ}

/-- No label leads nowhere else. -/
@[simp] theorem run_nil : run step s [] = some s := rfl

/-- A run takes its first step, and goes on. -/
theorem run_cons_iff :
    run step s (l :: ls) = some t ↔ ∃ m, step s l = some m ∧ run step m ls = some t := by
  rw [run, Option.bind_eq_some_iff]

/-- A run of two parts passes through a state between them. -/
theorem run_append_iff :
    run step s (ls ++ ks) = some t ↔ ∃ m, run step s ls = some m ∧ run step m ks = some t := by
  induction ls generalizing s with
  | nil => simp
  | cons l ls ih =>
      simp only [List.cons_append, run_cons_iff, ih]
      constructor
      · rintro ⟨a, ha, m, hm, ht⟩
        exact ⟨m, ⟨a, ha, hm⟩, ht⟩
      · rintro ⟨m, ⟨a, ha, hm⟩, ht⟩
        exact ⟨a, ha, m, hm, ht⟩

/-- Two runs that meet are one. -/
theorem run_append (h : run step s ls = some m) (h' : run step m ks = some t) :
    run step s (ls ++ ks) = some t :=
  run_append_iff.mpr ⟨m, h, h'⟩

/-- A run of one label is a step. -/
theorem run_singleton : run step s [l] = step s l := by
  cases h : step s l <;> simp [run, h]

/-- A run takes one more step. -/
theorem run_concat (h : run step s ls = some m) (h' : step m l = some t) :
    run step s (ls ++ [l]) = some t :=
  run_append h (run_singleton.trans h')

/-- The last step of a run. -/
theorem run_concat_iff :
    run step s (ls ++ [l]) = some t ↔ ∃ m, run step s ls = some m ∧ step m l = some t := by
  simp only [run_append_iff, run_singleton]

/-- Induction over a run: a property of the labels so far and the state. -/
theorem run_induction {P : List ℓ → σ → Prop} (hinit : P [] s)
    (hstep : ∀ ls m l t, run step s ls = some m → P ls m → step m l = some t → P (ls ++ [l]) t)
    (h : run step s ls = some t) : P ls t := by
  induction ls using List.reverseRecOn generalizing t with
  | nil =>
      obtain rfl : s = t := by simpa using h
      exact hinit
  | append_singleton ls l ih =>
      obtain ⟨m, hm, ht⟩ := run_concat_iff.mp h
      exact hstep ls m l t hm (ih hm) ht

/-- What every step keeps, every run keeps. -/
theorem invariant {I : σ → Prop} (hstep : ∀ m l t, I m → step m l = some t → I t) (hinit : I s)
    (h : run step s ls = some t) : I t :=
  run_induction (P := fun _ m => I m) hinit (fun _ m l t _ hm => hstep m l t hm) h

/-- The step at which a value that stays is set. -/
theorem exists_setting {α : Type*} {f : σ → Option α} {x : α}
    (hkeep : ∀ m l t y, step m l = some t → f m = some y → f t = some y) (hinit : f s = none)
    (h : run step s ls = some t) (hf : f t = some x) :
    ∃ ks l ms m n, ls = ks ++ l :: ms ∧ run step s ks = some m ∧ f m = none ∧ step m l = some n ∧
      f n = some x := by
  refine run_induction (P := fun ls t => f t = some x → ∃ ks l ms m n, ls = ks ++ l :: ms ∧
    run step s ks = some m ∧ f m = none ∧ step m l = some n ∧ f n = some x) ?_ ?_ h hf
  · intro hf
    rw [hinit] at hf
    cases hf
  · intro ls m l t hm ih hstep hf
    cases hfm : f m with
    | none => exact ⟨ls, l, [], m, t, rfl, hm, hfm, hstep, hf⟩
    | some y =>
        obtain rfl := Option.some.inj ((hkeep m l t y hstep hfm).symm.trans hf)
        obtain ⟨ks, k, ms, a, b, rfl, hrest⟩ := ih hfm
        exact ⟨ks, k, ms ++ [l], a, b, by simp, hrest⟩

end run

/-! ## every step of a run -/

/-- Every step of the run of `ls` from `s` satisfies `P`. -/
def Along (step : σ → ℓ → Option σ) (P : σ → ℓ → σ → Prop) (s : σ) : List ℓ → Prop
  | [] => True
  | l :: ls => ∀ m, step s l = some m → P s l m ∧ Along step P m ls

/-- A property that can be decided of a step can be decided along a run. -/
instance decidableAlong (step : σ → ℓ → Option σ) (P : σ → ℓ → σ → Prop) [∀ s l t, Decidable (P s l t)] :
    ∀ (s : σ) (ls : List ℓ), Decidable (Along step P s ls)
  | _, [] => isTrue trivial
  | s, l :: ls =>
      match h : step s l with
      | none => isTrue fun m hm => by rw [h] at hm; cases hm
      | some m =>
          haveI := decidableAlong step P m ls
          decidable_of_iff (P s l m ∧ Along step P m ls)
            ⟨fun hp m' hm => by rw [h] at hm; cases hm; exact hp, fun hp => hp m h⟩

section along

variable {step : σ → ℓ → Option σ} {P Q : σ → ℓ → σ → Prop} {s m t : σ} {l : ℓ} {ls ks : List ℓ}

/-- No step, nothing to satisfy. -/
@[simp] theorem along_nil : Along step P s [] := trivial

/-- The steps of a run of two parts are those of both. -/
theorem along_append_iff (h : run step s ls = some m) :
    Along step P s (ls ++ ks) ↔ Along step P s ls ∧ Along step P m ks := by
  induction ls generalizing s with
  | nil =>
      obtain rfl : s = m := by simpa using h
      simp
  | cons l ls ih =>
      obtain ⟨a, ha, hm⟩ := run_cons_iff.mp h
      simp only [List.cons_append, Along, ha, Option.some.injEq, forall_eq', ih hm, and_assoc]

/-- The last step of a run, apart from those before. -/
theorem along_concat_iff (h : run step s ls = some m) (ht : step m l = some t) :
    Along step P s (ls ++ [l]) ↔ Along step P s ls ∧ P m l t := by
  simp [along_append_iff h, Along, ht]

/-- What a step satisfies may imply something else of it. -/
theorem Along.imp (hpq : ∀ m l t, step m l = some t → P m l t → Q m l t)
    (h : Along step P s ls) : Along step Q s ls := by
  induction ls generalizing s with
  | nil => trivial
  | cons l ls ih => exact fun m hm => ⟨hpq s l m hm (h m hm).1, ih (h m hm).2⟩

/-- Every step of a run from a state with an invariant satisfies what the
invariant gives it. -/
theorem along_of_invariant {I : σ → Prop} (hstep : ∀ m l t, I m → step m l = some t → I t)
    (hP : ∀ m l t, I m → step m l = some t → P m l t) (hinit : I s) : Along step P s ls := by
  induction ls generalizing s with
  | nil => trivial
  | cons l ls ih => exact fun m hm => ⟨hP s l m hinit hm, ih (hstep s l m hinit hm)⟩

/-- Labels whose every step satisfies `P`. -/
theorem along_of_mem (h : ∀ l ∈ ls, ∀ m t, step m l = some t → P m l t) : Along step P s ls := by
  induction ls generalizing s with
  | nil => trivial
  | cons l ls ih =>
      exact fun m hm => ⟨h l List.mem_cons_self s m hm, ih fun k hk => h k (List.mem_cons_of_mem l hk)⟩

/-- A label that no step of a run has is not among its labels. -/
theorem not_mem_of_along {k : ℓ} (h : Along step (fun _ l _ => l ≠ k) s ls)
    (hr : run step s ls = some t) : k ∉ ls := by
  induction ls generalizing s with
  | nil => exact List.not_mem_nil
  | cons l ls ih =>
      obtain ⟨m, hm, ht⟩ := run_cons_iff.mp hr
      obtain ⟨hl, h⟩ := h m hm
      exact List.not_mem_cons_of_ne_of_not_mem hl.symm (ih h ht)

/-- A property that steps with `P` keep holds after a run of such steps. -/
theorem invariant_of_along {I : σ → Prop}
    (hstep : ∀ m l t, I m → P m l t → step m l = some t → I t) (hinit : I s)
    (halong : Along step P s ls) (h : run step s ls = some t) : I t := by
  induction ls generalizing s with
  | nil =>
      obtain rfl : s = t := by simpa using h
      exact hinit
  | cons l ls ih =>
      obtain ⟨m, hm, ht⟩ := run_cons_iff.mp h
      obtain ⟨hP, halong⟩ := halong m hm
      exact ih (hstep s l m hinit hP hm) halong ht

end along

/-! ## history variables -/

/-- A transition system with a history variable: `note` updates it at each step
from the state before, the label and the state after. -/
def recording (step : σ → ℓ → Option σ) (note : σ → ℓ → σ → η → η) (s : σ × η) (l : ℓ) :
    Option (σ × η) :=
  (step s.1 l).map fun t => (t, note s.1 l t s.2)

section recording

variable {step : σ → ℓ → Option σ} {note : σ → ℓ → σ → η → η} {s t : σ} {h k : η} {l : ℓ}
  {ls : List ℓ}

/-- A recorded step is a step, and its note. -/
theorem recording_eq_some_iff :
    recording step note (s, h) l = some (t, k) ↔ step s l = some t ∧ k = note s l t h := by
  simp only [recording, Option.map_eq_some_iff, Prod.mk.injEq]
  constructor
  · rintro ⟨a, ha, rfl, rfl⟩
    exact ⟨ha, rfl⟩
  · rintro ⟨ha, rfl⟩
    exact ⟨t, ha, rfl, rfl⟩

/-- Forgetting the history gives a run of the system. -/
theorem run_of_recording (hr : run (recording step note) (s, h) ls = some (t, k)) :
    run step s ls = some t := by
  induction ls generalizing s h with
  | nil =>
      obtain ⟨rfl, rfl⟩ : s = t ∧ h = k := by simpa using hr
      rfl
  | cons l ls ih =>
      obtain ⟨⟨a, i⟩, ha, ht⟩ := run_cons_iff.mp hr
      exact run_cons_iff.mpr ⟨a, (recording_eq_some_iff.mp ha).1, ih ht⟩

variable (note) in
/-- Every run has a history. -/
theorem exists_recording (hr : run step s ls = some t) (h : η) :
    ∃ k, run (recording step note) (s, h) ls = some (t, k) := by
  induction ls generalizing s h with
  | nil =>
      obtain rfl : s = t := by simpa using hr
      exact ⟨h, rfl⟩
  | cons l ls ih =>
      obtain ⟨a, ha, ht⟩ := run_cons_iff.mp hr
      obtain ⟨k, hk⟩ := ih ht (note s l a h)
      exact ⟨k, run_cons_iff.mpr ⟨(a, note s l a h), recording_eq_some_iff.mpr ⟨ha, rfl⟩, hk⟩⟩

end recording

end Run
