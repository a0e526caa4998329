import Mathlib.Algebra.BigOperators.Group.Finset.Piecewise
import Mathlib.Data.List.Basic
import Mathlib.Tactic.Common

/-!
# Demux

Machines that serve many conversations at once.  A machine is a step function
from a state and an input to an output and a state; `trace` runs it over a list
of inputs and keeps each input with what it produced.

A step is *routed* when only the slot its input's key names takes part: that
slot alone fixes the output, it moves as a machine of its own (`act`), and no
other slot changes.  `filter_trace` then says that what one key's inputs
produced, among all the others, is what they produce alone.
-/

namespace Demux

variable {σ τ ι ω κ : Type*}

/-- Run a machine: each input with its output, and the final state. -/
def trace (step : σ → ι → ω × σ) (s : σ) : List ι → List (ι × ω) × σ
  | [] => ([], s)
  | i :: is =>
      let o := step s i
      let t := trace step o.2 is
      ((i, o.1) :: t.1, t.2)

section trace

variable (step : σ → ι → ω × σ)

/-- No input has no trace. -/
@[simp] theorem trace_nil (s : σ) : trace step s [] = ([], s) := rfl

/-- The trace of an input is its outputs, then that of the rest. -/
@[simp] theorem trace_cons (s : σ) (i : ι) (is : List ι) :
    trace step s (i :: is) =
      ((i, (step s i).1) :: (trace step (step s i).2 is).1, (trace step (step s i).2 is).2) := rfl

/-- A trace goes on from the state its beginning led to. -/
theorem trace_append (s : σ) (is js : List ι) :
    trace step s (is ++ js) =
      ((trace step s is).1 ++ (trace step (trace step s is).2 js).1,
        (trace step (trace step s is).2 js).2) := by
  induction is generalizing s with
  | nil => rfl
  | cons i is ih => simp [ih]

/-- A trace has the inputs in their order. -/
theorem map_fst_trace (s : σ) (is : List ι) : (trace step s is).1.map Prod.fst = is := by
  induction is generalizing s with
  | nil => rfl
  | cons i is ih => simp [ih]

/-- What every step of a run keeps, the run keeps. -/
theorem trace_induction {P : σ → Prop} (hstep : ∀ s i, P s → P (step s i).2) {s : σ} (h : P s)
    (is : List ι) : P (trace step s is).2 := by
  induction is generalizing s with
  | nil => exact h
  | cons i is ih => exact ih (hstep s i h)

end trace

section route

variable [DecidableEq κ] (step : σ → ι → ω × σ) (key : ι → κ) (slot : κ → σ → τ)
  (act : τ → ι → ω × τ)

/-- The step on `i` only involves the slot of its key. -/
structure Routed (s : σ) (i : ι) : Prop where
  output : (step s i).1 = (act (slot (key i) s) i).1
  own : slot (key i) (step s i).2 = (act (slot (key i) s) i).2
  others : ∀ k, k ≠ key i → slot k (step s i).2 = slot k s

/-- Every step of the run over `is` is routed. -/
def AllRouted (s : σ) : List ι → Prop
  | [] => True
  | i :: is => Routed step key slot act s i ∧ AllRouted (step s i).2 is

variable {step key slot act}

omit [DecidableEq κ] in
/-- A run is routed when the step after each of its prefixes is. -/
theorem allRouted_of_split {s : σ} {is : List ι}
    (h : ∀ before i after, is = before ++ i :: after →
      Routed step key slot act (trace step s before).2 i) :
    AllRouted step key slot act s is := by
  induction is generalizing s with
  | nil => trivial
  | cons i is ih =>
      refine ⟨h [] i is rfl, ih fun before j after he => ?_⟩
      exact h (i :: before) j after (by rw [he, List.cons_append])

/-- **Projection commutes with running**: in a routed run, the inputs of key
`k` produce, each where it arrives, what they produce alone from the slot of
`k`, and leave that slot the same. -/
theorem filter_trace {s : σ} {is : List ι} (h : AllRouted step key slot act s is) (k : κ) :
    (trace step s is).1.filter (fun p => key p.1 = k) =
        (trace act (slot k s) (is.filter (key · = k))).1 ∧
      slot k (trace step s is).2 = (trace act (slot k s) (is.filter (key · = k))).2 := by
  induction is generalizing s with
  | nil => exact ⟨rfl, rfl⟩
  | cons i is ih =>
      obtain ⟨hi, his⟩ := h
      obtain ⟨ih1, ih2⟩ := ih his
      by_cases hk : key i = k
      · subst hk
        simp only [trace_cons, List.filter_cons, decide_true, if_true]
        rw [ih1, ih2, hi.own, hi.output]
        exact ⟨rfl, rfl⟩
      · simp only [trace_cons, List.filter_cons, hk, decide_false, Bool.false_eq_true, if_false]
        rw [ih1, ih2, hi.others k (Ne.symm hk)]
        exact ⟨rfl, rfl⟩

end route

/-! ## outputs by key -/

section outputs

variable [DecidableEq κ]

/-- Outputs that are all for their own key, picked by the key. -/
theorem filter_flatMap_own {α β : Type*} (key : α → Option κ) {P : β → Prop} [DecidablePred P]
    (x : κ) {L : List (α × List β)} (h : ∀ p ∈ L, ∀ o ∈ p.2, P o ↔ key p.1 = some x) :
    (L.flatMap Prod.snd).filter P = (L.filter fun p => key p.1 = some x).flatMap Prod.snd := by
  induction L with
  | nil => rfl
  | cons p L ih =>
      have hrest := ih fun q hq => h q (List.mem_cons_of_mem _ hq)
      rw [List.flatMap_cons, List.filter_append, hrest]
      by_cases hp : key p.1 = some x
      · have hall : p.2.filter P = p.2 :=
          List.filter_eq_self.mpr fun o ho => by simpa using (h p List.mem_cons_self o ho).mpr hp
        rw [hall, List.filter_cons_of_pos (by simpa using hp), List.flatMap_cons]
      · have hnone : p.2.filter P = [] :=
          List.filter_eq_nil_iff.mpr fun o ho => by simpa using fun hP => hp ((h p List.mem_cons_self o ho).mp hP)
        rw [hnone, List.filter_cons_of_neg (by simpa using hp), List.nil_append]

/-- Outputs, counted key by key. -/
theorem length_flatMap_keys {α β : Type*} (key : α → Option κ) (ids : Finset κ)
    {L : List (α × List β)} (h : ∀ p ∈ L, ∃ x ∈ ids, key p.1 = some x) :
    (L.flatMap Prod.snd).length = ∑ x ∈ ids, ((L.filter fun p => key p.1 = some x).flatMap Prod.snd).length := by
  induction L with
  | nil => simp
  | cons p L ih =>
      obtain ⟨y, hy, hp⟩ := h p List.mem_cons_self
      have hsplit (x : κ) : (((p :: L).filter fun p => key p.1 = some x).flatMap Prod.snd).length =
          (if y = x then p.2.length else 0) + ((L.filter fun p => key p.1 = some x).flatMap Prod.snd).length := by
        by_cases hx : y = x
        · simp [hp, hx]
        · simp [hp, hx]
      rw [List.flatMap_cons, List.length_append, ih fun q hq => h q (List.mem_cons_of_mem _ hq)]
      simp only [hsplit, Finset.sum_add_distrib, Finset.sum_ite_eq, if_pos hy]

end outputs

end Demux
