import Mathlib.Logic.Function.Basic
import Mathlib.Tactic.Common

/-!
# Mongoose.Lib.Assign

Keys that are assigned one after the other.

A store is a function from keys to values, and an assignment changes one of them.  After any
number of assignments a key holds what it was assigned last, or what it held at first.
-/

namespace Assign

variable {κ α : Type} [DecidableEq κ] {a : κ → α} {us vs : List (κ × α)} {k : κ}

/-- Assignments made one after the other. -/
def apply (a : κ → α) : List (κ × α) → κ → α
  | [] => a
  | u :: us => apply (Function.update a u.1 u.2) us

/-- What a key was assigned last. -/
def last : List (κ × α) → κ → Option α
  | [], _ => none
  | u :: us, k => (last us k).or (if k = u.1 then some u.2 else none)

/-- No update changes nothing. -/
@[simp] theorem apply_nil : apply a [] = a := rfl

/-- No update is the last of a key. -/
@[simp] theorem last_nil : last ([] : List (κ × α)) k = none := rfl

/-- An update is the last of its key if no later one is. -/
theorem last_cons (u : κ × α) : last (u :: us) k = (last us k).or (if k = u.1 then some u.2 else none) := rfl

/-- Updates apply one after the other. -/
theorem apply_append : apply a (us ++ vs) = apply (apply a us) vs := by
  induction us generalizing a with
  | nil => rfl
  | cons u us ih => exact ih

/-- The last of a key is among the later updates if they have one. -/
theorem last_append : last (us ++ vs) k = (last vs k).or (last us k) := by
  induction us with
  | nil => simp
  | cons u us ih => rw [List.cons_append, last_cons, last_cons, ih, Option.or_assoc]

/-- **A key holds what it was assigned last.** -/
theorem apply_eq : apply a us k = (last us k).getD (a k) := by
  induction us generalizing a with
  | nil => rfl
  | cons u us ih =>
      rw [apply, ih, last_cons]
      cases last us k with
      | some v => rfl
      | none =>
          by_cases hk : k = u.1
          · simp [hk]
          · simp [hk]

/-- What it was assigned last, it was assigned. -/
theorem mem_of_last {v : α} (h : last us k = some v) : (k, v) ∈ us := by
  induction us with
  | nil => cases h
  | cons u us ih =>
      rw [last_cons] at h
      cases hlast : last us k with
      | some w =>
          rw [hlast] at h
          cases h
          exact List.mem_cons_of_mem _ (ih hlast)
      | none =>
          rw [hlast, Option.none_or] at h
          obtain ⟨rfl, hv⟩ := Option.ite_none_right_eq_some.mp h
          cases hv
          exact List.mem_cons_self

end Assign
