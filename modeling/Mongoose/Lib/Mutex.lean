import Mathlib.Logic.Function.Basic
import Mathlib.Tactic.Common

/-!
# Mongoose.Lib.Mutex

A mutex and the section it guards.

Threads are a partial function from their names to where they stand, and a mutex is the
name of the thread that holds it.  `Guards` says that the holder is inside the section and
that no other thread is; there is one lemma for each way a thread moves.
-/

namespace Mutex

variable {ι τ : Type*} {Inside : τ → Prop} {threads : ι → Option τ} {m : Option ι} {i j : ι} {s t : τ}

/-- The thread a mutex names is inside the section, and no other is. -/
def Guards (Inside : τ → Prop) (threads : ι → Option τ) (m : Option ι) : Prop :=
  ∀ i, m = some i ↔ ∃ t, threads i = some t ∧ Inside t

/-- At most one thread is inside. -/
theorem Guards.unique (h : Guards Inside threads m) (hi : threads i = some s) (hs : Inside s)
    (hj : threads j = some t) (ht : Inside t) : i = j :=
  Option.some.inj (((h i).mpr ⟨s, hi, hs⟩).symm.trans ((h j).mpr ⟨t, hj, ht⟩))

/-- Who is inside holds the mutex. -/
theorem Guards.holds (h : Guards Inside threads m) (hi : threads i = some s) (hs : Inside s) :
    m = some i :=
  (h i).mpr ⟨s, hi, hs⟩

/-- A free mutex and threads that are all outside. -/
theorem guards_none (h : ∀ i t, threads i = some t → ¬ Inside t) : Guards Inside threads none := by
  intro i
  constructor
  · intro hi
    cases hi
  · rintro ⟨t, hi, ht⟩
    exact absurd ht (h i t hi)

variable [DecidableEq ι]

/-- A thread takes the free mutex and enters. -/
theorem Guards.acquire (h : Guards Inside threads none) (ht : Inside t) :
    Guards Inside (Function.update threads i (some t)) (some i) := by
  intro j
  by_cases hj : j = i
  · subst hj
    simp [ht]
  · rw [Function.update_of_ne hj, ← h j]
    simp [Ne.symm hj]

/-- The holder leaves and gives the mutex back. -/
theorem Guards.release (h : Guards Inside threads (some i)) (ht : ¬ Inside t) :
    Guards Inside (Function.update threads i (some t)) none := by
  intro j
  by_cases hj : j = i
  · subst hj
    simp [ht]
  · rw [Function.update_of_ne hj, ← h j]
    simp [Ne.symm hj]

/-- A thread goes on where it was, inside or outside. -/
theorem Guards.keep (h : Guards Inside threads m) (hi : threads i = some s) (hst : Inside t ↔ Inside s) :
    Guards Inside (Function.update threads i (some t)) m := by
  intro j
  rw [h j]
  by_cases hj : j = i
  · subst hj
    simp [hi, hst]
  · rw [Function.update_of_ne hj]

/-- A thread comes in outside the section. -/
theorem Guards.enter (h : Guards Inside threads m) (hi : threads i = none) (ht : ¬ Inside t) :
    Guards Inside (Function.update threads i (some t)) m := by
  intro j
  rw [h j]
  by_cases hj : j = i
  · subst hj
    simp [hi, ht]
  · rw [Function.update_of_ne hj]

end Mutex
