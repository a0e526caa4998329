import Mathlib.Data.List.Induction
import Mathlib.Tactic.Common

/-!
# Mongoose.Lib.Monitor

Monitors of a log.

A monitor reads a log entry by entry, keeps a state, and allows some entries in
each state.  A log is lawful when it allows every entry where it stands.  Both
are built for logs that grow at the end: `lawful_concat_iff` takes one entry and
`Lawful.append` any number of entries the state is indifferent to.
-/

/-- A state, how an entry changes it, and which entries it allows. -/
structure Monitor (ε σ : Type) where
  init : σ
  step : σ → ε → σ
  Allows : σ → ε → Prop

namespace Monitor

variable {ε σ : Type} (M : Monitor ε σ) {log es a b : List ε} {e : ε}

/-- The state after a log. -/
def state (log : List ε) : σ := log.foldl M.step M.init

/-- A monitor begins in its first state. -/
@[simp] theorem state_nil : M.state [] = M.init := rfl

/-- A log is read on from where its beginning led. -/
theorem state_append : M.state (a ++ b) = b.foldl M.step (M.state a) := List.foldl_append

/-- One event is one step of the monitor. -/
@[simp] theorem state_concat : M.state (log ++ [e]) = M.step (M.state log) e := by
  rw [state_append]
  rfl

/-- Every entry is allowed where it stands. -/
def Lawful (log : List ε) : Prop := ∀ a e b, log = a ++ e :: b → M.Allows (M.state a) e

/-- An empty log is lawful. -/
theorem lawful_nil : M.Lawful [] := by
  intro a e b h
  simp at h

/-- A log stays lawful by an event that its state allows. -/
theorem lawful_concat_iff : M.Lawful (log ++ [e]) ↔ M.Lawful log ∧ M.Allows (M.state log) e := by
  constructor
  · intro h
    refine ⟨fun a x b hlog => h a x (b ++ [e]) ?_, h log e [] rfl⟩
    rw [hlog, List.append_assoc, List.cons_append]
  · rintro ⟨h, he⟩ a x b hlog
    obtain rfl | ⟨b, y, rfl⟩ := List.eq_nil_or_concat b
    · obtain ⟨rfl, hx⟩ := List.append_inj' hlog rfl
      cases hx
      exact he
    · rw [List.concat_eq_append, ← List.cons_append, ← List.append_assoc] at hlog
      exact h a x b (List.append_inj' hlog rfl).1

/-- Entries that are allowed in the state and leave it are indifferent. -/
def Indifferent (s : σ) (e : ε) : Prop := M.step s e = s ∧ M.Allows s e

variable {M}

/-- Indifferent events leave the state as it is. -/
theorem state_append_of_indifferent (h : ∀ e ∈ es, M.Indifferent (M.state log) e) :
    M.state (log ++ es) = M.state log := by
  induction es using List.reverseRecOn with
  | nil => simp
  | append_singleton es e ih =>
      have hes := ih fun x hx => h x (List.mem_append_left _ hx)
      rw [← List.append_assoc, state_concat, hes]
      exact (h e (List.mem_append_right _ List.mem_cons_self)).1

/-- Indifferent entries keep a log lawful. -/
theorem Lawful.append (hlog : M.Lawful log) (h : ∀ e ∈ es, M.Indifferent (M.state log) e) :
    M.Lawful (log ++ es) := by
  induction es using List.reverseRecOn with
  | nil => simpa using hlog
  | append_singleton es e ih =>
      have hes : ∀ x ∈ es, M.Indifferent (M.state log) x := fun x hx => h x (List.mem_append_left _ hx)
      rw [← List.append_assoc, lawful_concat_iff, state_append_of_indifferent hes]
      exact ⟨ih hes, (h e (List.mem_append_right _ List.mem_cons_self)).2⟩

/-- A property of the state that every entry of a stretch keeps. -/
theorem state_append_induction {P : σ → Prop} (h : P (M.state a))
    (hstep : ∀ s, ∀ e ∈ b, P s → P (M.step s e)) : P (M.state (a ++ b)) := by
  induction b using List.reverseRecOn with
  | nil => simpa using h
  | append_singleton b e ih =>
      rw [← List.append_assoc, state_concat]
      exact hstep _ e (List.mem_append_right _ List.mem_cons_self)
        (ih fun s x hx => hstep s x (List.mem_append_left _ hx))

end Monitor
