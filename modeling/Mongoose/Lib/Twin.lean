import Mathlib.Tactic.Common

/-!
# Mongoose.Lib.Twin

Two programs that run side by side.

A `Proc` changes a state and ends with a value or an exception.  `Twin` compares two of
them: the second does on its own state what the first does, but may be stopped by something
that is no concern of the first.  From related states they then end alike, or the second was
stopped so.  There is one rule for each construct, and `Twin.alone` for what only the second
does.
-/

/-- A program with exceptions `ε`, a state `σ` and results `α`, which always ends. -/
abbrev Proc (ε σ α : Type) := ExceptT ε (StateM σ) α

namespace Proc

variable {ε σ τ α β γ δ : Type}

/-- The end of a program from a state. -/
def exec (m : Proc ε σ α) (s : σ) : Except ε α × σ := m s

/-! ## primitives -/

def read : Proc ε σ σ := fun s => (.ok s, s)

def alter (f : σ → σ) : Proc ε σ Unit := fun s => (.ok (), f s)

/-- An operation that touches no state. -/
def of (x : Except ε α) : Proc ε σ α := fun s => (x, s)

section exec

variable (s : σ)

/-- A value ends where it stands. -/
@[simp] theorem exec_pure (a : α) : (pure a : Proc ε σ α).exec s = (.ok a, s) := rfl

/-- So does an exception. -/
@[simp] theorem exec_throw (e : ε) : (throw e : Proc ε σ α).exec s = (.error e, s) := rfl

/-- What is read is the state. -/
@[simp] theorem exec_read : (read : Proc ε σ σ).exec s = (.ok s, s) := rfl

/-- The state is altered. -/
@[simp] theorem exec_alter (f : σ → σ) : (alter f : Proc ε σ Unit).exec s = (.ok (), f s) := rfl

/-- An operation ends as it says, in the same state. -/
@[simp] theorem exec_of (x : Except ε α) : (of x : Proc ε σ α).exec s = (x, s) := rfl

/-- A program goes on from where the one before ended with a value. -/
@[simp] theorem exec_bind (m : Proc ε σ α) (f : α → Proc ε σ β) :
    (m >>= f).exec s = match m.exec s with
      | (.ok a, t) => (f a).exec t
      | (.error e, t) => (.error e, t) := by
  change (match m s with | (x, t) => ExceptT.bindCont f x t) = _
  rw [exec]
  obtain ⟨x, t⟩ := m s
  cases x <;> rfl

end exec

/-! ## twins -/

/-- The ends of two programs, the second of which may have been stopped on its own. -/
inductive Alike (R : σ → τ → Prop) (Own : ε → Prop) (V : α → β → Prop) : Except ε α × σ → Except ε β × τ → Prop
  | stopped {x : Except ε α × σ} {e : ε} {t : τ} : Own e → Alike R Own V x (.error e, t)
  | threw {s : σ} {e : ε} {t : τ} : R s t → Alike R Own V (.error e, s) (.error e, t)
  | ended {a : α} {s : σ} {b : β} {t : τ} : V a b → R s t → Alike R Own V (.ok a, s) (.ok b, t)

/-- From related states two programs end alike. -/
def Twin (R : σ → τ → Prop) (Own : ε → Prop) (V : α → β → Prop) (m : Proc ε σ α) (n : Proc ε τ β) : Prop :=
  ∀ s t, R s t → Alike R Own V (m.exec s) (n.exec t)

namespace Twin

variable {R : σ → τ → Prop} {Own : ε → Prop} {V : α → β → Prop} {W : γ → δ → Prop} {m : Proc ε σ α} {n : Proc ε τ β}

theorem pure {a : α} {b : β} (h : V a b) : Twin R Own V (Pure.pure a) (Pure.pure b) :=
  fun _ _ hst => .ended h hst

theorem throw (e : ε) : Twin R Own V (throw e) (throw e) :=
  fun _ _ hst => .threw hst

/-- The same operation on no state. -/
theorem of (x : Except ε α) : Twin R Own Eq (Proc.of x) (Proc.of x) := by
  cases x with
  | ok a => exact pure rfl
  | error e => exact throw e

/-- One after the other. -/
theorem bind {f : α → Proc ε σ γ} {g : β → Proc ε τ δ} (hm : Twin R Own V m n)
    (hf : ∀ a b, V a b → Twin R Own W (f a) (g b)) : Twin R Own W (m >>= f) (n >>= g) := by
  intro s t hst
  have h := hm s t hst
  rw [exec_bind, exec_bind]
  cases hx : m.exec s
  cases hy : n.exec t
  rw [hx, hy] at h
  cases h with
  | stopped he => exact .stopped he
  | threw hst => exact .threw hst
  | ended hV hst => exact hf _ _ hV _ _ hst

/-- The same operation on no state, and then what it gives to both. -/
theorem of_bind {x : Except ε α} {f : α → Proc ε σ γ} {g : α → Proc ε τ δ}
    (h : ∀ a, Twin R Own W (f a) (g a)) : Twin R Own W (Proc.of x >>= f) (Proc.of x >>= g) :=
  (of x).bind fun a _ hab => hab ▸ h a

/-- The same choice. -/
theorem ite (c : Prop) [Decidable c] {m' : Proc ε σ α} {n' : Proc ε τ β} (h : Twin R Own V m n)
    (h' : Twin R Own V m' n') : Twin R Own V (if c then m else m') (if c then n else n') := by
  split
  · exact h
  · exact h'

end Twin

/-- What a program does that keeps related states so, or is stopped on its own. -/
def Aside (R : σ → τ → Prop) (Own : ε → Prop) (n : Proc ε τ β) : Prop :=
  ∀ s t, R s t → match n.exec t with
    | (.ok _, t') => R s t'
    | (.error e, _) => Own e

namespace Aside

variable {R : σ → τ → Prop} {Own : ε → Prop} {V : α → β → Prop} {n : Proc ε τ β}

/-- Something that only the second does. -/
theorem twin {a : α} (h : Aside R Own n) (hV : ∀ b, V a b) : Twin R Own V (pure a) n := by
  intro s t hst
  have h := h s t hst
  cases hx : n.exec t with
  | mk x t' =>
      rw [hx] at h
      cases x with
      | ok b => exact .ended (hV b) h
      | error e => exact .stopped h

theorem pure (b : β) : Aside R Own (Pure.pure b : Proc ε τ β) := fun _ _ hst => hst

theorem throw {e : ε} (h : Own e) : Aside R Own (throw e : Proc ε τ β) := fun _ _ _ => h

theorem bind {g : β → Proc ε τ γ} (h : Aside R Own n) (hg : ∀ b, Aside R Own (g b)) : Aside R Own (n >>= g) := by
  intro s t hst
  have h := h s t hst
  rw [exec_bind]
  cases hx : n.exec t with
  | mk x t' =>
      rw [hx] at h
      cases x with
      | ok b => exact hg b s t' h
      | error e => exact h

theorem ite (c : Prop) [Decidable c] {n' : Proc ε τ β} (h : Aside R Own n) (h' : Aside R Own n') :
    Aside R Own (if c then n else n') := by
  split
  · exact h
  · exact h'

end Aside

end Proc
