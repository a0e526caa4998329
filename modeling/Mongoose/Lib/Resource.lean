import Mongoose.Lib.Monitor
import Mathlib.Logic.Function.Basic

/-!
# Mongoose.Lib.Resource

Resources that are acquired, used and released.

`owned` is the monitor of a log of such operations: it allows a use or a release only of
what is held, and an acquisition only of what is not.  `nested` asks as well that what a
resource needs is held before it and for as long.  `Stacked` is the state of a log in which
the latest resource always goes first.
-/

namespace Resource

variable {ρ : Type} [DecidableEq ρ]

inductive Op (ρ : Type)
  | acquire (r : ρ)
  | use (r : ρ)
  | release (r : ρ)
  deriving DecidableEq, Repr

/-- Which resources are held, from those held at first. -/
def owned (init : ρ → Bool) : Monitor (Op ρ) (ρ → Bool) where
  init := init
  step held
    | .acquire r => Function.update held r true
    | .use _ => held
    | .release r => Function.update held r false
  Allows held
    | .acquire r => held r = false
    | .use r | .release r => held r = true

/-- Resources that need others to be held when they are acquired, and that pin others while they are held. -/
def nested (needs pins : ρ → ρ → Prop) (init : ρ → Bool) : Monitor (Op ρ) (ρ → Bool) where
  init := init
  step := (owned init).step
  Allows held op := (owned init).Allows held op ∧
    match op with
    | .acquire r => ∀ q, needs r q → held q = true
    | .use _ => True
    | .release r => ∀ q, pins q r → held q = false

variable {log : List (Op ρ)} {r : ρ}

/-! ## a stack -/

/-- A log that was lawful, and what it leaves held: a stack, the latest on top. -/
structure Stacked (needs : ρ → ρ → Prop) (log : List (Op ρ)) (held : List ρ) : Prop where
  lawful : (nested needs needs fun _ => false).Lawful log
  state : (nested needs needs fun _ => false).state log = fun r => decide (r ∈ held)
  nodup : held.Nodup

section stack

variable {needs : ρ → ρ → Prop} {held : List ρ}

theorem stacked_nil : Stacked needs [] [] := ⟨Monitor.lawful_nil _, by funext r; simp [nested], List.nodup_nil⟩

/-- What is on the stack can be used. -/
theorem Stacked.use (h : Stacked needs log held) (hr : r ∈ held) : Stacked needs (log ++ [.use r]) held where
  lawful := by
    rw [Monitor.lawful_concat_iff, h.state]
    exact ⟨h.lawful, by simpa [owned] using hr, trivial⟩
  state := by
    rw [Monitor.state_concat, h.state]
    rfl
  nodup := h.nodup

/-- What is not on the stack goes on top, when all that it needs is there. -/
theorem Stacked.push (h : Stacked needs log held) (hr : r ∉ held) (hneeds : ∀ q, needs r q → q ∈ held) :
    Stacked needs (log ++ [.acquire r]) (r :: held) where
  lawful := by
    rw [Monitor.lawful_concat_iff, h.state]
    exact ⟨h.lawful, by simpa [owned] using hr, fun q hq => by simpa using hneeds q hq⟩
  state := by
    rw [Monitor.state_concat, h.state]
    funext q
    by_cases hq : q = r <;> simp [nested, owned, hq]
  nodup := List.nodup_cons.mpr ⟨hr, h.nodup⟩

/-- What is on top goes, when nothing below it needs it. -/
theorem Stacked.pop (h : Stacked needs log (r :: held)) (hneeds : ∀ q ∈ held, ¬ needs q r) (hself : ¬ needs r r) :
    Stacked needs (log ++ [.release r]) held where
  lawful := by
    rw [Monitor.lawful_concat_iff, h.state]
    refine ⟨h.lawful, by simp [owned], fun q hq => ?_⟩
    have hne : q ≠ r := fun heq => hself (heq ▸ hq)
    have hmem : q ∉ held := fun hmem => hneeds q hmem hq
    simp [hne, hmem]
  state := by
    rw [Monitor.state_concat, h.state]
    funext q
    by_cases hq : q = r
    · simp [nested, owned, hq, (List.nodup_cons.mp h.nodup).1]
    · simp [nested, owned, hq]
  nodup := (List.nodup_cons.mp h.nodup).2

/-- What is not on the stack is not held. -/
theorem Stacked.empty (h : Stacked needs log []) (r : ρ) : (nested needs needs fun _ => false).state log r = false := by
  simp [h.state]

end stack

end Resource
