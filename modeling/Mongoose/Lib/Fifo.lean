import Mathlib.Data.List.Induction
import Mathlib.Tactic.Common

/-!
# Mongoose.Lib.Fifo

Bounded queues, the items they accepted, and reports that are due.

`fill` appends items to a queue until it is full.  A `Ledger` keeps the items a queue
accepted and what became of those that left it, and `Balanced` is the conservation law
between the two and the queue.  `Due` says of a log that some cause in it has not been
cleared since, which is what a sticky flag remembers.
-/

namespace Fifo

variable {α ι ε : Type}

/-! ## filling -/

/-- The queue after items are appended until it is full. -/
def fill (capacity : Nat) (q items : List α) : List α := q ++ items.take (capacity - q.length)

/-- The items that found no room. -/
def refused (capacity : Nat) (q items : List α) : List α := items.drop (capacity - q.length)

section fill

variable {capacity : Nat} {q items : List α} {x : α}

/-- Without items the queue stays as it is. -/
@[simp] theorem fill_nil : fill capacity q [] = q := by simp [fill]

/-- Where there are no items none is refused. -/
@[simp] theorem refused_nil : refused capacity q [] = [] := by simp [refused]

/-- A full queue takes nothing. -/
theorem fill_full (h : q.length = capacity) : fill capacity q items = q := by simp [fill, h]

/-- A full queue refuses every item. -/
theorem refused_full (h : q.length = capacity) : refused capacity q items = items := by
  simp [refused, h]

/-- With room left the first item is appended. -/
theorem fill_cons (h : q.length < capacity) :
    fill capacity q (x :: items) = fill capacity (q ++ [x]) items := by
  have hroom : capacity - q.length = capacity - (q.length + 1) + 1 := by omega
  simp [fill, hroom]

/-- With room left the first item is not refused. -/
theorem refused_cons (h : q.length < capacity) :
    refused capacity q (x :: items) = refused capacity (q ++ [x]) items := by
  have hroom : capacity - q.length = capacity - (q.length + 1) + 1 := by omega
  simp [refused, hroom]

/-- A bounded queue stays within its bound. -/
theorem length_fill_le (h : q.length ≤ capacity) : (fill capacity q items).length ≤ capacity := by
  simp only [fill, List.length_append, List.length_take]
  omega

/-- Items are refused only by a queue that is full. -/
theorem length_fill_of_refused (h : q.length ≤ capacity) (hr : refused capacity q items ≠ []) :
    (fill capacity q items).length = capacity := by
  rw [refused, ne_eq, List.drop_eq_nil_iff, Nat.not_le] at hr
  simp only [fill, List.length_append, List.length_take]
  omega

/-- A queue is filled with images as it is with items. -/
theorem map_fill {β : Type} (f : α → β) :
    (fill capacity q items).map f = fill capacity (q.map f) (items.map f) := by
  simp [fill, List.map_take]

/-- The images of the refused items are the refused images. -/
theorem map_refused {β : Type} (f : α → β) :
    (refused capacity q items).map f = refused capacity (q.map f) (items.map f) := by
  simp [refused, List.map_drop]

end fill

/-! ## conservation -/

/-- The items a queue accepted, and those that left it: each with who took it, or with
nobody if it was discarded. -/
structure Ledger (ι α : Type) where
  accepted : List α := []
  gone : List (Option ι × α) := []

namespace Ledger

variable (h : Ledger ι α) {i j : ι} {q items : List α}

def accept (items : List α) : Ledger ι α := { h with accepted := h.accepted ++ items }

def leave (i : Option ι) (items : List α) : Ledger ι α :=
  { h with gone := h.gone ++ items.map fun x => (i, x) }

/-- What one reader took, in order. -/
def handed [DecidableEq ι] (i : ι) : List α :=
  h.gone.filterMap fun g => if g.1 = some i then some g.2 else none

/-- **Conservation**: what was accepted has left in order, or is in the queue. -/
def Balanced (q : List α) : Prop := h.accepted = h.gone.map Prod.snd ++ q

variable {h}

/-- Accepting items appends them to the queue. -/
theorem Balanced.accept (hb : h.Balanced q) : (h.accept items).Balanced (q ++ items) := by
  rw [Balanced, Ledger.accept, hb, List.append_assoc]

/-- Items leave from the front of the queue. -/
theorem Balanced.leave (hb : h.Balanced (items ++ q)) (i : Option ι) : (h.leave i items).Balanced q := by
  rw [Balanced, Ledger.leave, hb]
  simp [Function.comp_def]

section handed

variable [DecidableEq ι]

/-- Accepting hands nothing to a reader. -/
@[simp] theorem handed_accept : (h.accept items).handed i = h.handed i := rfl

/-- What leaves to a reader is handed to it. -/
theorem handed_leave_self : (h.leave (some i) items).handed i = h.handed i ++ items := by
  have hitems : (items.map fun x => (some i, x)).filterMap
      (fun g => if g.1 = some i then some g.2 else none) = items := by
    induction items with
    | nil => rfl
    | cons x xs ih => simp [ih]
  rw [handed, Ledger.leave, List.filterMap_append, hitems]
  rfl

/-- What leaves to one reader is not handed to another. -/
theorem handed_leave_of_ne (hij : i ≠ j) : (h.leave (some j) items).handed i = h.handed i := by
  simp [handed, Ledger.leave, List.filterMap_append, hij.symm]

/-- What is discarded is handed to nobody. -/
@[simp] theorem handed_leave_none : (h.leave none items).handed i = h.handed i := by
  simp [handed, Ledger.leave, List.filterMap_append]

end handed

end Ledger

/-! ## reports that are due -/

/-- A cause stands in the log, and nothing after it clears it. -/
def Due (cause clear : ε → Prop) (es : List ε) : Prop :=
  ∃ a e b, es = a ++ e :: b ∧ cause e ∧ ∀ x ∈ b, ¬ clear x

section due

variable {cause clear : ε → Prop} {es : List ε} {e : ε}

/-- Nothing is due at first. -/
theorem not_due_nil : ¬ Due cause clear ([] : List ε) := by
  rintro ⟨a, e, b, h, -⟩
  simp at h

/-- After an event a report is due for it, or still due if the event did not clear it. -/
theorem due_concat_iff : Due cause clear (es ++ [e]) ↔ cause e ∨ Due cause clear es ∧ ¬ clear e := by
  constructor
  · rintro ⟨a, x, b, h, hx, hb⟩
    obtain rfl | ⟨b, y, rfl⟩ := List.eq_nil_or_concat b
    · obtain ⟨-, hxe⟩ := List.append_inj' h rfl
      cases hxe
      exact .inl hx
    · rw [List.concat_eq_append] at h hb
      rw [← List.cons_append, ← List.append_assoc] at h
      obtain ⟨rfl, hye⟩ := List.append_inj' h rfl
      cases hye
      exact .inr ⟨⟨a, x, b, rfl, hx, fun z hz => hb z (List.mem_append_left _ hz)⟩, hb e (by simp)⟩
  · rintro (he | ⟨⟨a, x, b, rfl, hx, hb⟩, he⟩)
    · exact ⟨es, e, [], rfl, he, by simp⟩
    · refine ⟨a, x, b ++ [e], by simp, hx, fun z hz => ?_⟩
      obtain hz | hz := List.mem_append.mp hz
      · exact hb z hz
      · rw [List.mem_singleton.mp hz]
        exact he

end due

end Fifo
