import Mathlib.Data.List.TakeWhile
import Mathlib.Tactic.Common

/-!
# Mongoose.Lib.Text

Lines and fields of a text over any alphabet.

`lines` splits a text at a newline, and `readLine` takes one line off its front as
far as a buffer holds it.  `fields` are the maximal runs without a separator, and
`token` takes one off the front.
-/

namespace Text

variable {α : Type}

/-! ## lines -/

/-- A line without its newline, and whether it has one. -/
structure Line (α : Type) where
  content : List α
  terminated : Bool
  deriving DecidableEq, Repr

section lines

variable [DecidableEq α] {newline : α} {c rest : List α} {n : Nat}

/-- The lines of a text; the last has no newline if the text does not end in one. -/
def lines (newline : α) : List α → List (Line α)
  | [] => []
  | a :: text =>
      if a = newline then { content := [], terminated := true } :: lines newline text
      else
        match lines newline text with
        | [] => [{ content := [a], terminated := false }]
        | l :: ls => { content := a :: l.content, terminated := l.terminated } :: ls

/-- A terminated line is the first of its text. -/
theorem lines_terminated (h : newline ∉ c) :
    lines newline (c ++ newline :: rest) = { content := c, terminated := true } :: lines newline rest := by
  induction c with
  | nil => simp [lines]
  | cons a c ih =>
      obtain ⟨ha, hc⟩ := not_or.mp (mt List.mem_cons.mpr h)
      rw [List.cons_append, lines, if_neg (Ne.symm ha), ih hc]

/-- What is left without a newline is the last line. -/
theorem lines_last (h : newline ∉ c) (hne : c ≠ []) :
    lines newline c = [{ content := c, terminated := false }] := by
  induction c with
  | nil => exact absurd rfl hne
  | cons a c ih =>
      obtain ⟨ha, hc⟩ := not_or.mp (mt List.mem_cons.mpr h)
      rw [lines, if_neg (Ne.symm ha)]
      cases c with
      | nil => rfl
      | cons b c => rw [ih hc (by simp)]

/-- A text is empty, one unterminated line, or a terminated line and a text. -/
theorem line_cases (newline : α) (text : List α) :
    text = [] ∨ (text ≠ [] ∧ newline ∉ text) ∨
      ∃ c rest, newline ∉ c ∧ text = c ++ newline :: rest := by
  by_cases hmem : newline ∈ text
  · obtain ⟨c, rest, htext, hc⟩ := List.eq_append_cons_of_mem hmem
    exact .inr (.inr ⟨c, rest, hc, htext⟩)
  · by_cases hne : text = []
    · exact .inl hne
    · exact .inr (.inl ⟨hne, hmem⟩)

/-- Induction over the lines of a text. -/
theorem line_induction (newline : α) {motive : List α → Prop} (nil : motive [])
    (last : ∀ c, c ≠ [] → newline ∉ c → motive c)
    (cons : ∀ c rest, newline ∉ c → motive rest → motive (c ++ newline :: rest)) (text : List α) :
    motive text := by
  induction hlen : text.length using Nat.strongRecOn generalizing text with
  | _ k ih =>
      obtain rfl | ⟨hne, hmem⟩ | ⟨c, rest, hc, rfl⟩ := line_cases newline text
      · exact nil
      · exact last text hne hmem
      · exact cons c rest hc (ih _ (by rw [← hlen]; simp; omega) rest rfl)

/-- The first line of a text and its newline, up to `n` items. -/
def readLine (newline : α) : Nat → List α → List α
  | 0, _ => []
  | _ + 1, [] => []
  | n + 1, a :: text => if a = newline then [a] else a :: readLine newline n text

/-- A line that fits is read with its newline. -/
theorem readLine_terminated (h : newline ∉ c) (hlen : c.length < n) :
    readLine newline n (c ++ newline :: rest) = c ++ [newline] := by
  induction c generalizing n with
  | nil =>
      obtain ⟨n, rfl⟩ := Nat.exists_eq_add_of_lt hlen
      simp [readLine]
  | cons a c ih =>
      obtain ⟨ha, hc⟩ := not_or.mp (mt List.mem_cons.mpr h)
      cases n with
      | zero => simp at hlen
      | succ n =>
          rw [List.cons_append, readLine, if_neg (Ne.symm ha), ih hc (by simpa using hlen)]
          rfl

/-- A line that the buffer does not hold is cut. -/
theorem readLine_cut (h : newline ∉ c) (hlen : n ≤ c.length) :
    readLine newline n (c ++ rest) = c.take n := by
  induction c generalizing n with
  | nil =>
      obtain rfl : n = 0 := by simpa using hlen
      rfl
  | cons a c ih =>
      obtain ⟨ha, hc⟩ := not_or.mp (mt List.mem_cons.mpr h)
      cases n with
      | zero => rfl
      | succ n =>
          rw [List.cons_append, readLine, if_neg (Ne.symm ha), ih hc (by simpa using hlen)]
          rfl

/-- The last line is read as it is. -/
theorem readLine_last (h : newline ∉ c) (hlen : c.length ≤ n) : readLine newline n c = c := by
  induction c generalizing n with
  | nil => cases n <;> rfl
  | cons a c ih =>
      obtain ⟨ha, hc⟩ := not_or.mp (mt List.mem_cons.mpr h)
      cases n with
      | zero => simp at hlen
      | succ n => rw [readLine, if_neg (Ne.symm ha), ih hc (by simpa using hlen)]

/-- Something is read of a text that is not empty. -/
theorem readLine_pos {text : List α} (h : text ≠ []) : 0 < (readLine newline (n + 1) text).length := by
  cases text with
  | nil => exact absurd rfl h
  | cons a text =>
      rw [readLine]
      split <;> simp

end lines

/-! ## fields -/

section fields

variable {blank : α → Bool} {s t : List α}

/-- The maximal runs without a blank. -/
def fields (blank : α → Bool) (s : List α) : List (List α) :=
  (s.splitOnP blank).filter fun w => !w.isEmpty

/-- The first run without a blank, and what is behind the blank that ends it. -/
def token (blank : α → Bool) (s : List α) : Option (List α × List α) :=
  let s := s.dropWhile blank
  if s.isEmpty then none
  else some (s.takeWhile fun a => !blank a, (s.dropWhile fun a => !blank a).drop 1)

/-- An empty text has no fields. -/
theorem fields_nil : fields blank [] = [] := rfl

/-- **A blank splits the fields**, and belongs to none. -/
theorem fields_split {a : α} (ha : blank a = true) (s t : List α) :
    fields blank (s ++ a :: t) = fields blank s ++ fields blank t := by
  rw [fields, List.splitOnP_append_cons s t ha, List.filter_append]
  rfl

/-- A blank in front is no field. -/
theorem fields_blank {a : α} (ha : blank a = true) (s : List α) : fields blank (a :: s) = fields blank s :=
  fields_split ha [] s

/-- Nor are many. -/
theorem fields_dropWhile (s : List α) : fields blank (s.dropWhile blank) = fields blank s := by
  induction s with
  | nil => rfl
  | cons a s ih =>
      cases h : blank a with
      | true => rw [List.dropWhile_cons_of_pos h, ih, fields_blank h]
      | false => rw [List.dropWhile_cons_of_neg (by simp [h])]

/-- A run of other characters is one field. -/
theorem fields_run (ht : ∀ a ∈ t, blank a = false) (hne : t ≠ []) : fields blank t = [t] := by
  rw [fields, List.splitOnP_eq_singleton ht]
  simp [hne]

/-- Where there is no token there are no fields. -/
theorem token_none (h : token blank s = none) : fields blank s = [] := by
  rw [token] at h
  split at h
  · next hnil =>
      rw [← fields_dropWhile, List.isEmpty_iff.mp hnil, fields_nil]
  · cases h

/-- One token is one field. -/
theorem token_some {r : List α} (h : token blank s = some (t, r)) :
    fields blank s = t :: fields blank r := by
  rw [token] at h
  split at h
  · cases h
  next hnil =>
    cases h
    rw [← fields_dropWhile]
    generalize hd : s.dropWhile blank = d at hnil
    have hne : d ≠ [] := fun hd => hnil (by simp [hd])
    have hsplit := List.takeWhile_append_dropWhile (p := fun a => !blank a) (l := d)
    have hrun : ∀ a ∈ d.takeWhile fun a => !blank a, blank a = false := fun a ha => by
      simpa using List.mem_takeWhile_imp ha
    have hpos : (d.takeWhile fun a => !blank a) ≠ [] := by
      cases d with
      | nil => exact absurd rfl hne
      | cons a d =>
          have ha : ¬ blank a = true := by
            have := List.head_dropWhile_not blank (l := s) (by rw [hd]; simp)
            simpa [hd] using this
          simp [ha]
    cases hr : d.dropWhile fun a => !blank a with
    | nil =>
        rw [hr, List.append_nil] at hsplit
        rw [List.drop_nil, fields_nil, hsplit]
        exact fields_run (hsplit ▸ hrun) hne
    | cons a r =>
        have ha : blank a = true := by
          have := List.head_dropWhile_not (fun a => !blank a) (l := d) (by rw [hr]; simp)
          simpa [hr] using this
        conv_lhs => rw [← hsplit, hr, fields_split ha, fields_run hrun hpos]
        rfl

end fields

end Text
