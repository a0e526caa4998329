import Mathlib.Data.List.Nodup
import Mathlib.Tactic.Common

/-!
# Slots

A list used as a small table: at most one entry a key, looked up by scanning,
erased and replaced in place, new entries at the back.  The lemmas say what
each operation does to the entry of every key, so that users of a table never
look at positions.
-/

namespace Slots

variable {κ α : Type*} [DecidableEq κ] (key : α → κ)

/-- The keys in use, in table order. -/
def keys (l : List α) : List κ := l.map key

/-- The entry of `k`. -/
def find (k : κ) (l : List α) : Option α := l.find? fun a => key a = k

/-- Erase the entry of `k`, if there is one. -/
def drop (k : κ) (l : List α) : List α := l.eraseP fun a => key a = k

/-- Overwrite the entry that has the key of `a`. -/
def put (a : α) : List α → List α
  | [] => []
  | b :: l => if key b = key a then a :: l else b :: put a l

variable {key}

/-- Nothing is found of a key that is not in use. -/
theorem find_eq_none {k : κ} {l : List α} : find key k l = none ↔ k ∉ keys key l := by
  simp [find, keys]

/-- What is found has the key that was asked for. -/
theorem key_of_find {k : κ} {a : α} {l : List α} (h : find key k l = some a) : key a = k := by
  simpa using List.find?_some h

/-- What is found is in the table. -/
theorem mem_of_find {k : κ} {a : α} {l : List α} (h : find key k l = some a) : a ∈ l :=
  List.mem_of_find?_eq_some h

/-- A lookup looks at the first entry first. -/
theorem find_cons (k : κ) (a : α) (l : List α) :
    find key k (a :: l) = if key a = k then some a else find key k l := by
  by_cases h : key a = k <;> simp [find, h]

/-- A lookup in two tables behind each other takes the first that has the key. -/
theorem find_append (k : κ) (l m : List α) :
    find key k (l ++ m) = (find key k l).or (find key k m) := by
  simp [find]

/-- With distinct keys, membership is lookup. -/
theorem find_of_mem {a : α} {l : List α} (hn : (keys key l).Nodup) (h : a ∈ l) :
    find key (key a) l = some a := by
  induction l with
  | nil => cases h
  | cons b l ih =>
      obtain ⟨hb, hl⟩ := List.nodup_cons.mp hn
      rw [find_cons]
      rcases List.mem_cons.mp h with rfl | hm
      · rw [if_pos rfl]
      · have hne : key b ≠ key a := fun he => hb (he ▸ List.mem_map_of_mem hm)
        rw [if_neg hne, ih hl hm]

/-! ## erasing -/

/-- Erasing a key leaves every other entry to be found. -/
theorem find_drop_of_ne {k k' : κ} (h : k' ≠ k) (l : List α) :
    find key k' (drop key k l) = find key k' l := by
  induction l with
  | nil => rfl
  | cons a l ih =>
      unfold drop at ih ⊢
      by_cases ha : key a = k
      · have hk : key a ≠ k' := fun he => h (he.symm.trans ha)
        rw [List.eraseP_cons_of_pos (by simpa using ha), find_cons, if_neg hk]
      · rw [List.eraseP_cons_of_neg (by simpa using ha), find_cons, find_cons, ih]

/-- An erased key is gone, when no key is twice in the table. -/
theorem find_drop_self {k : κ} {l : List α} (hn : (keys key l).Nodup) :
    find key k (drop key k l) = none := by
  induction l with
  | nil => rfl
  | cons a l ih =>
      obtain ⟨ha, hl⟩ := List.nodup_cons.mp hn
      unfold drop at ih ⊢
      by_cases hk : key a = k
      · rw [List.eraseP_cons_of_pos (by simpa using hk), find_eq_none, ← hk]
        exact ha
      · rw [List.eraseP_cons_of_neg (by simpa using hk), find_cons, if_neg hk, ih hl]

/-- Erasing a key that is not in use does nothing. -/
theorem drop_of_find_none {k : κ} {l : List α} (h : find key k l = none) : drop key k l = l := by
  apply List.eraseP_of_forall_not
  intro a ha hk
  exact find_eq_none.mp h (List.mem_map.mpr ⟨a, ha, by simpa using hk⟩)

/-- Erasing keeps the keys in their order. -/
theorem keys_drop_sublist (k : κ) (l : List α) :
    (keys key (drop key k l)).Sublist (keys key l) :=
  (List.eraseP_sublist).map key

/-- Erasing keeps the keys distinct. -/
theorem nodup_drop {k : κ} {l : List α} (hn : (keys key l).Nodup) :
    (keys key (drop key k l)).Nodup :=
  hn.sublist (keys_drop_sublist k l)

/-- Erasing an entry that is there leaves one entry less. -/
theorem length_drop_of_find {k : κ} {a : α} {l : List α} (h : find key k l = some a) :
    (drop key k l).length + 1 = l.length := by
  have hpos := List.length_pos_of_mem (mem_of_find h)
  rw [drop, List.length_eraseP_of_mem (mem_of_find h) (by simpa using key_of_find h)]
  omega

/-- Erasing brings no entry in. -/
theorem mem_of_mem_drop {k : κ} {a : α} {l : List α} (h : a ∈ drop key k l) : a ∈ l :=
  List.mem_of_mem_eraseP h

/-! ## overwriting -/

/-- Overwriting keeps the keys, and their order. -/
@[simp] theorem keys_put (a : α) (l : List α) : keys key (put key a l) = keys key l := by
  induction l with
  | nil => rfl
  | cons b l ih =>
      rw [put]
      by_cases h : key b = key a
      · rw [if_pos h]; simp [keys, h]
      · rw [if_neg h]; simpa [keys] using ih

/-- Overwriting keeps the number of entries. -/
@[simp] theorem length_put (a : α) (l : List α) : (put key a l).length = l.length := by
  simpa only [keys, List.length_map] using congrArg List.length (@keys_put _ _ _ key a l)

/-- An entry that was overwritten is found as it is now. -/
theorem find_put_self {a b : α} {l : List α} (h : find key (key a) l = some b) :
    find key (key a) (put key a l) = some a := by
  induction l with
  | nil => cases h
  | cons c l ih =>
      rw [put]
      by_cases hc : key c = key a
      · rw [if_pos hc, find_cons, if_pos rfl]
      · rw [find_cons, if_neg hc] at h
        rw [if_neg hc, find_cons, if_neg hc, ih h]

/-- Overwriting leaves the entries of other keys alone. -/
theorem find_put_of_ne {k : κ} {a : α} (h : k ≠ key a) (l : List α) :
    find key k (put key a l) = find key k l := by
  induction l with
  | nil => rfl
  | cons b l ih =>
      rw [put]
      by_cases hb : key b = key a
      · rw [if_pos hb, find_cons, find_cons, if_neg (fun he => h he.symm),
          if_neg (fun he => h (he.symm.trans hb))]
      · rw [if_neg hb, find_cons, find_cons, ih]

/-- An entry after overwriting is the new one or was there before. -/
theorem mem_put {a b : α} {l : List α} (h : b ∈ put key a l) : b = a ∨ b ∈ l := by
  induction l with
  | nil => cases h
  | cons c l ih =>
      rw [put] at h
      by_cases hc : key c = key a
      · rw [if_pos hc, List.mem_cons] at h
        exact h.imp_right (List.mem_cons_of_mem c)
      · rw [if_neg hc, List.mem_cons] at h
        rcases h with rfl | hm
        · exact .inr List.mem_cons_self
        · exact (ih hm).imp_right (List.mem_cons_of_mem c)

end Slots
