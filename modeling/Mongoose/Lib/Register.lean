import Mathlib.Data.List.Basic
import Mathlib.Data.List.Nodup
import Mathlib.Tactic.Common

/-!
# Mongoose.Lib.Register

Numbered entries that are settled in order, or given up.

A `Register` numbers its entries as they come.  An entry is pending until it is settled,
which gives up the pending ones before it, or until it is given up by itself: as the
oldest, as the newest, or with all others.  `Sound` says that the settled entries and the
pending ones follow each other in the order they came in.

An entry that is withdrawn again leaves no trace, unless the oldest went to make room for
it: `evict_enter_retract` and `evict_enter_ne` say exactly when that shows.
-/

variable {α β : Type}

/-- The first item with a property, and the items behind it. -/
def pick (p : β → Bool) : List β → Option (β × List β)
  | [] => none
  | x :: q => if p x then some (x, q) else pick p q

/-- Nothing is picked where no item has the property. -/
theorem pick_eq_none {p : β → Bool} {q : List β} : pick p q = none ↔ ∀ x ∈ q, p x = false := by
  induction q with
  | nil => simp [pick]
  | cons x q ih =>
      rw [pick]
      cases hx : p x <;> simp [hx, ih]

/-- What is skipped does not have the property. -/
theorem pick_eq_some {p : β → Bool} {x : β} {q rest : List β} :
    pick p q = some (x, rest) ↔ ∃ skipped, q = skipped ++ x :: rest ∧ p x = true ∧ ∀ y ∈ skipped, p y = false := by
  induction q with
  | nil => simp [pick]
  | cons y q ih =>
      rw [pick]
      cases hy : p y with
      | true =>
          rw [if_pos rfl]
          constructor
          · intro h
            cases h
            exact ⟨[], rfl, hy, by simp⟩
          · rintro ⟨skipped, hq, hx, hskipped⟩
            cases skipped with
            | nil =>
                cases hq
                rfl
            | cons z skipped =>
                cases hq
                have hz := hskipped y List.mem_cons_self
                rw [hy] at hz
                cases hz
      | false =>
          rw [if_neg (by simp), ih]
          constructor
          · rintro ⟨skipped, rfl, hx, hskipped⟩
            exact ⟨y :: skipped, rfl, hx, by simpa [hy] using hskipped⟩
          · rintro ⟨skipped, hq, hx, hskipped⟩
            cases skipped with
            | nil =>
                cases hq
                rw [hx] at hy
                cases hy
            | cons z skipped =>
                cases hq
                exact ⟨skipped, rfl, hx, fun w hw => hskipped w (List.mem_cons_of_mem _ hw)⟩

/-- Picking among images picks the image. -/
theorem pick_map (f : α → β) (p : β → Bool) (q : List α) :
    pick p (q.map f) = (pick (fun x => p (f x)) q).map fun r => (f r.1, r.2.map f) := by
  induction q with
  | nil => rfl
  | cons x q ih =>
      rw [List.map_cons, pick, pick, ih]
      split <;> rfl

/-- `pick` by way of a search and a cut. -/
theorem pick_eq_find? (p : β → Bool) (q : List β) :
    pick p q = (q.find? p).map fun x => (x, (q.dropWhile fun y => !p y).tail) := by
  induction q with
  | nil => rfl
  | cons x q ih =>
      rw [pick]
      cases hx : p x <;> simp [hx, ih]

/-- What properties pick, each from behind what the one before it picked. -/
def picks : List (β → Bool) → List β → List β
  | [], _ => []
  | p :: ps, q =>
      match pick p q with
      | none => picks ps q
      | some (x, rest) => x :: picks ps rest

/-- Picking among images picks the images. -/
theorem picks_map (f : α → β) (ps : List (β → Bool)) (q : List α) :
    picks ps (q.map f) = (picks (ps.map fun p x => p (f x)) q).map f := by
  induction ps generalizing q with
  | nil => rfl
  | cons p ps ih =>
      rw [picks, List.map_cons, picks, pick_map]
      cases pick (fun x => p (f x)) q with
      | none => exact ih q
      | some r => exact congrArg _ (ih r.2)

/-! ## registers -/

/-- The entries so far, with those that are pending and those that were settled. -/
structure Register (α : Type) where
  entries : List α := []
  pending : List (α × Nat) := []
  settled : List (α × Nat) := []

namespace Register

def enter (g : Register α) (x : α) : Register α :=
  { g with entries := g.entries ++ [x], pending := g.pending ++ [(x, g.entries.length)] }

/-- The oldest is given up. -/
def evict (g : Register α) : Register α := { g with pending := g.pending.tail }

/-- The newest is given up. -/
def retract (g : Register α) : Register α := { g with pending := g.pending.dropLast }

def clear (g : Register α) : Register α := { g with pending := [] }

/-- All but the newest are given up. -/
def keep (g : Register α) (n : Nat) : Register α :=
  { g with pending := g.pending.drop (g.pending.length - n) }

/-- The first pending entry with a property is settled, and those before it are given up. -/
def settle (g : Register α) (p : α → Bool) : Register α :=
  match pick (fun e => p e.1) g.pending with
  | none => g
  | some (e, rest) => { g with pending := rest, settled := g.settled ++ [e] }

def settles (g : Register α) (ps : List (α → Bool)) : Register α := ps.foldl settle g

/-- An entry is no longer pending, if it was. -/
def withdraw (g : Register α) (n : Nat) : Register α :=
  { g with pending := g.pending.filter fun e => e.2 ≠ n }

section settle

variable {g : Register α} {p : α → Bool} {ps : List (α → Bool)}

/-- Properties settle one after the other. -/
theorem settles_append (g : Register α) (ps qs : List (α → Bool)) :
    g.settles (ps ++ qs) = (g.settles ps).settles qs := List.foldl_append

/-- A property settles the first pending entry that has it, or none. -/
theorem settle_cases (g : Register α) (p : α → Bool) :
    (g.settle p = g ∧ ∀ e ∈ g.pending, p e.1 = false) ∨
      ∃ skipped e rest, g.pending = skipped ++ e :: rest ∧ p e.1 = true ∧ (∀ x ∈ skipped, p x.1 = false) ∧
        g.settle p = { g with pending := rest, settled := g.settled ++ [e] } := by
  rw [settle]
  cases h : pick (fun e => p e.1) g.pending with
  | none => exact .inl ⟨rfl, pick_eq_none.mp h⟩
  | some r =>
      obtain ⟨skipped, hq, hp, hskipped⟩ := pick_eq_some.mp h
      exact .inr ⟨skipped, r.1, r.2, hq, hp, hskipped, rfl⟩

/-- Settling enters nothing. -/
@[simp] theorem entries_settle : (g.settle p).entries = g.entries := by
  obtain ⟨h, -⟩ | ⟨_, _, _, -, -, -, h⟩ := settle_cases g p <;> rw [h]

/-- What is settled is the first pending entry with the property. -/
theorem settled_settle (g : Register α) (p : α → Bool) :
    (g.settle p).settled = g.settled ++ (g.pending.find? fun e => p e.1).toList := by
  rw [settle, pick_eq_find?]
  cases g.pending.find? fun e => p e.1 <;> simp

/-- What is settled by many properties is what they pick. -/
theorem settled_settles_eq (g : Register α) (ps : List (α → Bool)) :
    (g.settles ps).settled = g.settled ++ picks (ps.map fun p e => p e.1) g.pending := by
  induction ps generalizing g with
  | nil => exact (List.append_nil _).symm
  | cons p ps ih =>
      rw [settles, List.foldl_cons, List.map_cons, picks]
      refine (ih (g.settle p)).trans ?_
      rw [settle]
      cases pick (fun e => p e.1) g.pending with
      | none => rfl
      | some r => simp

/-- Settling takes pending entries from the front. -/
theorem pending_settle (g : Register α) (p : α → Bool) : (g.settle p).pending <:+ g.pending := by
  obtain ⟨h, -⟩ | ⟨skipped, e, rest, hq, -, -, h⟩ := settle_cases g p
  · simp [h]
  · rw [h, hq]
    exact ⟨skipped ++ [e], by simp⟩

/-- So does settling by many properties. -/
theorem pending_settles (g : Register α) (ps : List (α → Bool)) : (g.settles ps).pending <:+ g.pending := by
  induction ps generalizing g with
  | nil => exact List.suffix_rfl
  | cons p ps ih => exact (ih (g.settle p)).trans (pending_settle g p)

/-- Only pending entries are settled. -/
theorem mem_settled_settles {e : α × Nat} (h : e ∈ (g.settles ps).settled) :
    e ∈ g.settled ∨ e ∈ g.pending := by
  induction ps generalizing g with
  | nil => exact .inl h
  | cons p ps ih =>
      obtain h | h := ih h
      · obtain ⟨hs, -⟩ | ⟨skipped, x, rest, hq, -, -, hs⟩ := settle_cases g p
        · rw [hs] at h
          exact .inl h
        · rw [hs] at h
          obtain h | h := List.mem_append.mp h
          · exact .inl h
          · rw [hq, List.mem_singleton.mp h]
            exact .inr (by simp)
      · exact .inr ((pending_settle g p).mem h)

/-- Settled entries stay settled. -/
theorem settled_settles (g : Register α) (ps : List (α → Bool)) :
    g.settled <+: (g.settles ps).settled := by
  induction ps generalizing g with
  | nil => exact List.prefix_rfl
  | cons p ps ih =>
      refine List.IsPrefix.trans ?_ (ih (g.settle p))
      obtain ⟨h, -⟩ | ⟨_, e, _, -, -, -, h⟩ := settle_cases g p
      · simp [h]
      · rw [h]
        exact List.prefix_append _ _

end settle

/-! ## soundness -/

/-- Settled entries come before pending ones, each in the order they were entered. -/
def Sound (g : Register α) : Prop := (g.settled ++ g.pending).Sublist g.entries.zipIdx

section sound

variable {g : Register α}

/-- A register begins sound. -/
theorem sound_empty : Sound ({} : Register α) := List.Sublist.refl _

/-- Entering keeps it sound. -/
theorem Sound.enter (h : g.Sound) (x : α) : (g.enter x).Sound := by
  rw [Sound, Register.enter, List.zipIdx_append, ← List.append_assoc]
  exact h.append (by simp)

/-- Giving up any of the pending entries keeps it sound. -/
theorem Sound.of_sublist (h : g.Sound) {q : List (α × Nat)} (hq : q.Sublist g.pending) :
    Sound { g with pending := q } :=
  (hq.append_left g.settled).trans h

/-- Settling keeps it sound. -/
theorem Sound.settle (h : g.Sound) (p : α → Bool) : (g.settle p).Sound := by
  obtain ⟨hs, -⟩ | ⟨skipped, e, rest, hq, -, -, hs⟩ := settle_cases g p
  · rwa [hs]
  · rw [hs, Sound, List.append_assoc]
    rw [Sound, hq] at h
    exact ((List.sublist_append_right skipped _).append_left g.settled).trans h

/-- The numbers of settled and pending entries increase. -/
theorem Sound.ordered (h : g.Sound) : ((g.settled ++ g.pending).map Prod.snd).Pairwise (· < ·) := by
  have hmap := h.map Prod.snd
  rw [List.zipIdx_map_snd] at hmap
  exact List.Pairwise.sublist hmap List.pairwise_lt_range'

/-- Settled entries were entered, in that order. -/
theorem Sound.settled_sublist (h : g.Sound) : (g.settled.map Prod.fst).Sublist g.entries := by
  have hmap := ((List.sublist_append_left g.settled g.pending).trans h).map Prod.fst
  rwa [List.zipIdx_map_fst] at hmap

/-- So were pending ones. -/
theorem Sound.pending_sublist (h : g.Sound) : (g.pending.map Prod.fst).Sublist g.entries := by
  have hmap := ((List.sublist_append_right g.settled g.pending).trans h).map Prod.fst
  rwa [List.zipIdx_map_fst] at hmap

/-- No more entries of a kind are settled than were entered. -/
theorem Sound.countP_settled_le (h : g.Sound) (p : α → Bool) :
    g.settled.countP (fun e => p e.1) ≤ g.entries.countP p := by
  have hle := h.settled_sublist.countP_le (p := p)
  rwa [List.countP_map] at hle

/-- Pending entries were entered before the next one will be. -/
theorem Sound.lt_length (h : g.Sound) {e : α × Nat} (he : e ∈ g.settled ++ g.pending) :
    e.2 < g.entries.length := by
  have hmem := h.mem he
  have := List.snd_lt_of_mem_zipIdx hmem
  simpa using this

end sound

/-! ## withdrawing an entry -/

/-- The entry that the first of some properties to be had by any picks. -/
def named (ps : List (α → Bool)) (q : List (α × Nat)) : Option (α × Nat) :=
  ps.findSome? fun p => q.find? fun e => p e.1

section withdraw

variable {g : Register α} {x : α} {o : α × Nat} {q : List (α × Nat)} {ps : List (α → Bool)}

/-- Settling by many properties enters nothing. -/
theorem entries_settles (g : Register α) (ps : List (α → Bool)) : (g.settles ps).entries = g.entries := by
  induction ps generalizing g with
  | nil => rfl
  | cons p ps ih => exact (ih (g.settle p)).trans entries_settle

/-- Giving up the newest withdraws the entry at the end, or nothing once nothing is pending. -/
theorem retract_eq_withdraw {n : Nat} (hq : g.pending <:+ q ++ [(x, n)]) (hlt : ∀ e ∈ q, e.2 < n) :
    g.retract = g.withdraw n := by
  have hpending : g.pending.dropLast = g.pending.filter fun e => e.2 ≠ n := by
    obtain hnil | ⟨r, hr, hrq⟩ := List.suffix_concat_iff.mp hq
    · rw [hnil]
      rfl
    · have hkeep : ∀ e ∈ r, decide (e.2 ≠ n) = true := fun e he =>
        decide_eq_true (Nat.ne_of_lt (hlt e (hrq.mem he)))
      rw [hr, List.dropLast_concat, List.filter_append, List.filter_eq_self.mpr hkeep]
      simp
  rw [retract, withdraw, hpending]

/-- **An entry that is entered and given up again is as if it had only been withdrawn**,
whatever is settled between. -/
theorem enter_retract (h : g.Sound) (x : α) (ps : List (α → Bool)) :
    ((g.enter x).settles ps).retract = ((g.enter x).settles ps).withdraw g.entries.length :=
  retract_eq_withdraw (pending_settles (g.enter x) ps) fun _ he => h.lt_length (List.mem_append_right _ he)

/-- Nothing is pending but the entry that is withdrawn, once all before it is settled or
given up. -/
theorem pending_withdraw_eq_nil_iff (h : g.Sound) (x : α) (ps : List (α → Bool)) :
    (((g.enter x).settles ps).withdraw g.entries.length).pending = [] ↔
      ∀ e ∈ g.pending, e ∉ ((g.enter x).settles ps).pending := by
  rw [withdraw, List.filter_eq_nil_iff]
  constructor
  · intro hnone e he hmem
    refine hnone e hmem (decide_eq_true ?_)
    exact Nat.ne_of_lt (h.lt_length (List.mem_append_right _ he))
  · intro hnone e hmem
    obtain he | he := List.mem_append.mp ((pending_settles (g.enter x) ps).mem hmem)
    · exact absurd hmem (hnone e he)
    · simp [List.mem_singleton.mp he]

/-- Room may be made before or after an entry, if something was pending. -/
theorem evict_enter (hpending : g.pending = o :: q) (x : α) : g.evict.enter x = (g.enter x).evict := by
  simp [evict, enter, hpending]

/-- Registers that differ in the oldest entry settle alike what is not that entry. -/
theorem settle_evict {p : α → Bool} (hpending : g.pending = o :: q) (ho : p o.1 = false) :
    (q.find? (fun e => p e.1) = none ∧ g.settle p = g ∧ g.evict.settle p = g.evict) ∨
      ∃ e ∈ q, q.find? (fun e => p e.1) = some e ∧ g.evict.settle p = g.settle p := by
  have hevict : g.evict.pending = q := by rw [evict, hpending]; rfl
  have hfind := pick_eq_find? (fun e : α × Nat => p e.1) q
  rw [settle, settle, hevict, hpending, pick, if_neg (by simp [ho])]
  cases he : q.find? fun e => p e.1 with
  | none =>
      rw [he] at hfind
      exact .inl ⟨rfl, by rw [hfind]; exact ⟨rfl, rfl⟩⟩
  | some e =>
      rw [he] at hfind
      exact .inr ⟨e, List.mem_of_find?_eq_some he, rfl, by rw [hfind]; rfl⟩

/-- Where the oldest lacks the first property, another may be the one it names. -/
theorem named_cons_of_neg {p : α → Bool} (ho : p o.1 = false) :
    named (p :: ps) (o :: q) = (q.find? fun e => p e.1).or (named ps (o :: q)) := by
  rw [named, List.findSome?_cons, List.find?_cons, ho]
  cases q.find? fun e => p e.1 <;> rfl

/-- Where the oldest went to make room, that does not show if another is the first to be
settled. -/
theorem settles_evict (hpending : g.pending = o :: q) {e : α × Nat} (he : named ps (o :: q) = some e)
    (hne : e ≠ o) : g.evict.settles ps = g.settles ps := by
  induction ps with
  | nil => cases he
  | cons p ps ih =>
      cases ho : p o.1 with
      | true =>
          rw [named, List.findSome?_cons, List.find?_cons, ho] at he
          exact absurd (Option.some.inj he).symm hne
      | false =>
          rw [named_cons_of_neg ho] at he
          rw [settles, settles, List.foldl_cons, List.foldl_cons]
          obtain ⟨hnone, hs, hs'⟩ | ⟨x, -, -, hs⟩ := settle_evict hpending ho
          · rw [hs, hs']
            rw [hnone, Option.none_or] at he
            exact ih he
          · rw [hs]

/-- And it does if the oldest is, or none. -/
theorem settles_evict_ne (h : g.Sound) (hpending : g.pending = o :: q)
    (hnone : ∀ e, named ps (o :: q) = some e → e = o) :
    (o ∈ (g.settles ps).settled ∧ o ∉ (g.evict.settles ps).settled) ∨
      (g.settles ps = g ∧ g.evict.settles ps = g.evict) := by
  have hnodup : (g.settled ++ o :: q).Nodup := by
    rw [← hpending]
    exact List.Nodup.of_map Prod.snd (h.ordered.imp Nat.ne_of_lt)
  have ho' : o ∉ g.settled ∧ o ∉ q := by
    rw [List.nodup_append, List.nodup_cons] at hnodup
    exact ⟨fun hs => hnodup.2.2 o hs o (by simp) rfl, hnodup.2.1.1⟩
  induction ps with
  | nil => exact .inr ⟨rfl, rfl⟩
  | cons p ps ih =>
      rw [settles, settles, List.foldl_cons, List.foldl_cons]
      cases ho : p o.1 with
      | true =>
          left
          constructor
          · have hs : g.settle p = { g with pending := q, settled := g.settled ++ [o] } := by
              rw [settle, hpending, pick, if_pos ho]
            exact (settled_settles (g.settle p) ps).mem (by rw [hs]; simp)
          · intro hmem
            have hor : o ∈ g.evict.settled ∨ o ∈ g.evict.pending :=
              @mem_settled_settles _ g.evict (p :: ps) _ hmem
            obtain hmem | hmem := hor
            · exact ho'.1 hmem
            · rw [evict, hpending] at hmem
              exact ho'.2 hmem
      | false =>
          obtain ⟨hfind, hs, hs'⟩ | ⟨x, hx, hfind, -⟩ := settle_evict hpending ho
          · rw [hs, hs']
            refine ih fun e he => hnone e ?_
            rw [named_cons_of_neg ho, hfind, Option.none_or]
            exact he
          · have hxo := hnone x (by rw [named_cons_of_neg ho, hfind]; rfl)
            exact absurd (hxo ▸ hx) ho'.2

end withdraw

end Register
