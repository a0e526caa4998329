import Mongoose.IsoTp.Isolation

/-!
# Mongoose.IsoTp.Table

What the table of assemblies looks like after any frames and resets.

`Valid` says it of one table; `Aged` adds the order of the entries, which is that of their
first frames.  A frame touches the entry of its own ID alone, unless it crowds the table.
-/

namespace Mongoose

open IsoTpReassembler

/-! ## operations -/

/-- What is done to a reassembler. -/
inductive TableOp
  | feed (frame : Bytes)
  | reset

/-- It feeds a first frame of an ID that is accepted. -/
def TableOp.starts (x : UInt32) : TableOp → Bool
  | .feed f => AcceptedFirst f ∧ source_id f = x
  | .reset => false

namespace IsoTpReassembler

def apply (r : IsoTpReassembler) : TableOp → IsoTpReassembler
  | .feed f => (r.feed f).2
  | .reset => r.reset

/-- The state after some operations on a new reassembler. -/
def after (ops : List TableOp) : IsoTpReassembler := ops.foldl apply {}

/-- When the latest accepted first frame of an ID came, counted from 1, or 0 if there was none. -/
def arrival (x : UInt32) (ops : List TableOp) : Nat := ops.length - ops.reverse.findIdx (TableOp.starts x)

theorem after_concat (ops : List TableOp) (o : TableOp) : after (ops ++ [o]) = (after ops).apply o := by
  simp [after]

theorem arrival_le (x : UInt32) (ops : List TableOp) : arrival x ops ≤ ops.length := Nat.sub_le _ _

theorem arrival_concat (x : UInt32) (ops : List TableOp) (o : TableOp) :
    arrival x (ops ++ [o]) = if o.starts x then ops.length + 1 else arrival x ops := by
  unfold arrival
  rw [List.reverse_append, List.reverse_singleton, List.singleton_append, List.findIdx_cons]
  cases o.starts x <;> simp

/-! ## the order of the table -/

/-- The IDs in progress are in the order of their latest accepted first frames, oldest first. -/
structure Aged (ops : List TableOp) (r : IsoTpReassembler) : Prop where
  arrived : ∀ x ∈ r.ids, 0 < arrival x ops
  ordered : r.ids.Pairwise fun x y => arrival x ops < arrival y ops

variable {ops : List TableOp} {r : IsoTpReassembler} {f : Bytes}

/-- An operation that starts no conversation only takes some out. -/
theorem Aged.sublist (h : Aged ops r) {r' : IsoTpReassembler} {o : TableOp} (ho : ∀ x, o.starts x = false)
    (hr : r'.ids.Sublist r.ids) : Aged (ops ++ [o]) r' where
  arrived x hx := by
    rw [arrival_concat, ho, if_neg Bool.false_ne_true]
    exact h.arrived x (hr.subset hx)
  ordered := by
    simp only [arrival_concat, ho, if_neg Bool.false_ne_true]
    exact h.ordered.sublist hr

/-- A conversation that starts goes to the end. -/
theorem Aged.start (h : Aged ops r) {r' : IsoTpReassembler} (ha : AcceptedFirst f) {kept : List UInt32}
    (hkept : kept.Sublist r.ids) (hfresh : source_id f ∉ kept) (hr : r'.ids = kept ++ [source_id f]) :
    Aged (ops ++ [.feed f]) r' := by
  have hnew : arrival (source_id f) (ops ++ [.feed f]) = ops.length + 1 := by
    rw [arrival_concat, if_pos]
    simpa [TableOp.starts] using ha
  have hold (x : UInt32) (hx : x ∈ kept) : arrival x (ops ++ [.feed f]) = arrival x ops := by
    rw [arrival_concat, if_neg]
    simp only [TableOp.starts, decide_eq_true_eq]
    rintro ⟨-, rfl⟩
    exact hfresh hx
  constructor
  · intro x hx
    rw [hr, List.mem_append, List.mem_singleton] at hx
    obtain hx | rfl := hx
    · rw [hold x hx]
      exact h.arrived x (hkept.subset hx)
    · omega
  · rw [hr, List.pairwise_append]
    refine ⟨?_, List.pairwise_singleton _ _, ?_⟩
    · refine (h.ordered.sublist hkept).imp_of_mem fun {x y} hx hy hlt => ?_
      rw [hold x hx, hold y hy]
      exact hlt
    · intro x hx y hy
      have hle := arrival_le x ops
      rw [List.mem_singleton.mp hy, hold x hx, hnew]
      omega

theorem feed_of_accepted (ha : AcceptedFirst f) : r.feed f = (r.drop (source_id f)).first f := by
  have hlen := ha.1
  have htype := ha.2.1
  unfold frameType at htype
  unfold IsoTpReassembler.feed
  rw [if_neg (by omega)]
  cases hf : r.find (source_id f) with
  | none => simp [htype, IsoTpReassembler.drop, Slots.drop_of_find_none hf]
  | some a => simp [htype]

/-- The IDs after an accepted first frame. -/
theorem ids_feed_of_accepted (h : r.Valid) (ha : AcceptedFirst f) :
    ∃ kept : List UInt32, kept.Sublist r.ids ∧ source_id f ∉ kept ∧ (r.feed f).2.ids = kept ++ [source_id f] := by
  have hfresh : source_id f ∉ (r.drop (source_id f)).ids :=
    Slots.find_eq_none.mp (Slots.find_drop_self h.nodup)
  have hdrop : (r.drop (source_id f)).ids.Sublist r.ids := Slots.keys_drop_sublist _ _
  rw [feed_of_accepted ha, first_of_accepted ha]
  by_cases hfull : (r.drop (source_id f)).assemblies.length = max_conversations
  · have htail : ((r.drop (source_id f)).ids.tail).Sublist (r.drop (source_id f)).ids := List.tail_sublist _
    refine ⟨_, htail.trans hdrop, fun hm => hfresh (htail.subset hm), ?_⟩
    simp [ids, Slots.keys, hfull, opened]
  · refine ⟨_, hdrop, hfresh, ?_⟩
    simp [ids, Slots.keys, hfull, opened]

/-- Any other frame starts no conversation. -/
theorem ids_feed_of_not_accepted (ha : ¬ AcceptedFirst f) : (r.feed f).2.ids.Sublist r.ids := by
  have hdrop : (r.drop (source_id f)).ids.Sublist r.ids := Slots.keys_drop_sublist _ _
  rcases feed_cases r f with ⟨-, he⟩ | ⟨-, he⟩ | ⟨-, he⟩ | ⟨ha', -⟩ | ⟨-, he⟩ | ⟨-, he⟩ | ⟨-, -, he⟩
  · rw [he]
  · rw [he]
  · rw [he]
    exact hdrop
  · exact absurd ha' ha
  · rw [he]
    exact hdrop
  · rw [he]
    cases hf : r.find (source_id f) with
    | none => rw [consecutive_of_find_none hf]
    | some a =>
        rw [consecutive_of_find hf]
        split
        · exact hdrop
        · split
          · simp [ids]
          · exact hdrop
  · rw [he]

/-- Every operation keeps the order. -/
theorem Aged.apply (h : Aged ops r) (hv : r.Valid) (o : TableOp) : Aged (ops ++ [o]) (r.apply o) := by
  cases o with
  | reset => exact h.sublist (fun _ => rfl) (List.nil_sublist _)
  | feed f =>
      by_cases ha : AcceptedFirst f
      · obtain ⟨kept, hkept, hfresh, hr⟩ := ids_feed_of_accepted hv ha
        exact h.start ha hkept hfresh hr
      · exact h.sublist (fun x => by simp [TableOp.starts, ha]) (ids_feed_of_not_accepted ha)

theorem Valid.apply (h : r.Valid) (o : TableOp) : (r.apply o).Valid := by
  cases o with
  | reset => exact valid_empty
  | feed f => exact h.feed f

theorem valid_after (ops : List TableOp) : (after ops).Valid := by
  induction ops using List.reverseRecOn with
  | nil => exact valid_empty
  | append_singleton ops o ih =>
      rw [after_concat]
      exact ih.apply o

theorem aged_after (ops : List TableOp) : Aged ops (after ops) := by
  induction ops using List.reverseRecOn with
  | nil => exact ⟨fun _ hx => absurd hx List.not_mem_nil, .nil⟩
  | append_singleton ops o ih =>
      rw [after_concat]
      exact ih.apply (valid_after ops) o

/-! ## what a frame gives and takes -/

/-- An output is an ID and a payload of at most the longest message. -/
theorem length_of_mem_feed (h : r.Valid) {o : Output} (ho : o ∈ (r.feed f).1) :
    identifier ≤ o.data.length ∧ o.data.length ≤ identifier + max_message := by
  have hid {f : Bytes} (hl : identifier < f.length) : (with_identifier f).length = identifier := by
    rw [with_identifier, List.length_take]
    omega
  rcases feed_cases r f with ⟨-, he⟩ | ⟨hg, he⟩ | ⟨-, he⟩ | ⟨ha, he⟩ | ⟨-, he⟩ | ⟨-, he⟩ | ⟨-, -, he⟩ <;>
    rw [he] at ho
  · cases ho
  · rw [List.mem_singleton] at ho
    have hlim := hg.2.2.1
    unfold single_limit at hlim
    rw [ho, singleOutput, List.length_append, hid hg.1, List.length_take]
    unfold max_message
    omega
  · cases ho
  · rw [first_of_accepted ha, List.mem_singleton] at ho
    have hlen := ha.1
    rw [ho, startOutput, hid (by omega)]
    omega
  · cases ho
  · cases hf : r.find (source_id f) with
    | none =>
        rw [consecutive_of_find_none hf] at ho
        cases ho
    | some a =>
        rw [consecutive_of_find hf] at ho
        split at ho
        · cases ho
        · split at ho
          · cases ho
          · rw [List.mem_singleton] at ho
            have hv := (h.assemblies a (Slots.mem_of_find hf)).grow f
            have hlen := hv.length_message
            have hle := hv.received_le
            have hmax := hv.maximum
            unfold Assembly.received at hle
            rw [ho]
            dsimp only
            omega
  · cases ho

/-- A frame that crowds the table pushes out the oldest entry, and no other. -/
theorem assemblies_of_crowds (hc : Crowds r f) :
    (r.feed f).2.assemblies = r.assemblies.tail ++ [opened f] := by
  obtain ⟨ha, hnone, hfull⟩ := hc
  have hdrop : r.drop (source_id f) = r := by rw [IsoTpReassembler.drop, Slots.drop_of_find_none hnone]
  rw [feed_of_accepted ha, hdrop, first_of_accepted ha, if_pos hfull]

/-- An entry that a frame of another ID takes out is the oldest of a full table. -/
theorem removed_of_ne (h : r.Valid) {a : Assembly} (ha : a ∈ r.assemblies) (hne : frameId f ≠ some a.id)
    (hgone : a ∉ (r.feed f).2.assemblies) : Crowds r f ∧ r.assemblies.head? = some a := by
  have hfind : r.find a.id = some a := Slots.find_of_mem h.nodup ha
  obtain hsame | ⟨hcrowd, hhead, -⟩ := find_feed_of_ne h hne
  · rw [hfind] at hsame
    exact absurd (Slots.mem_of_find hsame) hgone
  · refine ⟨hcrowd, ?_⟩
    rw [ids, Slots.keys, List.head?_map, Option.map_eq_some_iff] at hhead
    obtain ⟨b, hb, hba⟩ := hhead
    have hfindb : r.find b.id = some b := Slots.find_of_mem h.nodup (List.mem_of_mem_head? hb)
    rw [hba, hfind] at hfindb
    rw [hb, Option.some.inj hfindb]

/-- **The table after any frames and resets.**  It is valid and in order; what a frame gives is of the
frame's ID and no longer than a message; and a frame takes the entry of another ID only when it starts a
conversation in a full table, and then the oldest entry alone. -/
theorem table_after (ops : List TableOp) :
    (after ops).Valid ∧ Aged ops (after ops) ∧
      ∀ f, (∀ o ∈ ((after ops).feed f).1, with_identifier o.data = with_identifier f ∧
          identifier ≤ o.data.length ∧ o.data.length ≤ identifier + max_message) ∧
        (∀ a ∈ (after ops).assemblies, frameId f ≠ some a.id → a ∉ ((after ops).feed f).2.assemblies →
          Crowds (after ops) f ∧ (after ops).assemblies.head? = some a) ∧
        (Crowds (after ops) f → ((after ops).feed f).2.assemblies = (after ops).assemblies.tail ++ [opened f]) := by
  have hv := valid_after ops
  refine ⟨hv, aged_after ops, fun f => ⟨fun o ho => ?_, fun a ha hne hgone => removed_of_ne hv ha hne hgone,
    assemblies_of_crowds⟩⟩
  exact ⟨(with_identifier_of_mem_feed hv ho).2, length_of_mem_feed hv ho⟩

end IsoTpReassembler

end Mongoose
