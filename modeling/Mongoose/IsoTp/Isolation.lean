import Mathlib.Data.Finset.Card
import Mongoose.IsoTp.Conversation

/-!
# Mongoose.IsoTp.Isolation

One ECU's traffic never changes another's messages: as long as no conversation
is pushed out of a full table, the outputs of one ID are what its own frames
produce in a reassembler of their own, frame by frame.
-/

namespace Mongoose

open IsoTpReassembler

/-! ## outputs name their frame -/

/-- **Every output begins with the ID of the frame that produced it.** -/
theorem with_identifier_of_mem_feed {r : IsoTpReassembler} (h : r.Valid) {f : Bytes} {o : Output}
    (ho : o ∈ (r.feed f).1) : identifier < f.length ∧ with_identifier o.data = with_identifier f := by
  have htake (rest : Bytes) (hl : identifier < f.length) :
      with_identifier (with_identifier f ++ rest) = with_identifier f := by
    have hlen : (with_identifier f).length = identifier := by
      rw [with_identifier, List.length_take]; omega
    rw [with_identifier, ← hlen, List.take_left]
  rcases feed_cases r f with ⟨-, he⟩ | ⟨hg, he⟩ | ⟨-, he⟩ | ⟨ha, he⟩ | ⟨-, he⟩ | ⟨hc, he⟩ |
      ⟨-, -, he⟩ <;> rw [he] at ho
  · cases ho
  · rw [List.mem_singleton] at ho
    subst ho
    exact ⟨hg.1, htake _ hg.1⟩
  · cases ho
  · have hl : identifier < f.length := by have := ha.1; omega
    rw [first_of_accepted ha, List.mem_singleton] at ho
    subst ho
    refine ⟨hl, ?_⟩
    have := htake [] hl
    rwa [List.append_nil] at this
  · cases ho
  · cases hf : r.find (source_id f) with
    | none => rw [consecutive_of_find_none hf] at ho; cases ho
    | some a =>
        rw [consecutive_of_find hf] at ho
        split at ho
        · cases ho
        · split at ho
          · cases ho
          · rw [List.mem_singleton] at ho
            subst ho
            have hv := (h.assemblies a (Slots.mem_of_find hf)).grow f
            have hid : a.id = source_id f := Slots.key_of_find hf
            refine ⟨hc.1, ?_⟩
            rw [hv.prefix_eq, Assembly.id_grow, hid, idBytes_source_id (Nat.le_of_lt hc.1)]
  · cases ho

/-- In a run, an output carries `x` exactly when the frame that produced it does. -/
theorem frameId_of_mem_trace {r : IsoTpReassembler} (h : r.Valid) {frames : List Bytes}
    {p : Bytes × List Output} (hp : p ∈ (r.trace frames).1) {o : Output} (ho : o ∈ p.2)
    (x : UInt32) : with_identifier o.data = idBytes x ↔ frameId p.1 = some x := by
  induction frames generalizing r with
  | nil => cases hp
  | cons f fs ih =>
      rcases List.mem_cons.mp hp with rfl | hm
      · rw [(with_identifier_of_mem_feed h ho).2, frameId_eq_some]
      · exact ih (h.feed f) hm

/-- Keeping the outputs of an ID is keeping the frames that produced them. -/
theorem filter_outputs {r : IsoTpReassembler} (h : r.Valid) (frames : List Bytes) (x : UInt32) :
    (r.outputs frames).filter (fun o => with_identifier o.data = idBytes x) =
      ((r.trace frames).1.filter fun p => frameId p.1 = some x).flatMap Prod.snd :=
  Demux.filter_flatMap_own frameId x fun _ hp _ ho => frameId_of_mem_trace h hp ho x

/-! ## few IDs never crowd the table -/

/-- Frames of the IDs in `S` only ever open conversations of those. -/
theorem ids_run_subset {S : Finset UInt32} {frames : List Bytes}
    (h : ∀ f ∈ frames, ∃ x ∈ S, frameId f = some x) :
    ∀ y ∈ (run {} frames).ids, y ∈ S := by
  suffices hs : ∀ (r : IsoTpReassembler), r.Valid → (∀ y ∈ r.ids, y ∈ S) →
      ∀ y ∈ (r.run frames).ids, y ∈ S from
    hs {} valid_empty (fun _ hy => absurd hy List.not_mem_nil)
  induction frames with
  | nil => exact fun r _ hr => hr
  | cons f fs ih =>
      intro r hv hr
      refine ih (fun g hg => h g (List.mem_cons_of_mem f hg)) (r.feed f).2 (hv.feed f) ?_
      intro y hy
      by_contra hn
      -- `y` was not in progress, and a frame of another ID does not start it
      obtain ⟨x, hx, hf⟩ := h f List.mem_cons_self
      have hne : frameId f ≠ some y := fun he => hn (by rw [hf, Option.some.injEq] at he; exact he ▸ hx)
      have hnone : r.find y = none := Slots.find_eq_none.mpr fun hm => hn (hr y hm)
      rcases find_feed_of_ne hv hne with he | ⟨-, -, he⟩
      · exact Slots.find_eq_none.mp (he.trans hnone) hy
      · exact Slots.find_eq_none.mp he hy

/-- With at most 32 IDs about, no frame crowds the table. -/
theorem not_crowds_of_card_le {S : Finset UInt32} (hcard : S.card ≤ max_conversations)
    {r : IsoTpReassembler} (hv : r.Valid) (hids : ∀ y ∈ r.ids, y ∈ S) {f : Bytes} {x : UInt32}
    (hx : x ∈ S) (hf : frameId f = some x) : ¬ Crowds r f := by
  rintro ⟨ha, hnone, hfull⟩
  have hxf : source_id f = x := by
    rw [frameId_of_lt (by have := ha.1; omega), Option.some.injEq] at hf
    exact hf
  rw [hxf] at hnone
  have hnot : x ∉ r.ids := Slots.find_eq_none.mp hnone
  have hsub : (x :: r.ids).toFinset ⊆ S := by
    intro y hy
    rcases List.mem_cons.mp (List.mem_toFinset.mp hy) with rfl | hm
    · exact hx
    · exact hids y hm
  have hlen : (x :: r.ids).toFinset.card = r.ids.length + 1 := by
    rw [List.toFinset_card_of_nodup (List.nodup_cons.mpr ⟨hnot, hv.nodup⟩), List.length_cons]
  have hids_len : r.ids.length = r.assemblies.length := List.length_map _
  have := Finset.card_le_card hsub
  omega

/-- Frames of at most 32 IDs leave every conversation to itself. -/
theorem allRouted_of_card_le {S : Finset UInt32} (hcard : S.card ≤ max_conversations)
    {frames : List Bytes} (h : ∀ f ∈ frames, ∃ x ∈ S, frameId f = some x) :
    Demux.AllRouted feed frameId conversation converse {} frames := by
  apply Demux.allRouted_of_split
  intro before f after he
  have hv : (run {} before).Valid := valid_run valid_empty before
  obtain ⟨x, hx, hf⟩ := h f (by rw [he]; simp)
  have hsub : ∀ y ∈ (run {} before).ids, y ∈ S :=
    ids_run_subset fun g hg => h g (by rw [he]; simp [hg])
  exact feed_routed hv (not_crowds_of_card_le hcard hv hsub hx hf)

/-- The frames of one ID, run alone. -/
theorem trace_own (frames : List Bytes) (x : UInt32) :
    (trace {} (frames.filter fun f => frameId f = some x)).1 =
      (Demux.trace converse none (frames.filter fun f => frameId f = some x)).1 := by
  have hall : ∀ f ∈ frames.filter (fun f => frameId f = some x), frameId f = some x :=
    fun f hf => by simpa using (List.mem_filter.mp hf).2
  generalize frames.filter (fun f => frameId f = some x) = own at hall
  have hcard : Finset.card {x} ≤ max_conversations := by rw [Finset.card_singleton]; decide
  have hrouted : Demux.AllRouted feed frameId conversation converse {} own :=
    allRouted_of_card_le hcard fun f hf => ⟨x, Finset.mem_singleton_self x, hall f hf⟩
  obtain ⟨hproj, -⟩ := Demux.filter_trace hrouted (some x)
  have hown : own.filter (fun f => frameId f = some x) = own :=
    List.filter_eq_self.mpr fun f hf => by simpa using hall f hf
  have hsame : (Demux.trace feed {} own).1.filter (fun p => frameId p.1 = some x) =
      (Demux.trace feed {} own).1 := by
    rw [List.filter_eq_self]
    intro p hp
    have := List.mem_map_of_mem (f := Prod.fst) hp
    rw [Demux.map_fst_trace] at this
    simpa using hall p.1 this
  rw [hsame, hown] at hproj
  exact hproj

/-- **Per-ID isolation.**  If no frame pushes a conversation out of a full
table, then for every ID the outputs that carry it, in order and content, are
those of a fresh reassembler fed that ID's frames only — and each comes at the
same frame. -/
theorem isolation (frames : List Bytes)
    (hroom : ∀ i, (h : i < frames.length) → ¬ Crowds (run {} (frames.take i)) frames[i])
    (x : UInt32) :
    (outputs {} frames).filter (fun o => with_identifier o.data = idBytes x) =
        outputs {} (frames.filter fun f => frameId f = some x) ∧
      (trace {} frames).1.filter (fun p => frameId p.1 = some x) =
        (trace {} (frames.filter fun f => frameId f = some x)).1 := by
  have hrouted : Demux.AllRouted feed frameId conversation converse {} frames := by
    apply Demux.allRouted_of_split
    intro before f after he
    subst he
    have hf := hroom before.length (by simp)
    rw [List.take_left, List.getElem_append_right (Nat.le_refl _)] at hf
    exact feed_routed (valid_run valid_empty before) (by simpa using hf)
  have htrace : (trace {} frames).1.filter (fun p => frameId p.1 = some x) =
      (trace {} (frames.filter fun f => frameId f = some x)).1 :=
    (Demux.filter_trace hrouted (some x)).1.trans (trace_own frames x).symm
  refine ⟨?_, htrace⟩
  rw [filter_outputs valid_empty, htrace]
  rfl

/-- Two ECUs whose first frames interleave, and a malformed frame of the second. -/
theorem isolation_two :
    (outputs {} [[0, 0, 7, 0xe8, 0x10, 8, 1, 2, 3, 4, 5, 6], [0, 0, 7, 0xe9, 0x10, 8, 9, 9],
        [0, 0, 7, 0xe9, 0x0f], [0, 0, 7, 0xe8, 0x21, 7, 8]]).filter
          (fun o => with_identifier o.data = idBytes 0x7e8) =
      outputs {} [[0, 0, 7, 0xe8, 0x10, 8, 1, 2, 3, 4, 5, 6], [0, 0, 7, 0xe8, 0x21, 7, 8]] :=
  (isolation [[0, 0, 7, 0xe8, 0x10, 8, 1, 2, 3, 4, 5, 6], [0, 0, 7, 0xe9, 0x10, 8, 9, 9],
    [0, 0, 7, 0xe9, 0x0f], [0, 0, 7, 0xe8, 0x21, 7, 8]] (by decide +kernel) 0x7e8).1

end Mongoose
