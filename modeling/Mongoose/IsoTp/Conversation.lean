import Mongoose.IsoTp

/-!
# Mongoose.IsoTp.Conversation

What reassembly means for one CAN ID, and that the shared table of assemblies
computes it.

`converse` is a conversation on its own: at most one partial message, moved by
the frames of one ID.  `feed_routed` connects it to the code: as long as no
conversation is pushed out of the table, `feed` moves the conversation of the
frame's ID as `converse` does, with the same output, and touches no other.
`find_feed_of_ne` says what a frame of another ID can do at worst.
-/

namespace Mongoose

open IsoTpReassembler

/-! ## identifiers -/

/-- The four big-endian bytes of a CAN ID. -/
def idBytes (x : UInt32) : Bytes :=
  [UInt8.ofNat (x.toNat / 2 ^ 24), UInt8.ofNat (x.toNat / 2 ^ 16), UInt8.ofNat (x.toNat / 2 ^ 8),
    UInt8.ofNat x.toNat]

@[simp] theorem length_idBytes (x : UInt32) : (idBytes x).length = 4 := rfl

/-- The ID a frame carries, if it is long enough to carry one. -/
def frameId (f : Bytes) : Option UInt32 := if identifier ≤ f.length then some (source_id f) else none

/-- A frame that begins with the bytes of an ID is from that ID. -/
theorem source_id_idBytes (x : UInt32) (rest : Bytes) : source_id (idBytes x ++ rest) = x := by
  have hx := x.toNat_lt
  apply UInt32.toNat_inj.mp
  simp only [source_id, idBytes, List.cons_append, List.getD_cons_zero, List.getD_cons_succ,
    UInt8.toNat_ofNat', UInt32.toNat_ofNat']
  omega

/-- The ID of a frame, written out, is what the frame begins with. -/
theorem idBytes_source_id {f : Bytes} (h : identifier ≤ f.length) :
    idBytes (source_id f) = with_identifier f := by
  obtain ⟨a, b, c, d, rest, rfl⟩ : ∃ a b c d rest, f = a :: b :: c :: d :: rest := by
    match f, h with
    | a :: b :: c :: d :: rest, _ => exact ⟨a, b, c, d, rest, rfl⟩
  have ha := a.toNat_lt
  have hb := b.toNat_lt
  have hc := c.toNat_lt
  have hd := d.toNat_lt
  simp only [idBytes, source_id, with_identifier, identifier, List.getD_cons_zero,
    List.getD_cons_succ, List.take_succ_cons, List.take_zero, UInt32.toNat_ofNat', List.cons.injEq,
    and_true]
  refine ⟨?_, ?_, ?_, ?_⟩ <;> apply UInt8.toNat_inj.mp <;> rw [UInt8.toNat_ofNat'] <;> omega

/-- A frame has an ID exactly when it begins with its bytes. -/
theorem frameId_eq_some {f : Bytes} {x : UInt32} :
    frameId f = some x ↔ with_identifier f = idBytes x := by
  unfold frameId
  by_cases h : identifier ≤ f.length
  · rw [if_pos h, Option.some.injEq]
    constructor
    · rintro rfl; exact (idBytes_source_id h).symm
    · intro he
      rw [← source_id_idBytes x [], List.append_nil, ← he, ← idBytes_source_id h,
        ← List.append_nil (idBytes _), source_id_idBytes]
  · rw [if_neg h]
    constructor
    · intro he; cases he
    · intro he
      have := congrArg List.length he
      rw [length_idBytes, with_identifier, List.length_take] at this
      unfold identifier at h this; omega

/-- A frame with data has an ID. -/
theorem frameId_of_lt {f : Bytes} (h : identifier < f.length) : frameId f = some (source_id f) :=
  if_pos (Nat.le_of_lt h)

theorem frameId_idBytes (x : UInt32) (rest : Bytes) : frameId (idBytes x ++ rest) = some x := by
  rw [frameId_eq_some, with_identifier]
  rfl

/-! ## what a frame is -/

/-- The high nibble of the PCI byte. -/
def frameType (f : Bytes) : Nat := pci f / 16

/-- The payload length a first frame announces. -/
def announced (f : Bytes) : Nat := pci f % 16 * 256 + (f.getD (identifier + 1) 0).toNat

/-- A single frame that holds the one to seven bytes it announces (or none). -/
def GoodSingle (f : Bytes) : Prop :=
  identifier < f.length ∧ frameType f = 0 ∧ pci f % 16 ≤ single_limit ∧
    pci f % 16 ≤ f.length - identifier - 1

/-- A single frame that is refused, and ends its ID's conversation. -/
def BadSingle (f : Bytes) : Prop := identifier < f.length ∧ frameType f = 0 ∧ ¬ GoodSingle f

/-- A first frame that starts a conversation. -/
def AcceptedFirst (f : Bytes) : Prop :=
  identifier + 2 ≤ f.length ∧ frameType f = 1 ∧ segmented_minimum ≤ announced f ∧
    announced f ≤ max_message

/-- A first frame that is refused, and ends its ID's conversation. -/
def RejectedFirst (f : Bytes) : Prop := identifier < f.length ∧ frameType f = 1 ∧ ¬ AcceptedFirst f

/-- A consecutive frame, well formed or not. -/
def IsConsecutive (f : Bytes) : Prop := identifier < f.length ∧ frameType f = 2

instance (f : Bytes) : Decidable (GoodSingle f) := inferInstanceAs (Decidable (_ ∧ _))
instance (f : Bytes) : Decidable (BadSingle f) := inferInstanceAs (Decidable (_ ∧ _))
instance (f : Bytes) : Decidable (AcceptedFirst f) := inferInstanceAs (Decidable (_ ∧ _))
instance (f : Bytes) : Decidable (RejectedFirst f) := inferInstanceAs (Decidable (_ ∧ _))
instance (f : Bytes) : Decidable (IsConsecutive f) := inferInstanceAs (Decidable (_ ∧ _))

/-- The message of a single frame. -/
def singleOutput (f : Bytes) : Output :=
  { data := with_identifier f ++ (f.drop (identifier + 1)).take (pci f % 16) }

/-- The first-frame indication. -/
def startOutput (f : Bytes) : Output := { rx_status := START_OF_MESSAGE, data := with_identifier f }

/-- The assembly a first frame starts. -/
def opened (f : Bytes) : Assembly :=
  { id := source_id f
    message := with_identifier f ++ (f.drop (identifier + 2)).take
      (min (f.drop (identifier + 2)).length (announced f))
    expected := announced f
    sequence := 1 }

namespace IsoTpReassembler.Assembly

/-- Payload bytes accumulated. -/
def received (a : Assembly) : Nat := a.message.length - identifier

/-- The assembly after a consecutive frame in sequence. -/
def grow (a : Assembly) (f : Bytes) : Assembly :=
  { a with
    sequence := (a.sequence + 1) % 16
    message := a.message ++ (f.drop (identifier + 1)).take
      (min (f.drop (identifier + 1)).length (a.expected - a.received)) }

/-- A consecutive frame that the assembly takes. -/
def Takes (a : Assembly) (f : Bytes) : Prop :=
  identifier + 2 ≤ f.length ∧ pci f % 16 = a.sequence

instance (a : Assembly) (f : Bytes) : Decidable (a.Takes f) := inferInstanceAs (Decidable (_ ∧ _))

@[simp] theorem id_grow (a : Assembly) (f : Bytes) : (a.grow f).id = a.id := rfl

@[simp] theorem expected_grow (a : Assembly) (f : Bytes) : (a.grow f).expected = a.expected := rfl

end IsoTpReassembler.Assembly

/-! ## one conversation on its own -/

/-- A consecutive frame in a conversation. -/
def continued (a : Assembly) (f : Bytes) : List Output × Option Assembly :=
  if ¬ a.Takes f then ([], none)
  else if (a.grow f).received < a.expected then ([], some (a.grow f))
  else ([{ data := (a.grow f).message }], none)

/-- One frame in the conversation of its ID, with no other conversation about. -/
def converse (c : Option Assembly) (f : Bytes) : List Output × Option Assembly :=
  if f.length ≤ identifier then ([], c)
  else if frameType f = 0 then
    if GoodSingle f then ([singleOutput f], c) else ([], none)
  else if frameType f = 1 then
    if AcceptedFirst f then ([startOutput f], some (opened f)) else ([], none)
  else if frameType f = 2 then
    match c with
    | none => ([], none)
    | some a => continued a f
  else ([], c)

/-- The conversation of an ID in the table of assemblies. -/
def conversation (x : Option UInt32) (r : IsoTpReassembler) : Option Assembly := x.bind r.find

/-! ## the representation -/

/-- The IDs in progress, oldest first. -/
def IsoTpReassembler.ids (r : IsoTpReassembler) : List UInt32 := Slots.keys Assembly.id r.assemblies

/-- The frame starts a conversation that pushes the oldest out of a full table. -/
def Crowds (r : IsoTpReassembler) (f : Bytes) : Prop :=
  AcceptedFirst f ∧ r.find (source_id f) = none ∧ r.assemblies.length = max_conversations

instance (r : IsoTpReassembler) (f : Bytes) : Decidable (Crowds r f) :=
  inferInstanceAs (Decidable (_ ∧ _))

/-! ## the code, by what a frame is -/

section handlers

variable {r : IsoTpReassembler} {f : Bytes}

/-- A good single frame is handed out and leaves the conversation of its ID. -/
theorem single_of_good (h : GoodSingle f) : r.single f = ([singleOutput f], r) := by
  obtain ⟨hlen, -, hlim, hholds⟩ := h
  unfold single
  rw [if_neg (by omega), if_neg (by omega), if_neg (by omega)]
  rfl

/-- A bad one ends it. -/
theorem single_of_bad (h : BadSingle f) : r.single f = ([], r.drop (source_id f)) := by
  obtain ⟨hlen, htype, hbad⟩ := h
  have : pci f % 16 > single_limit ∨ pci f % 16 > f.length - identifier - 1 := by
    by_contra hc
    obtain ⟨h1, h2⟩ := not_or.mp hc
    exact hbad ⟨hlen, htype, Nat.le_of_not_lt h1, Nat.le_of_not_lt h2⟩
  unfold single
  rw [if_neg (by omega)]
  rcases this with h | h
  · rw [if_pos h]
  · by_cases hl : pci f % 16 > single_limit
    · rw [if_pos hl]
    · rw [if_neg hl, if_pos h]

/-- An accepted first frame opens a conversation, for which the oldest goes if the table is full. -/
theorem first_of_accepted (h : AcceptedFirst f) :
    r.first f = ([startOutput f],
      { assemblies := (if r.assemblies.length = max_conversations then r.assemblies.tail
          else r.assemblies) ++ [opened f] }) := by
  obtain ⟨hlen, -, hlow, hhigh⟩ := h
  unfold announced at hlow hhigh
  unfold first
  rw [if_neg (by omega), if_neg (by omega)]
  rfl

/-- A rejected one changes nothing. -/
theorem first_of_rejected (h : RejectedFirst f) : r.first f = ([], r) := by
  obtain ⟨hlen, htype, hbad⟩ := h
  unfold first
  by_cases hshort : f.length < identifier + 2
  · rw [if_pos hshort]
  · rw [if_neg hshort, if_pos]
    by_contra hc
    obtain ⟨h1, h2⟩ := not_or.mp hc
    exact hbad ⟨by omega, htype, Nat.le_of_not_lt h1, Nat.le_of_not_lt h2⟩

/-- A consecutive frame of nobody's conversation is ignored. -/
theorem consecutive_of_find_none (hf : r.find (source_id f) = none) :
    r.consecutive f = ([], r) := by
  unfold consecutive
  rw [hf]

/-- One that its conversation does not take ends it; one that it takes makes it grow, or completes it. -/
theorem consecutive_of_find {a : Assembly} (hf : r.find (source_id f) = some a) :
    r.consecutive f =
      if ¬ a.Takes f then ([], r.drop (source_id f))
      else if (a.grow f).received < a.expected then
        ([], { assemblies := Slots.put Assembly.id (a.grow f) r.assemblies })
      else ([{ data := (a.grow f).message }], r.drop (source_id f)) := by
  unfold consecutive
  rw [hf]
  by_cases ht : a.Takes f
  · rw [if_neg (not_not_intro ht)]
    obtain ⟨hlen, hseq⟩ := ht
    simp only [if_neg (show ¬ f.length < identifier + 2 by omega), if_neg (not_not_intro hseq)]
    rfl
  · rw [if_pos ht]
    by_cases hshort : f.length < identifier + 2
    · simp only [if_pos hshort]
    · have hseq : pci f % 16 ≠ a.sequence := fun h => ht ⟨by omega, h⟩
      simp only [if_neg hshort, if_pos hseq]

/-- The case analysis of `feed`, by what the frame is. -/
theorem feed_cases (r : IsoTpReassembler) (f : Bytes) :
    (f.length ≤ identifier ∧ r.feed f = ([], r)) ∨
    (GoodSingle f ∧ r.feed f = ([singleOutput f], r)) ∨
    (BadSingle f ∧ r.feed f = ([], r.drop (source_id f))) ∨
    (AcceptedFirst f ∧ r.feed f = (r.drop (source_id f)).first f) ∨
    (RejectedFirst f ∧ r.feed f = ([], r.drop (source_id f))) ∨
    (IsConsecutive f ∧ r.feed f = r.consecutive f) ∨
    (identifier < f.length ∧ 3 ≤ frameType f ∧ r.feed f = ([], r)) := by
  by_cases hlen : f.length ≤ identifier
  · exact .inl ⟨hlen, by unfold feed; rw [if_pos hlen]⟩
  have hpos : identifier < f.length := by omega
  have hdrop (hf : r.find (source_id f) = none) : r.drop (source_id f) = r := by
    unfold IsoTpReassembler.drop
    rw [Slots.drop_of_find_none hf]
  by_cases h0 : frameType f = 0
  · have hfeed : r.feed f = r.single f := by
      unfold feed
      unfold frameType at h0
      rw [if_neg hlen]
      cases r.find (source_id f) <;> simp [h0]
    by_cases hg : GoodSingle f
    · exact .inr (.inl ⟨hg, by rw [hfeed, single_of_good hg]⟩)
    · have hb : BadSingle f := ⟨hpos, h0, hg⟩
      exact .inr (.inr (.inl ⟨hb, by rw [hfeed, single_of_bad hb]⟩))
  by_cases h1 : frameType f = 1
  · have hfeed : r.feed f = (r.drop (source_id f)).first f := by
      unfold feed
      unfold frameType at h1
      rw [if_neg hlen]
      cases hf : r.find (source_id f) with
      | none => simp [h1, hdrop hf]
      | some a => simp [h1]
    by_cases ha : AcceptedFirst f
    · exact .inr (.inr (.inr (.inl ⟨ha, hfeed⟩)))
    · have hr : RejectedFirst f := ⟨hpos, h1, ha⟩
      exact .inr (.inr (.inr (.inr (.inl ⟨hr, by rw [hfeed, first_of_rejected hr]⟩))))
  by_cases h2 : frameType f = 2
  · have hfeed : r.feed f = r.consecutive f := by
      unfold feed
      unfold frameType at h2
      rw [if_neg hlen]
      cases hf : r.find (source_id f) with
      | none => simp [h2, consecutive, hf]
      | some a => simp [h2]
    exact .inr (.inr (.inr (.inr (.inr (.inl ⟨⟨hpos, h2⟩, hfeed⟩)))))
  · have h3 : 3 ≤ frameType f := by omega
    refine .inr (.inr (.inr (.inr (.inr (.inr ⟨hpos, h3, ?_⟩)))))
    unfold feed
    unfold frameType at h0 h1 h2 h3
    rw [if_neg hlen]
    cases r.find (source_id f) with
    | none => simp [h0, h1]
    | some a => simp only

end handlers

section converse

variable {f : Bytes} (c : Option Assembly)

/-- A frame without data says nothing. -/
theorem converse_of_short (h : f.length ≤ identifier) : converse c f = ([], c) := by
  unfold converse
  rw [if_pos h]

/-- A good single frame says its message. -/
theorem converse_of_good (h : GoodSingle f) : converse c f = ([singleOutput f], c) := by
  unfold converse
  rw [if_neg (Nat.not_le.mpr h.1), if_pos h.2.1, if_pos h]

/-- A bad one breaks the conversation off. -/
theorem converse_of_bad (h : BadSingle f) : converse c f = ([], none) := by
  unfold converse
  rw [if_neg (Nat.not_le.mpr h.1), if_pos h.2.1, if_neg h.2.2]

/-- An accepted first frame starts it over. -/
theorem converse_of_accepted (h : AcceptedFirst f) :
    converse c f = ([startOutput f], some (opened f)) := by
  unfold converse
  rw [if_neg (by have := h.1; omega), if_neg (by have := h.2.1; omega), if_pos h.2.1, if_pos h]

/-- A rejected one breaks it off. -/
theorem converse_of_rejected (h : RejectedFirst f) : converse c f = ([], none) := by
  unfold converse
  rw [if_neg (Nat.not_le.mpr h.1), if_neg (by have := h.2.1; omega), if_pos h.2.1, if_neg h.2.2]

/-- Nothing goes on that was not started. -/
theorem converse_none_of_consecutive (h : IsConsecutive f) : converse none f = ([], none) := by
  unfold converse
  rw [if_neg (Nat.not_le.mpr h.1), if_neg (by have := h.2; omega), if_neg (by have := h.2; omega),
    if_pos h.2]

/-- What was started goes on. -/
theorem converse_some_of_consecutive (a : Assembly) (h : IsConsecutive f) :
    converse (some a) f = continued a f := by
  unfold converse
  rw [if_neg (Nat.not_le.mpr h.1), if_neg (by have := h.2; omega), if_neg (by have := h.2; omega),
    if_pos h.2]

theorem converse_of_other (h : identifier < f.length) (h3 : 3 ≤ frameType f) :
    converse c f = ([], c) := by
  unfold converse
  rw [if_neg (Nat.not_le.mpr h), if_neg (by omega), if_neg (by omega), if_neg (by omega)]

end converse

/-! ## the table computes the conversations -/

namespace IsoTpReassembler

/-- An assembly as the code keeps it: its ID in front, a payload no longer than
the length announced, and a sequence nibble. -/
structure Assembly.Valid (a : Assembly) : Prop where
  prefix_eq : with_identifier a.message = idBytes a.id
  minimum : segmented_minimum ≤ a.expected
  maximum : a.expected ≤ max_message
  received_le : a.received ≤ a.expected
  sequence_lt : a.sequence < 16

/-- The table as the code keeps it: one assembly an ID, at most 32. -/
structure Valid (r : IsoTpReassembler) : Prop where
  nodup : r.ids.Nodup
  length_le : r.assemblies.length ≤ max_conversations
  assemblies : ∀ a ∈ r.assemblies, a.Valid

/-- A new table is valid. -/
theorem valid_empty : Valid {} where
  nodup := List.nodup_nil
  length_le := Nat.zero_le _
  assemblies := by simp

/-- So is a conversation that an accepted first frame opens. -/
theorem valid_opened {f : Bytes} (h : AcceptedFirst f) : (opened f).Valid where
  prefix_eq := by
    have hid : with_identifier f = idBytes (source_id f) :=
      (idBytes_source_id (by have := h.1; omega)).symm
    simp only [opened, hid]
    rfl
  minimum := h.2.2.1
  maximum := h.2.2.2
  received_le := by
    simp only [opened, Assembly.received, with_identifier, List.length_append, List.length_take]
    omega
  sequence_lt := by simp [opened]

/-- A message begins with its ID. -/
theorem Assembly.Valid.length_message {a : Assembly} (h : a.Valid) : identifier ≤ a.message.length := by
  have := congrArg List.length h.prefix_eq
  rw [with_identifier, List.length_take, length_idBytes] at this
  unfold identifier at this ⊢; omega

/-- What a consecutive frame adds to the payload. -/
theorem Assembly.Valid.received_grow {a : Assembly} (h : a.Valid) (f : Bytes) :
    (a.grow f).received = min (a.received + (f.length - (identifier + 1))) a.expected := by
  have hl := h.length_message
  have hr := h.received_le
  simp only [Assembly.received, Assembly.grow, List.length_append, List.length_take,
    List.length_drop] at hr ⊢
  omega

/-- A conversation that grows stays valid. -/
theorem Assembly.Valid.grow {a : Assembly} (h : a.Valid) (f : Bytes) : (a.grow f).Valid where
  prefix_eq := by
    rw [id_grow, ← h.prefix_eq]
    exact List.take_append_of_le_length h.length_message
  minimum := h.minimum
  maximum := h.maximum
  received_le := by rw [h.received_grow]; exact Nat.min_le_right _ _
  sequence_lt := Nat.mod_lt _ (by decide)

/-- A table that loses one does too. -/
theorem Valid.drop {r : IsoTpReassembler} (h : r.Valid) (id : UInt32) : (r.drop id).Valid where
  nodup := Slots.nodup_drop h.nodup
  length_le := Nat.le_trans (List.eraseP_sublist).length_le h.length_le
  assemblies := fun a ha => h.assemblies a (Slots.mem_of_mem_drop ha)

/-- After the frame's own ID is dropped, the table is full only if the frame
crowds it. -/
theorem Valid.length_drop {r : IsoTpReassembler} (h : r.Valid) {f : Bytes} (ha : AcceptedFirst f)
    (hlen : (r.drop (source_id f)).assemblies.length = max_conversations) : Crowds r f := by
  have hle := h.length_le
  cases hf : r.find (source_id f) with
  | none =>
      refine ⟨ha, hf, ?_⟩
      rwa [IsoTpReassembler.drop, Slots.drop_of_find_none hf] at hlen
  | some a =>
      have := Slots.length_drop_of_find hf
      unfold IsoTpReassembler.drop at hlen
      simp only at hlen
      omega

/-- Every frame keeps the table as it should be. -/
theorem Valid.feed {r : IsoTpReassembler} (h : r.Valid) (f : Bytes) : (r.feed f).2.Valid := by
  rcases feed_cases r f with ⟨-, he⟩ | ⟨-, he⟩ | ⟨-, he⟩ | ⟨ha, he⟩ | ⟨-, he⟩ | ⟨-, he⟩ | ⟨-, -, he⟩ <;>
    rw [he]
  · exact h
  · exact h
  · exact h.drop _
  · rw [first_of_accepted ha]
    have hd := h.drop (source_id f)
    have hfresh : source_id f ∉ (r.drop (source_id f)).ids :=
      Slots.find_eq_none.mp (Slots.find_drop_self h.nodup)
    refine ⟨?_, ?_, ?_⟩
    · simp only [ids, Slots.keys, List.map_append, List.map_cons, List.map_nil]
      refine List.nodup_append'.mpr ⟨?_, List.nodup_singleton _, ?_⟩
      · split
        · exact hd.nodup.sublist ((List.tail_sublist _).map _)
        · exact hd.nodup
      · rw [List.disjoint_singleton]
        intro hm
        apply hfresh
        split at hm
        · exact ((List.tail_sublist _).map _).subset hm
        · exact hm
    · have hle := hd.length_le
      rw [List.length_append, List.length_singleton]
      split
      · rw [List.length_tail]; unfold max_conversations at *; omega
      · omega
    · intro a hm
      rcases List.mem_append.mp hm with hm | hm
      · split at hm
        · exact hd.assemblies a (List.mem_of_mem_tail hm)
        · exact hd.assemblies a hm
      · rw [List.mem_singleton] at hm
        subst hm
        exact valid_opened ha
  · exact h.drop _
  · cases hf : r.find (source_id f) with
    | none => rw [consecutive_of_find_none hf]; exact h
    | some a =>
        rw [consecutive_of_find hf]
        split
        · exact h.drop _
        · split
          · refine ⟨?_, ?_, ?_⟩
            · simpa [ids] using h.nodup
            · simpa using h.length_le
            · intro b hm
              rcases Slots.mem_put hm with rfl | hb
              · exact (h.assemblies a (Slots.mem_of_find hf)).grow f
              · exact h.assemblies b hb
          · exact h.drop _
  · exact h

/-- Every run keeps the table as it should be. -/
theorem valid_run {r : IsoTpReassembler} (h : r.Valid) (frames : List Bytes) :
    (r.run frames).Valid :=
  Demux.trace_induction IsoTpReassembler.feed (fun _ f hv => hv.feed f) h frames

end IsoTpReassembler

/-- The table moves the conversation of the frame's ID as that conversation
moves on its own. -/
theorem feed_own {r : IsoTpReassembler} (h : r.Valid) (f : Bytes) :
    (r.feed f).1 = (converse (conversation (frameId f) r) f).1 ∧
      conversation (frameId f) (r.feed f).2 = (converse (conversation (frameId f) r) f).2 := by
  have hself : (r.drop (source_id f)).find (source_id f) = none := Slots.find_drop_self h.nodup
  rcases feed_cases r f with ⟨hs, he⟩ | ⟨hg, he⟩ | ⟨hb, he⟩ | ⟨ha, he⟩ | ⟨hr, he⟩ | ⟨hc, he⟩ |
      ⟨hl, h3, he⟩ <;> rw [he]
  · rw [converse_of_short _ hs]; exact ⟨rfl, rfl⟩
  · rw [converse_of_good _ hg]; exact ⟨rfl, rfl⟩
  · rw [converse_of_bad _ hb, frameId_of_lt hb.1]
    exact ⟨rfl, hself⟩
  · rw [converse_of_accepted _ ha, frameId_of_lt (by have := ha.1; omega), first_of_accepted ha]
    refine ⟨rfl, ?_⟩
    have hnew : Slots.find Assembly.id (source_id f) [opened f] = some (opened f) := by
      rw [Slots.find_cons]
      exact if_pos rfl
    have hold : Slots.find Assembly.id (source_id f)
        (if (r.drop (source_id f)).assemblies.length = max_conversations then
          (r.drop (source_id f)).assemblies.tail else (r.drop (source_id f)).assemblies) = none := by
      rw [Slots.find_eq_none]
      intro hm
      apply Slots.find_eq_none.mp hself
      split at hm
      · exact ((List.tail_sublist _).map _).subset hm
      · exact hm
    change Slots.find Assembly.id (source_id f) (_ ++ [opened f]) = some (opened f)
    rw [Slots.find_append, hold, hnew]
    rfl
  · rw [converse_of_rejected _ hr, frameId_of_lt hr.1]
    exact ⟨rfl, hself⟩
  · simp only [frameId_of_lt hc.1, conversation, Option.bind_some]
    cases hf : r.find (source_id f) with
    | none =>
        rw [converse_none_of_consecutive hc, consecutive_of_find_none hf]
        exact ⟨rfl, hf⟩
    | some a =>
        rw [converse_some_of_consecutive a hc]
        have hid : a.id = source_id f := Slots.key_of_find hf
        rw [consecutive_of_find hf, continued]
        by_cases ht : a.Takes f
        · simp only [if_neg (not_not_intro ht)]
          by_cases hm : (a.grow f).received < a.expected
          · simp only [if_pos hm]
            have hold : Slots.find Assembly.id (a.grow f).id r.assemblies = some a := by
              rw [Assembly.id_grow, hid]; exact hf
            have hput := Slots.find_put_self hold
            rw [Assembly.id_grow, hid] at hput
            exact ⟨trivial, hput⟩
          · simp only [if_neg hm]
            exact ⟨trivial, hself⟩
        · simp only [if_pos ht]
          exact ⟨trivial, hself⟩
  · rw [converse_of_other _ hl h3]; exact ⟨rfl, rfl⟩

/-- At worst, a frame of another ID pushes a conversation out of a full table:
the oldest one, by starting its own. -/
theorem find_feed_of_ne {r : IsoTpReassembler} (h : r.Valid) {f : Bytes} {x : UInt32}
    (hx : frameId f ≠ some x) :
    (r.feed f).2.find x = r.find x ∨
      Crowds r f ∧ r.ids.head? = some x ∧ (r.feed f).2.find x = none := by
  -- every branch but an accepted first frame only touches the entry of its own ID
  have hne (hl : identifier < f.length) : x ≠ source_id f := fun he =>
    hx (by rw [frameId_of_lt hl, he])
  have hdrop (hl : identifier < f.length) : (r.drop (source_id f)).find x = r.find x :=
    Slots.find_drop_of_ne (hne hl) _
  rcases feed_cases r f with ⟨-, he⟩ | ⟨-, he⟩ | ⟨hb, he⟩ | ⟨ha, he⟩ | ⟨hr, he⟩ | ⟨hc, he⟩ |
      ⟨-, -, he⟩ <;> rw [he]
  · exact .inl rfl
  · exact .inl rfl
  · exact .inl (hdrop hb.1)
  · have hl : identifier < f.length := by have := ha.1; omega
    have hnew : Slots.find Assembly.id x [opened f] = none := by
      rw [Slots.find_cons]
      exact if_neg (hne hl).symm
    have happend (l : List Assembly) :
        Slots.find Assembly.id x (l ++ [opened f]) = Slots.find Assembly.id x l := by
      rw [Slots.find_append, hnew, Option.or_none]
    rw [first_of_accepted ha]
    by_cases hfull : (r.drop (source_id f)).assemblies.length = max_conversations
    · have hcrowd := h.length_drop ha hfull
      have hsame : r.drop (source_id f) = r := by
        rw [IsoTpReassembler.drop, Slots.drop_of_find_none hcrowd.2.1]
      rw [if_pos hfull, hsame]
      change Slots.find Assembly.id x (_ ++ [opened f]) = _ ∨
        _ ∧ _ ∧ Slots.find Assembly.id x (_ ++ [opened f]) = _
      rw [happend, IsoTpReassembler.find]
      have hn := h.nodup
      unfold ids at hn ⊢
      cases hl : r.assemblies with
      | nil => exact .inl rfl
      | cons a l =>
          rw [hl] at hn
          obtain ⟨hnot, -⟩ := List.nodup_cons.mp hn
          rw [List.tail_cons, Slots.find_cons]
          by_cases hax : a.id = x
          · refine .inr ⟨hcrowd, by rw [Slots.keys, List.map_cons, List.head?_cons, hax], ?_⟩
            rw [Slots.find_eq_none, ← hax]
            exact hnot
          · exact .inl (if_neg hax).symm
    · simp only [if_neg hfull]
      left
      change Slots.find Assembly.id x (_ ++ [opened f]) = _
      rw [happend]
      exact hdrop hl
  · exact .inl (hdrop hr.1)
  · left
    cases hf : r.find (source_id f) with
    | none => rw [consecutive_of_find_none hf]
    | some a =>
        rw [consecutive_of_find hf]
        split
        · exact hdrop hc.1
        · split
          · have hid : a.id = source_id f := Slots.key_of_find hf
            apply Slots.find_put_of_ne
            rw [Assembly.id_grow, hid]
            exact hne hc.1
          · exact hdrop hc.1
  · exact .inl rfl

/-- **The code refines independent conversations**: a frame that crowds no one
out involves the conversation of its own ID alone. -/
theorem feed_routed {r : IsoTpReassembler} (h : r.Valid) {f : Bytes} (hc : ¬ Crowds r f) :
    Demux.Routed feed frameId conversation converse r f where
  output := (feed_own h f).1
  own := (feed_own h f).2
  others := by
    intro k hk
    cases k with
    | none => rfl
    | some x =>
        rcases find_feed_of_ne h (Ne.symm hk) with he | ⟨hcrowd, -⟩
        · exact he
        · exact absurd hcrowd hc

end Mongoose
