import Mongoose.IsoTp.Isolation

/-!
# Mongoose.IsoTp.RoundTrip

Reassembly undoes segmentation, for up to 32 conversations at once and any
interleaving of their frames.

The round trip of one conversation is an induction over its consecutive frames
(`trace_consecutives`); interleavings then follow from projection, since 32 IDs
never crowd the table.
-/

namespace Mongoose

open IsoTpReassembler

/-! ## segmentation -/

/-- The first frame of a segmented payload: ID, twelve-bit length, six bytes. -/
def firstFrame (x : UInt32) (payload : Bytes) : Bytes :=
  idBytes x ++ [UInt8.ofNat (0x10 + payload.length / 256), UInt8.ofNat payload.length] ++
    payload.take 6

/-- The `n`-th consecutive frame: ID, sequence nibble, payload bytes. -/
def consecutiveFrame (x : UInt32) (n : Nat) (chunk : Bytes) : Bytes :=
  idBytes x ++ [UInt8.ofNat (0x20 + n % 16)] ++ chunk

/-- Consecutive frames numbered from `n`. -/
def consecutiveFrames (x : UInt32) (n : Nat) : List Bytes → List Bytes
  | [] => []
  | c :: cs => consecutiveFrame x n c :: consecutiveFrames x (n + 1) cs

/-- The frames are a segmentation of the payload of `x`: a first frame, then
consecutive frames of one to seven payload bytes each, the last one padded
with anything. -/
def Segmentation (x : UInt32) (payload : Bytes) (frames : List Bytes) : Prop :=
  ∃ chunks last pad, payload.drop 6 = chunks.flatten ++ last ∧
    (∀ c ∈ chunks ++ [last], 1 ≤ c.length ∧ c.length ≤ 7) ∧
    frames = firstFrame x payload :: consecutiveFrames x 1 (chunks ++ [last ++ pad])

/-- The frames of some chunks, then those of the others. -/
theorem consecutiveFrames_append (x : UInt32) (n : Nat) (cs ds : List Bytes) :
    consecutiveFrames x n (cs ++ ds) =
      consecutiveFrames x n cs ++ consecutiveFrames x (n + cs.length) ds := by
  induction cs generalizing n with
  | nil => rfl
  | cons c cs ih =>
      rw [List.cons_append, consecutiveFrames, consecutiveFrames, ih, List.length_cons,
        List.cons_append, show n + 1 + cs.length = n + (cs.length + 1) by omega]

/-! ## the frames, as the code reads them -/

/-- A consecutive frame carries its ID, -/
@[simp] theorem frameId_consecutiveFrame (x : UInt32) (n : Nat) (c : Bytes) :
    frameId (consecutiveFrame x n c) = some x := by
  rw [consecutiveFrame, List.append_assoc, frameId_idBytes]

/-- its number, -/
theorem pci_consecutiveFrame (x : UInt32) (n : Nat) (c : Bytes) :
    pci (consecutiveFrame x n c) = 0x20 + n % 16 := by
  simp [pci, consecutiveFrame, idBytes, identifier]
  omega

/-- and its chunk. -/
theorem length_consecutiveFrame (x : UInt32) (n : Nat) (c : Bytes) :
    (consecutiveFrame x n c).length = identifier + 1 + c.length := by
  simp [consecutiveFrame, idBytes, identifier]
  omega

/-- It is one. -/
theorem isConsecutive_consecutiveFrame (x : UInt32) (n : Nat) (c : Bytes) :
    IsConsecutive (consecutiveFrame x n c) := by
  refine ⟨?_, ?_⟩
  · rw [length_consecutiveFrame]; omega
  · rw [frameType, pci_consecutiveFrame]; omega

theorem drop_consecutiveFrame (x : UInt32) (n : Nat) (c : Bytes) :
    (consecutiveFrame x n c).drop (identifier + 1) = c := rfl

/-- The conversation of `x` that holds `got` of `L` payload bytes and expects the
`n`-th consecutive frame. -/
def holding (x : UInt32) (got : Bytes) (L n : Nat) : Assembly :=
  { id := x, message := idBytes x ++ got, expected := L, sequence := n % 16 }

section firstFrame

variable {x : UInt32} {payload : Bytes}

/-- A first frame announces the length of the payload. -/
theorem announced_firstFrame (h : payload.length ≤ max_message) :
    announced (firstFrame x payload) = payload.length := by
  unfold max_message at h
  simp [announced, pci, firstFrame, idBytes, identifier]
  omega

/-- It is accepted if the payload needs more than one frame and is not too long. -/
theorem acceptedFirst_firstFrame (h8 : 8 ≤ payload.length) (h : payload.length ≤ max_message) :
    AcceptedFirst (firstFrame x payload) := by
  refine ⟨?_, ?_, ?_, ?_⟩
  · simp [firstFrame, idBytes, identifier]
  · unfold max_message at h
    simp [frameType, pci, firstFrame, idBytes, identifier]
    omega
  · rw [announced_firstFrame h]; exact h8
  · rw [announced_firstFrame h]; exact h

/-- It opens a conversation with the first bytes of the payload. -/
theorem opened_firstFrame (h8 : 8 ≤ payload.length) (h : payload.length ≤ max_message) :
    opened (firstFrame x payload) = holding x (payload.take 6) payload.length 1 := by
  have hid : source_id (firstFrame x payload) = x := by
    rw [firstFrame, List.append_assoc, source_id_idBytes]
  have hdata : (firstFrame x payload).drop (identifier + 2) = payload.take 6 := rfl
  have hwith : with_identifier (firstFrame x payload) = idBytes x := rfl
  rw [opened, hid, hdata, hwith, announced_firstFrame h]
  rw [List.take_of_length_le (by rw [List.length_take]; omega)]
  rfl

end firstFrame

/-! ## one conversation -/

@[simp] theorem expected_holding (x : UInt32) (got : Bytes) (L n : Nat) :
    (holding x got L n).expected = L := rfl

theorem received_holding (x : UInt32) (got : Bytes) (L n : Nat) :
    (holding x got L n).received = got.length := by
  simp [Assembly.received, holding, identifier]

/-- The next frame of the payload is taken. -/
theorem takes_holding {x : UInt32} {got chunk : Bytes} {L n : Nat} (h : 1 ≤ chunk.length) :
    (holding x got L n).Takes (consecutiveFrame x n chunk) := by
  refine ⟨?_, ?_⟩
  · rw [length_consecutiveFrame]; omega
  · change pci (consecutiveFrame x n chunk) % 16 = n % 16
    rw [pci_consecutiveFrame]; omega

/-- A frame adds the payload it carries; padding past the announced length is cut. -/
theorem grow_holding {x : UInt32} {got chunk pad : Bytes} {L n : Nat}
    (h : min (chunk ++ pad).length (L - got.length) = chunk.length) :
    (holding x got L n).grow (consecutiveFrame x n (chunk ++ pad)) =
      holding x (got ++ chunk) L (n + 1) := by
  rw [Assembly.grow, received_holding, drop_consecutiveFrame, holding, holding, h, List.take_left,
    List.append_assoc, show (n % 16 + 1) % 16 = (n + 1) % 16 by omega]

/-- **Consecutive frames complete the message**: from an assembly that holds
`got`, frames that carry the rest of the payload are silent up to the last,
which delivers the ID and the whole payload and ends the conversation. -/
theorem trace_consecutives (x : UInt32) (chunks : List Bytes) (last pad got : Bytes) (n : Nat)
    (hchunks : ∀ c ∈ chunks ++ [last], 1 ≤ c.length) (L : Nat)
    (hL : (got ++ chunks.flatten ++ last).length = L) :
    Demux.trace converse (some (holding x got L n))
        (consecutiveFrames x n (chunks ++ [last ++ pad])) =
      ((consecutiveFrames x n chunks).map (·, []) ++
        [(consecutiveFrame x (n + chunks.length) (last ++ pad),
          [{ data := idBytes x ++ (got ++ chunks.flatten ++ last) }])], none) := by
  induction chunks generalizing got n with
  | nil =>
      have h1 := hchunks last (by simp)
      simp only [List.flatten_nil, List.append_nil, List.length_append] at hL
      have htakes : (holding x got L n).Takes (consecutiveFrame x n (last ++ pad)) :=
        takes_holding (by rw [List.length_append]; omega)
      have hgrow : (holding x got L n).grow (consecutiveFrame x n (last ++ pad)) =
          holding x (got ++ last) L (n + 1) :=
        grow_holding (by rw [List.length_append]; omega)
      have hdone : ¬ (holding x (got ++ last) L (n + 1)).received < L := by
        rw [received_holding, List.length_append]; omega
      simp only [List.nil_append, consecutiveFrames, Demux.trace_cons, Demux.trace_nil,
        converse_some_of_consecutive _ (isConsecutive_consecutiveFrame x n _), continued,
        if_neg (not_not_intro htakes), hgrow, expected_holding, if_neg hdone]
      simp [holding]
  | cons c chunks ih =>
      have hc := hchunks c (by simp)
      have hlast := hchunks last (by simp)
      simp only [List.flatten_cons, List.length_append] at hL
      have htakes : (holding x got L n).Takes (consecutiveFrame x n c) := takes_holding hc
      have hgrow : (holding x got L n).grow (consecutiveFrame x n c) =
          holding x (got ++ c) L (n + 1) := by
        have htake : min (c ++ []).length (L - got.length) = c.length := by
          rw [List.append_nil]; omega
        simpa only [List.append_nil] using @grow_holding x got c [] L n htake
      have hmore : (holding x (got ++ c) L (n + 1)).received < L := by
        rw [received_holding, List.length_append]; omega
      have ih := ih (got ++ c) (n + 1) (fun d hd => hchunks d (List.mem_cons_of_mem c hd))
        (by simp only [List.length_append]; omega)
      simp only [List.cons_append, consecutiveFrames, Demux.trace_cons,
        converse_some_of_consecutive _ (isConsecutive_consecutiveFrame x n c), continued,
        if_neg (not_not_intro htakes), hgrow, expected_holding, if_pos hmore, ih]
      simp [Nat.add_assoc, Nat.add_comm 1]

/-- **Round trip of one conversation**: an indication at the first frame, the
payload behind its ID at the last, nothing in between, nothing left. -/
theorem trace_segmentation {x : UInt32} {payload : Bytes} {frames : List Bytes}
    (h8 : 8 ≤ payload.length) (hmax : payload.length ≤ max_message)
    (hseg : Segmentation x payload frames) :
    ∃ head middle last, frames = head :: middle ++ [last] ∧
      Demux.trace converse none frames =
        ((head, [{ rx_status := START_OF_MESSAGE, data := idBytes x }]) ::
          middle.map (·, []) ++ [(last, [{ data := idBytes x ++ payload }])], none) := by
  obtain ⟨chunks, last, pad, hdrop, hchunks, rfl⟩ := hseg
  have hsplit : payload.take 6 ++ chunks.flatten ++ last = payload := by
    rw [List.append_assoc, ← hdrop, List.take_append_drop]
  have hstart : startOutput (firstFrame x payload) =
      { rx_status := START_OF_MESSAGE, data := idBytes x } := rfl
  have hrest := trace_consecutives x chunks last pad (payload.take 6) 1
    (fun c hc => (hchunks c hc).1) payload.length (by rw [hsplit])
  refine ⟨firstFrame x payload, consecutiveFrames x 1 chunks,
    consecutiveFrame x (1 + chunks.length) (last ++ pad), ?_, ?_⟩
  · rw [consecutiveFrames_append]
    rfl
  · rw [Demux.trace_cons, converse_of_accepted _ (acceptedFirst_firstFrame h8 hmax),
      opened_firstFrame h8 hmax, hstart]
    simp only [hrest, hsplit]
    rfl

/-! ## interleaved conversations -/

/-- **Reassembly undoes segmentation under any interleaving.**  Take at most 32
IDs, a payload of 8..4095 bytes and a segmentation of it for each, and any
sequence of frames whose frames of each ID are that ID's segmentation in order.
Fed to an empty reassembler, each ID gets one start-of-message indication at
its first frame and one message at its last, nothing else comes out, and no
conversation is left. -/
theorem interleaved_segmentations (ids : Finset UInt32) (hcard : ids.card ≤ 32)
    (payload : UInt32 → Bytes) (frames : UInt32 → List Bytes)
    (hlen : ∀ x ∈ ids, 8 ≤ (payload x).length ∧ (payload x).length ≤ 4095)
    (hseg : ∀ x ∈ ids, Segmentation x (payload x) (frames x))
    (mixed : List Bytes) (hmem : ∀ f ∈ mixed, ∃ x ∈ ids, frameId f = some x)
    (horder : ∀ x ∈ ids, mixed.filter (fun f => frameId f = some x) = frames x) :
    (∀ x ∈ ids, ∃ head middle last, frames x = head :: middle ++ [last] ∧
      (trace {} mixed).1.filter (fun p => frameId p.1 = some x) =
        (head, [{ rx_status := START_OF_MESSAGE, data := idBytes x }]) ::
          middle.map (·, []) ++ [(last, [{ data := idBytes x ++ payload x }])]) ∧
      (run {} mixed).assemblies = [] := by
  have hrouted := allRouted_of_card_le hcard hmem
  have hproj (x : UInt32) := Demux.filter_trace hrouted (some x)
  refine ⟨fun x hx => ?_, ?_⟩
  · obtain ⟨head, middle, last, hframes, htrace⟩ :=
      trace_segmentation (hlen x hx).1 (hlen x hx).2 (hseg x hx)
    refine ⟨head, middle, last, hframes, ?_⟩
    have := (hproj x).1
    rw [horder x hx] at this
    exact this.trans (congrArg Prod.fst htrace)
  · -- an assembly left over would be a conversation of one of the IDs, and those all ended
    have hv : (run {} mixed).Valid := valid_run valid_empty mixed
    rw [List.eq_nil_iff_forall_not_mem]
    intro a ha
    have hfind : (run {} mixed).find a.id = some a := Slots.find_of_mem hv.nodup ha
    have hid : a.id ∈ ids :=
      ids_run_subset hmem a.id (List.mem_map_of_mem (f := Assembly.id) ha)
    obtain ⟨head, middle, last, -, htrace⟩ :=
      trace_segmentation (hlen a.id hid).1 (hlen a.id hid).2 (hseg a.id hid)
    have := (hproj a.id).2
    rw [horder a.id hid] at this
    have hnone : (run {} mixed).find a.id = none := this.trans (congrArg Prod.snd htrace)
    rw [hfind] at hnone
    cases hnone

/-- Two ECUs whose frames alternate; the second pads its last frame. -/
theorem interleaved_two :
    (trace {} [[0, 0, 7, 0xe8, 0x10, 8, 1, 2, 3, 4, 5, 6], [0, 0, 7, 0xe9, 0x10, 9, 9, 8, 7, 6, 5, 4],
        [0, 0, 7, 0xe8, 0x21, 7, 8], [0, 0, 7, 0xe9, 0x21, 3, 2, 1, 0xaa]]).1.filter
          (fun p => frameId p.1 = some 0x7e9) =
      [([0, 0, 7, 0xe9, 0x10, 9, 9, 8, 7, 6, 5, 4],
          [{ rx_status := START_OF_MESSAGE, data := [0, 0, 7, 0xe9] }]),
        ([0, 0, 7, 0xe9, 0x21, 3, 2, 1, 0xaa],
          [{ data := [0, 0, 7, 0xe9, 9, 8, 7, 6, 5, 4, 3, 2, 1] }])] := by
  have hpair (x : UInt32) (hx : x ∈ ({0x7e8, 0x7e9} : Finset UInt32)) : x = 0x7e8 ∨ x = 0x7e9 := by
    simpa using hx
  obtain ⟨hout, -⟩ := interleaved_segmentations {0x7e8, 0x7e9} (by decide)
    (fun x => if x = 0x7e8 then [1, 2, 3, 4, 5, 6, 7, 8] else [9, 8, 7, 6, 5, 4, 3, 2, 1])
    (fun x => if x = 0x7e8 then
        [[0, 0, 7, 0xe8, 0x10, 8, 1, 2, 3, 4, 5, 6], [0, 0, 7, 0xe8, 0x21, 7, 8]]
      else
        [[0, 0, 7, 0xe9, 0x10, 9, 9, 8, 7, 6, 5, 4], [0, 0, 7, 0xe9, 0x21, 3, 2, 1, 0xaa]])
    (fun x hx => by obtain rfl | rfl := hpair x hx <;> decide)
    (fun x hx => by
      obtain rfl | rfl := hpair x hx
      · exact ⟨[], [7, 8], [], by decide, by decide, by decide⟩
      · exact ⟨[], [3, 2, 1], [0xaa], by decide, by decide, by decide⟩)
    [[0, 0, 7, 0xe8, 0x10, 8, 1, 2, 3, 4, 5, 6], [0, 0, 7, 0xe9, 0x10, 9, 9, 8, 7, 6, 5, 4],
      [0, 0, 7, 0xe8, 0x21, 7, 8], [0, 0, 7, 0xe9, 0x21, 3, 2, 1, 0xaa]]
    (by
      simp only [List.forall_mem_cons]
      exact ⟨⟨0x7e8, by decide, by decide⟩, ⟨0x7e9, by decide, by decide⟩,
        ⟨0x7e8, by decide, by decide⟩, ⟨0x7e9, by decide, by decide⟩, by simp⟩)
    (fun x hx => by obtain rfl | rfl := hpair x hx <;> decide)
  obtain ⟨head, middle, last, hframes, htrace⟩ := hout 0x7e9 (by decide)
  rw [htrace]
  cases middle with
  | nil =>
      obtain ⟨rfl, rfl⟩ : _ = head ∧ _ = last := by simpa using hframes
      rfl
  | cons f fs => simp at hframes

end Mongoose
