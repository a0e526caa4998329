import Mongoose.Can.Inbound
import Mongoose.Codec.Stream
import Mongoose.IsoTp.Conversation

/-!
# Mongoose.Checked

The inbound path with every access checked.

The source indexes, slices, copies and subtracts without a check of its own where an
earlier check makes that safe.  Here each of these throws when it is out of range, and
the functions of the inbound path are written once more over them, access by access.
`checked_feed_eq` and its like say that nothing is thrown, and what is computed.
-/

namespace Mongoose

namespace Checked

/-! ## accesses -/

/-- `d[i]`. -/
def index (d : Bytes) (i : Nat) : Except Exception UInt8 :=
  if i < d.length then pure (d.getD i 0) else throw (.out_of_range "index")

/-- The bytes from `o` on, `n` of them. -/
def slice (d : Bytes) (o n : Nat) : Except Exception Bytes :=
  if o + n ≤ d.length then pure ((d.drop o).take n) else throw (.out_of_range "slice")

/-- `d.subspan(o)`. -/
def rest (d : Bytes) (o : Nat) : Except Exception Bytes :=
  if o ≤ d.length then pure (d.drop o) else throw (.out_of_range "subspan")

/-- A subtraction of sizes, which wraps below zero. -/
def minus (a b : Nat) : Except Exception Nat :=
  if b ≤ a then pure (a - b) else throw (.out_of_range "subtraction")

/-- The first `n` bytes copied into a zeroed array of a fixed size. -/
def copy (capacity : Nat) (bytes : Bytes) (n : Nat) : Except Exception Bytes :=
  if n ≤ bytes.length ∧ n ≤ capacity then
    pure (bytes.take n ++ List.replicate (capacity - n) 0)
  else throw (.out_of_range "copy")

section accesses

variable {d : Bytes} {i o n a b : Nat} {α : Type}

/-- An index in range is read. -/
theorem index_eq (f : UInt8 → Except Exception α) (h : i < d.length) :
    (index d i >>= f) = f (d.getD i 0) := by
  rw [index, if_pos h]
  rfl

/-- A slice in range is. -/
theorem slice_eq (f : Bytes → Except Exception α) (h : o + n ≤ d.length) :
    (slice d o n >>= f) = f ((d.drop o).take n) := by
  rw [slice, if_pos h]
  rfl

/-- So is what follows an offset in range. -/
theorem rest_eq (f : Bytes → Except Exception α) (h : o ≤ d.length) :
    (rest d o >>= f) = f (d.drop o) := by
  rw [rest, if_pos h]
  rfl

/-- A difference that does not wrap round. -/
theorem minus_eq (f : Nat → Except Exception α) (h : b ≤ a) : (minus a b >>= f) = f (a - b) := by
  rw [minus, if_pos h]
  rfl

/-- A copy that fits. -/
theorem copy_eq (f : Bytes → Except Exception α) {capacity : Nat} (h : n ≤ d.length)
    (hn : n ≤ capacity) :
    (copy capacity d n >>= f) = f (d.take n ++ List.replicate (capacity - n) 0) := by
  rw [copy, if_pos ⟨h, hn⟩]
  rfl

end accesses

/-! ## the decoder -/

/-- `Decoder.drain`. -/
def drain (d : Decoder) (frames : List Bytes) : Except Exception (List Bytes × Decoder) :=
  if 4 ≤ d.buffer.length then do
    let n ← le16 d.buffer 0
    let check ← le16 d.buffer 2
    if n = 0 ∨ n > max_body ∨ check ≠ n ^^^ key then
      drain { buffer := d.buffer.drop 1, discarded := d.discarded + 1 } frames
    else if d.buffer.length < n + 4 then
      pure (frames, d)
    else do
      let body ← slice d.buffer 4 n
      -- the erased range ends where the body does
      let _ ← slice d.buffer 0 (4 + n)
      drain { d with buffer := d.buffer.drop (n + 4) } (frames ++ [body])
  else pure (frames, d)
termination_by d.buffer.length
decreasing_by all_goals (simp only [List.length_drop]; omega)

/-- `Decoder.feed`. -/
def feed_bytes (d : Decoder) (bytes : Bytes) : Except Exception (List Bytes × Decoder) :=
  bytes.foldlM (fun r b => drain { r.2 with buffer := r.2.buffer ++ [b] } r.1) ([], d)

/-- The slices of a frame are within the buffer that was found long enough for it. -/
theorem drain_eq (d : Decoder) (frames : List Bytes) : drain d frames = d.drain frames := by
  rw [drain, Decoder.drain]
  split
  · next h =>
      rw [CanReceiver.le16_bind _ (by omega), CanReceiver.le16_bind _ (by omega),
        CanReceiver.le16_bind _ (by omega), CanReceiver.le16_bind _ (by omega)]
      split
      · exact drain_eq _ frames
      · split
        · rfl
        · rw [slice_eq _ (by omega), slice_eq _ (by omega)]
          exact drain_eq _ _
  · rfl
termination_by d.buffer.length
decreasing_by all_goals (simp only [List.length_drop]; omega)

/-- No byte of the stream is read out of bounds. -/
theorem feed_bytes_eq (d : Decoder) (bytes : Bytes) : feed_bytes d bytes = d.feed bytes := by
  simp only [feed_bytes, drain_eq]
  rfl

/-- Any bytes are decoded, whatever the buffer holds. -/
theorem feed_bytes_total (d : Decoder) (bytes : Bytes) : ∃ r, feed_bytes d bytes = .ok r := by
  suffices h : ∀ r : List Bytes × Decoder, ∃ t, bytes.foldlM Decoder.push r = .ok t by
    rw [feed_bytes_eq]
    exact h ([], d)
  induction bytes with
  | nil => exact fun r => ⟨r, rfl⟩
  | cons b bytes ih =>
      intro r
      obtain ⟨t, ht⟩ := ih (r.1 ++ _, _)
      exact ⟨t, by rw [List.foldlM_cons, Decoder.push, Decoder.drain_eq_scan]; exact ht⟩

/-! ## the reassembler -/

open IsoTpReassembler

/-- `source_id`. -/
def source_id (frame : Bytes) : Except Exception UInt32 := do
  let a ← index frame 0
  let b ← index frame 1
  let c ← index frame 2
  let d ← index frame 3
  pure (UInt32.ofNat (a.toNat * 2 ^ 24 + b.toNat * 2 ^ 16 + c.toNat * 2 ^ 8 + d.toNat))

/-- `with_identifier`. -/
def with_identifier (frame : Bytes) : Except Exception Bytes := slice frame 0 identifier

/-- `IsoTpReassembler::single`. -/
def single (r : IsoTpReassembler) (frame : Bytes) : Except Exception (List Output × IsoTpReassembler) := do
  let id ← source_id frame
  if frame.length < identifier + 1 then pure ([], r.drop id)
  else do
    let pci ← index frame identifier
    let length := pci.toNat % 16
    if length > single_limit then pure ([], r.drop id)
    else do
      let held ← minus frame.length identifier
      let held ← minus held 1
      if length > held then pure ([], r.drop id)
      else do
        let address ← with_identifier frame
        let payload ← slice frame (identifier + 1) length
        pure ([{ data := address ++ payload }], r)

/-- `IsoTpReassembler::first`. -/
def first (r : IsoTpReassembler) (frame : Bytes) : Except Exception (List Output × IsoTpReassembler) := do
  if frame.length < identifier + 2 then pure ([], r)
  else do
    let high ← index frame identifier
    let low ← index frame (identifier + 1)
    let announced := high.toNat % 16 * 256 + low.toNat
    if announced < segmented_minimum ∨ announced > max_message then pure ([], r)
    else do
      let id ← source_id frame
      let address ← with_identifier frame
      let payload ← rest frame (identifier + 2)
      let taken ← slice payload 0 (min payload.length announced)
      let assembly : Assembly :=
        { id := id, message := address ++ taken, expected := announced, sequence := 1 }
      let kept :=
        if r.assemblies.length = max_conversations then r.assemblies.tail else r.assemblies
      pure ([{ rx_status := START_OF_MESSAGE, data := address }], { assemblies := kept ++ [assembly] })

/-- `IsoTpReassembler::consecutive`. -/
def consecutive (r : IsoTpReassembler) (frame : Bytes) :
    Except Exception (List Output × IsoTpReassembler) := do
  let id ← source_id frame
  match r.find id with
  | none => pure ([], r)
  | some found =>
      if frame.length < identifier + 2 then pure ([], r.drop id)
      else do
        let pci ← index frame identifier
        if pci.toNat % 16 ≠ found.sequence then pure ([], r.drop id)
        else do
          let payload ← rest frame (identifier + 1)
          let held ← minus found.message.length identifier
          let outstanding ← minus found.expected held
          let taken ← slice payload 0 (min payload.length outstanding)
          let grown : Assembly :=
            { found with sequence := (found.sequence + 1) % 16, message := found.message ++ taken }
          let held ← minus grown.message.length identifier
          if held < grown.expected then
            pure ([], { assemblies := Slots.put Assembly.id grown r.assemblies })
          else pure ([{ data := grown.message }], r.drop id)

/-- `IsoTpReassembler::feed`. -/
def feed (r : IsoTpReassembler) (frame : Bytes) : Except Exception (List Output × IsoTpReassembler) :=
  if frame.length ≤ identifier then pure ([], r)
  else do
    let pci ← index frame identifier
    let type := pci.toNat / 16
    let id ← source_id frame
    match r.find id with
    | none =>
        if type = 0 then single r frame
        else if type = 1 then first r frame
        else pure ([], r)
    | some _ =>
        match type with
        | 0 => single r frame
        | 1 => first (r.drop id) frame
        | 2 => consecutive r frame
        | _ => pure ([], r)

section reassembler

variable {r : IsoTpReassembler} {frame : Bytes}

/-- Nor of an ID, -/
theorem source_id_eq {α : Type} (f : UInt32 → Except Exception α) (h : identifier ≤ frame.length) :
    (source_id frame >>= f) = f (Mongoose.source_id frame) := by
  unfold identifier at h
  simp only [source_id, bind_assoc]
  rw [index_eq _ (by omega), index_eq _ (by omega), index_eq _ (by omega), index_eq _ (by omega)]
  rfl

/-- with its bytes, -/
theorem with_identifier_eq {α : Type} (f : Bytes → Except Exception α) (h : identifier ≤ frame.length) :
    (with_identifier frame >>= f) = f (Mongoose.with_identifier frame) := by
  rw [with_identifier, slice_eq _ (by omega)]
  rfl

/-- of a single frame, -/
theorem single_eq (r : IsoTpReassembler) (h : identifier < frame.length) :
    single r frame = .ok (r.single frame) := by
  rw [single, source_id_eq _ (by omega), IsoTpReassembler.single, if_neg (by omega), if_neg (by omega),
    index_eq _ h]
  change (if pci frame % 16 > single_limit then _ else _) =
    Except.ok (if pci frame % 16 > single_limit then _
      else if pci frame % 16 > frame.length - identifier - 1 then _ else _)
  by_cases hlimit : pci frame % 16 > single_limit
  · rw [if_pos hlimit, if_pos hlimit]
    rfl
  rw [if_neg hlimit, if_neg hlimit, minus_eq _ (by omega), minus_eq _ (by omega)]
  change (if pci frame % 16 > _ then _ else _) = _
  by_cases hheld : pci frame % 16 > frame.length - identifier - 1
  · rw [if_pos hheld, if_pos hheld]
    rfl
  rw [if_neg hheld, if_neg hheld, with_identifier_eq _ (by omega)]
  change (slice frame (identifier + 1) (pci frame % 16) >>= _) = _
  rw [slice_eq _ (by omega)]
  rfl

/-- of a first frame, -/
theorem first_eq (r : IsoTpReassembler) (frame : Bytes) : first r frame = .ok (r.first frame) := by
  rw [first, IsoTpReassembler.first]
  split
  · rfl
  · next h =>
      rw [index_eq _ (by omega), index_eq _ (by omega)]
      change (if announced frame < segmented_minimum ∨ announced frame > max_message then _ else _) =
        Except.ok (if announced frame < segmented_minimum ∨ announced frame > max_message then _ else _)
      split
      · rfl
      · rw [source_id_eq _ (by omega), with_identifier_eq _ (by omega), rest_eq _ (by omega),
          slice_eq _ (by omega)]
        rfl

/-- The subtraction is that of an assembly that has no more than was announced. -/
theorem consecutive_eq (hr : r.Valid) (h : identifier < frame.length) :
    consecutive r frame = .ok (r.consecutive frame) := by
  rw [consecutive, source_id_eq _ (by omega), IsoTpReassembler.consecutive]
  cases hf : r.find (Mongoose.source_id frame) with
  | none => rfl
  | some found =>
      have hv := hr.assemblies found (Slots.mem_of_find hf)
      have hlen := hv.length_message
      have hreceived := hv.received_le
      unfold Assembly.received at hreceived
      dsimp only
      split
      · rfl
      · rw [index_eq _ h]
        change (if pci frame % 16 ≠ _ then _ else _) = _
        split
        · rfl
        · rw [rest_eq _ (by omega), minus_eq _ hlen, minus_eq _ hreceived, slice_eq _ (by omega),
            minus_eq _ (by simp only [List.length_append]; omega), List.drop_zero]
          split <;> rfl

/-- or of any frame. -/
theorem feed_eq (hr : r.Valid) (frame : Bytes) : feed r frame = .ok (r.feed frame) := by
  rw [feed, IsoTpReassembler.feed]
  by_cases h : frame.length ≤ identifier
  · rw [if_pos h, if_pos h]
    rfl
  have hlt : identifier < frame.length := by omega
  have htype : ((frame.getD identifier 0).toNat) = pci frame := rfl
  rw [if_neg h, if_neg h, index_eq _ hlt]
  simp only [single_eq _ hlt, first_eq, consecutive_eq hr hlt, source_id_eq _ (Nat.le_of_lt hlt), htype]
  generalize pci frame / 16 = type
  cases r.find (Mongoose.source_id frame) with
  | none =>
      by_cases h0 : type = 0
      · simp [h0]
      · by_cases h1 : type = 1
        · simp [h1]
        · simp [h0, h1, pure, Except.pure]
  | some a =>
      obtain _ | _ | _ | n := type
      · rfl
      · rfl
      · rfl
      · rfl

end reassembler

end Checked

end Mongoose
