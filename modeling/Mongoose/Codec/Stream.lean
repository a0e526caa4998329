import Mongoose.Codec
import Mongoose.Lib.Scan

/-!
# Mongoose.Codec.Stream

Both decoders are one scanner.  `frameScanner` says what the front of a buffer
is; the driver's byte-by-byte `Decoder` and the probe's whole-buffer `deframe`
are its incremental and its one-shot scan, so they agree on every stream and
every chunking, and everything cut from a stream is the encoding of what was
returned.
-/

namespace Mongoose

open Scan

/-! ## the scanner behind both decoders -/

/-- The first four bytes are a header: a length in 1..6144 and its check word. -/
def IsHeader (d : Bytes) : Prop :=
  4 ≤ d.length ∧ le16At d 0 ≠ 0 ∧ le16At d 0 ≤ max_body ∧ le16At d 2 = le16At d 0 ^^^ key

instance (d : Bytes) : Decidable (IsHeader d) := inferInstanceAs (Decidable (_ ∧ _))

/-- What the front of a buffer is: too short to tell, no header, a header whose
body is incomplete, or a whole frame. -/
def frameVerdict (d : Bytes) : Verdict Bytes :=
  if d.length < 4 then .wait
  else if ¬ IsHeader d then .slide
  else if d.length < le16At d 0 + 4 then .wait
  else .item (le16At d 0 + 4) ((d.drop 4).take (le16At d 0))

/-- Being a header only depends on the first four bytes. -/
theorem isHeader_append {d : Bytes} (e : Bytes) (h : 4 ≤ d.length) :
    IsHeader (d ++ e) ↔ IsHeader d := by
  unfold IsHeader
  rw [le16At_append e (by omega), le16At_append e (by omega), List.length_append]
  constructor <;> (rintro ⟨-, hh⟩; exact ⟨by omega, hh⟩)

theorem frameVerdict_of_short {d : Bytes} (h : d.length < 4) : frameVerdict d = .wait := by
  simp [frameVerdict, h]

theorem frameVerdict_of_not_header {d : Bytes} (h4 : 4 ≤ d.length) (h : ¬ IsHeader d) :
    frameVerdict d = .slide := by
  simp [frameVerdict, h, Nat.not_lt.mpr h4]

theorem frameVerdict_of_short_body {d : Bytes} (h : IsHeader d) (hn : d.length < le16At d 0 + 4) :
    frameVerdict d = .wait := by
  simp [frameVerdict, h, hn]

theorem frameVerdict_of_frame {d : Bytes} (h : IsHeader d) (hn : le16At d 0 + 4 ≤ d.length) :
    frameVerdict d = .item (le16At d 0 + 4) ((d.drop 4).take (le16At d 0)) := by
  simp [frameVerdict, h, Nat.not_lt.mpr hn, Nat.not_lt.mpr h.1]

/-- The four cases of a verdict, each with what it says of the buffer. -/
theorem frameVerdict_cases (d : Bytes) :
    (d.length < 4 ∧ frameVerdict d = .wait) ∨
    (4 ≤ d.length ∧ ¬ IsHeader d ∧ frameVerdict d = .slide) ∨
    (IsHeader d ∧ d.length < le16At d 0 + 4 ∧ frameVerdict d = .wait) ∨
    (IsHeader d ∧ le16At d 0 + 4 ≤ d.length ∧
      frameVerdict d = .item (le16At d 0 + 4) ((d.drop 4).take (le16At d 0))) := by
  by_cases h4 : d.length < 4
  · exact .inl ⟨h4, frameVerdict_of_short h4⟩
  by_cases hh : IsHeader d
  · by_cases hn : d.length < le16At d 0 + 4
    · exact .inr (.inr (.inl ⟨hh, hn, frameVerdict_of_short_body hh hn⟩))
    · exact .inr (.inr (.inr ⟨hh, by omega, frameVerdict_of_frame hh (by omega)⟩))
  · exact .inr (.inl ⟨by omega, hh, frameVerdict_of_not_header (by omega) hh⟩)

/-- A recognised frame: its header, its length in the buffer and its body. -/
theorem of_frameVerdict_item {d b : Bytes} {n : Nat} (h : frameVerdict d = .item n b) :
    IsHeader d ∧ n ≤ d.length ∧ n = le16At d 0 + 4 ∧ b = (d.drop 4).take (le16At d 0) := by
  rcases frameVerdict_cases d with ⟨-, hv⟩ | ⟨-, -, hv⟩ | ⟨-, -, hv⟩ | ⟨hh, hn, hv⟩ <;>
    rw [hv] at h <;> cases h
  exact ⟨hh, hn, rfl, rfl⟩

/-- The frame scanner: stable, since a verdict reads the header and nothing
past the frame. -/
def frameScanner : Scanner UInt8 Bytes where
  look := frameVerdict
  ne_nil_of_slide := by
    rintro d h rfl
    simp [frameVerdict] at h
  pos_of_item := by
    intro d n b h
    have := (of_frameVerdict_item h).2.2.1
    omega
  le_length_of_item := fun h => (of_frameVerdict_item h).2.1
  stable := by
    intro d e h
    rcases frameVerdict_cases d with ⟨-, hv⟩ | ⟨h4, hh, hv⟩ | ⟨-, -, hv⟩ | ⟨hh, hn, hv⟩
    · exact absurd hv h
    · rw [hv]
      apply frameVerdict_of_not_header
      · rw [List.length_append]; omega
      · rwa [isHeader_append e h4]
    · exact absurd hv h
    · have h0 : le16At (d ++ e) 0 = le16At d 0 := le16At_append e (by have := hh.1; omega)
      have hlen : le16At (d ++ e) 0 + 4 ≤ (d ++ e).length := by
        rw [h0, List.length_append]; omega
      rw [hv, frameVerdict_of_frame ((isHeader_append e hh.1).mpr hh) hlen, h0,
        List.drop_append_of_le_length hh.1,
        List.take_append_of_le_length (by rw [List.length_drop]; omega)]

/-- A whole frame is cut where its encoding stands. -/
theorem encode_of_frameVerdict {d b : Bytes} {n : Nat} (h : frameVerdict d = .item n b) :
    encode b = .ok (d.take n) := by
  obtain ⟨⟨h4, h0, hmax, hcheck⟩, hn, rfl, rfl⟩ := of_frameVerdict_item h
  have hlen : ((d.drop 4).take (le16At d 0)).length = le16At d 0 := by
    rw [List.length_take, List.length_drop]; omega
  have hhead : header (le16At d 0) = d.take 4 := by
    rw [header, ← hcheck, bytes16_le16At (by omega), bytes16_le16At (by omega), List.drop_zero,
      ← List.take_add]
  rw [encode_of_le (by omega) (by omega), hlen, hhead, Nat.add_comm (le16At d 0) 4, List.take_add]

/-- An encoded body is recognised whatever follows it. -/
theorem frameVerdict_encode {b wire : Bytes} (e : Bytes) (h : encode b = .ok wire) :
    frameVerdict (wire ++ e) = .item wire.length b := by
  obtain ⟨hpos, hle⟩ := length_of_encode_ok h
  rw [encode_of_le hpos hle, Except.ok.injEq] at h
  subst h
  have hlt : b.length < 65536 := by unfold max_body at hle; omega
  have hxor : b.length ^^^ key < 65536 := Nat.xor_lt_two_pow (n := 16) hlt (by decide)
  have h0 : le16At (header b.length ++ b ++ e) 0 = b.length := by
    rw [List.append_assoc, header, List.append_assoc, le16At_bytes16 _ hlt]
  have h2 : le16At (header b.length ++ b ++ e) 2 = b.length ^^^ key := by
    rw [List.append_assoc, header, List.append_assoc]
    exact (le16At_append_right (d := bytes16 b.length) (Nat.le_refl 2)).trans
      (le16At_bytes16 _ hxor)
  have hlen : (header b.length ++ b ++ e).length = 4 + b.length + e.length := by
    simp [Nat.add_assoc]
  have hh : IsHeader (header b.length ++ b ++ e) := by
    refine ⟨by omega, ?_, ?_, ?_⟩
    · rw [h0]; omega
    · rw [h0]; exact hle
    · rw [h2, h0]
  have hbody : ((header b.length ++ b ++ e).drop 4).take b.length = b := by
    simp [header, bytes16]
  rw [frameVerdict_of_frame hh (by omega), h0, hbody, List.length_append, length_header,
    Nat.add_comm 4]

/-! ## the driver's decoder -/

namespace Decoder

/-- The state of a decoder that has scanned `d`: what is left and what was slid over. -/
def after (d : Decoder) (r : List (Piece UInt8 Bytes) × Bytes) : Decoder :=
  { buffer := r.2, discarded := d.discarded + skips r.1 }

/-- One turn of the inner loop, by the verdict on the buffer. -/
theorem drain_eq (d : Decoder) (frames : List Bytes) :
    d.drain frames = match frameVerdict d.buffer with
      | .wait => .ok (frames, d)
      | .slide => drain { buffer := d.buffer.tail, discarded := d.discarded + 1 } frames
      | .item n b => drain { d with buffer := d.buffer.drop n } (frames ++ [b]) := by
  rw [drain]
  by_cases h4 : 4 ≤ d.buffer.length
  · simp only [if_pos h4, le16_of_le (show 0 + 2 ≤ d.buffer.length by omega),
      le16_of_le (show 2 + 2 ≤ d.buffer.length by omega), bind, Except.bind]
    by_cases hh : IsHeader d.buffer
    · rw [if_neg (by unfold IsHeader at hh; omega)]
      by_cases hn : d.buffer.length < le16At d.buffer 0 + 4
      · rw [if_pos hn, frameVerdict_of_short_body hh hn]
        rfl
      · rw [if_neg hn, frameVerdict_of_frame hh (by omega)]
    · rw [if_pos (by unfold IsHeader at hh; omega), frameVerdict_of_not_header h4 hh,
        List.drop_one]
  · rw [if_neg h4, frameVerdict_of_short (by omega)]
    rfl

/-- The inner loop is the scan of the buffer. -/
theorem drain_eq_scan (d : Decoder) (frames : List Bytes) :
    d.drain frames = .ok (frames ++ items (frameScanner.scan d.buffer).1,
      d.after (frameScanner.scan d.buffer)) := by
  obtain ⟨buffer, discarded⟩ := d
  induction buffer using Scanner.scan.induct frameScanner generalizing discarded frames with
  | case1 buf h =>
      rw [Scanner.scan_of_wait h, drain_eq, show frameVerdict buf = .wait from h]
      simp [after]
  | case2 buf h ih =>
      obtain ⟨x, xs, rfl⟩ := List.exists_cons_of_ne_nil (frameScanner.ne_nil_of_slide h)
      rw [Scanner.scan_of_slide h, drain_eq, show frameVerdict (x :: xs) = .slide from h]
      simp only [List.tail_cons] at ih ⊢
      rw [ih]
      simp [after, Nat.add_assoc, Nat.add_comm 1]
  | case3 buf n b h ih =>
      rw [Scanner.scan_of_item h, drain_eq, show frameVerdict buf = .item n b from h]
      simp only
      rw [ih]
      simp [after]

/-- A decoder at rest waits for more input: its buffer starts no whole frame
and no slide. -/
def Settled (d : Decoder) : Prop := frameVerdict d.buffer = .wait

theorem settled_new : Settled {} := frameVerdict_of_short (by decide)

/-- Scanning leaves the decoder at rest. -/
theorem settled_after (d : Decoder) (xs : Bytes) : (d.after (frameScanner.scan xs)).Settled :=
  Scanner.look_rest_scan (S := frameScanner) xs

/-- **A chunk is one scan** of the retained buffer followed by the chunk. -/
theorem feed_eq_scan {d : Decoder} (hd : d.Settled) (chunk : Bytes) :
    d.feed chunk = .ok (items (frameScanner.scan (d.buffer ++ chunk)).1,
      d.after (frameScanner.scan (d.buffer ++ chunk))) := by
  -- the frames accumulated so far are generalised, since the loop threads them
  suffices h : ∀ (frames : List Bytes), chunk.foldlM push (frames, d) =
      .ok (frames ++ items (frameScanner.scan (d.buffer ++ chunk)).1,
        d.after (frameScanner.scan (d.buffer ++ chunk))) from h []
  induction chunk generalizing d with
  | nil =>
      intro frames
      rw [List.append_nil, Scanner.scan_of_wait (S := frameScanner) hd]
      simp [after, pure, Except.pure]
  | cons b chunk ih =>
      intro frames
      rw [List.foldlM_cons, push, drain_eq_scan]
      simp only [bind, Except.bind]
      rw [ih (settled_after _ _), show d.buffer ++ b :: chunk = d.buffer ++ [b] ++ chunk by simp,
        Scanner.scan_append (d.buffer ++ [b]) chunk]
      simp [after, Nat.add_assoc]

/-- Feeding chunks is feeding the scanner. -/
theorem feedAll_eq {d : Decoder} (hd : d.Settled) (chunks : List Bytes) :
    d.feedAll chunks = .ok (items (frameScanner.feedAll d.buffer chunks).1,
      d.after (frameScanner.feedAll d.buffer chunks)) := by
  induction chunks generalizing d with
  | nil => simp [feedAll, Scanner.feedAll, after, pure, Except.pure]
  | cons c cs ih =>
      rw [feedAll, feed_eq_scan hd]
      simp only [bind, Except.bind]
      rw [ih (settled_after _ _), Scanner.feedAll]
      simp [after, Nat.add_assoc, pure, Except.pure]

/-- **Chunking is immaterial**: feeding chunks is one scan of the whole. -/
theorem feedAll_eq_scan {d : Decoder} (hd : d.Settled) (chunks : List Bytes) :
    d.feedAll chunks = .ok (items (frameScanner.scan (d.buffer ++ chunks.flatten)).1,
      d.after (frameScanner.scan (d.buffer ++ chunks.flatten))) := by
  rw [feedAll_eq hd, Scanner.feedAll_eq_scan (S := frameScanner) hd]

/-- At rest, the buffer is short or an incomplete frame, so never over 6147 bytes. -/
theorem Settled.bounds {d : Decoder} (hd : d.Settled) :
    (d.buffer.length < 4 ∨ IsHeader d.buffer ∧ d.buffer.length < le16At d.buffer 0 + 4) ∧
      d.buffer.length ≤ max_body + 3 := by
  rcases frameVerdict_cases d.buffer with ⟨h4, -⟩ | ⟨-, -, hv⟩ | ⟨hh, hn, -⟩ | ⟨-, -, hv⟩
  · exact ⟨.inl h4, by unfold max_body; omega⟩
  · cases hv.symm.trans hd
  · have := hh.2.2.1
    exact ⟨.inr ⟨hh, hn⟩, by omega⟩
  · cases hv.symm.trans hd

end Decoder

/-! ## the probe's decoder -/

namespace Probe

/-- One turn of the probe's loop, by the verdict on what follows its offset. -/
theorem deframeLoop_eq (buffer : Bytes) (payloads : List Bytes) (offset slides : Nat) :
    deframeLoop buffer payloads offset slides = match frameVerdict (buffer.drop offset) with
      | .wait => (payloads, slides, buffer.drop offset)
      | .slide => deframeLoop buffer payloads (offset + 1) (slides + 1)
      | .item n b => deframeLoop buffer (payloads ++ [b]) (offset + n) slides := by
  have hlen : (buffer.drop offset).length = buffer.length - offset := List.length_drop
  have h0 : le16At (buffer.drop offset) 0 = le16At buffer offset := le16At_drop buffer offset 0
  have h2 : le16At (buffer.drop offset) 2 = le16At buffer (offset + 2) := le16At_drop buffer offset 2
  have hxor : le16At buffer (offset + 2) ^^^ key = le16At buffer offset ↔
      le16At buffer (offset + 2) = le16At buffer offset ^^^ key := by
    constructor <;> intro h
    · rw [← h, Nat.xor_assoc, Nat.xor_self, Nat.xor_zero]
    · rw [h, Nat.xor_assoc, Nat.xor_self, Nat.xor_zero]
  rw [deframeLoop]
  by_cases h4 : offset + HEADER_LEN ≤ buffer.length
  · simp only [if_pos h4]
    unfold HEADER_LEN at h4 ⊢
    by_cases hh : IsHeader (buffer.drop offset)
    · obtain ⟨-, hz, hmax, hcheck⟩ := id hh
      rw [h0] at hz hmax hcheck
      rw [h2] at hcheck
      have hgood : ¬ (le16At buffer offset = 0 ∨ le16At buffer offset > MAX_PAYLOAD ∨
          le16At buffer (offset + 2) ^^^ KEY ≠ le16At buffer offset) := by
        rintro (h | h | h)
        · exact hz h
        · exact absurd hmax (Nat.not_le.mpr h)
        · exact h (hxor.mpr hcheck)
      rw [if_neg hgood]
      by_cases hn : (buffer.drop offset).length < le16At (buffer.drop offset) 0 + 4
      · rw [frameVerdict_of_short_body hh hn, if_pos (by omega)]
      · rw [frameVerdict_of_frame hh (by omega), if_neg (by omega), h0, List.drop_drop]
        simp only [Nat.add_comm (le16At buffer offset) 4]
    · have hbad : le16At buffer offset = 0 ∨ le16At buffer offset > MAX_PAYLOAD ∨
          le16At buffer (offset + 2) ^^^ KEY ≠ le16At buffer offset := by
        by_contra hc
        obtain ⟨hz, hc⟩ := not_or.mp hc
        obtain ⟨hmax, hcheck⟩ := not_or.mp hc
        exact hh ⟨by omega, h0 ▸ hz, h0 ▸ Nat.le_of_not_lt hmax,
          by rw [h2, h0]; exact hxor.mp (not_not.mp hcheck)⟩
      rw [if_pos hbad, frameVerdict_of_not_header (by omega) hh]
  · rw [if_neg h4, frameVerdict_of_short (by unfold HEADER_LEN at h4; omega)]

/-- The probe's loop is the scan of what follows its offset. -/
theorem deframeLoop_eq_scan (buffer : Bytes) (payloads : List Bytes) (offset slides : Nat) :
    deframeLoop buffer payloads offset slides =
      (payloads ++ items (frameScanner.scan (buffer.drop offset)).1,
        slides + skips (frameScanner.scan (buffer.drop offset)).1,
        (frameScanner.scan (buffer.drop offset)).2) := by
  generalize hd : buffer.drop offset = rest
  induction rest using Scanner.scan.induct frameScanner generalizing payloads offset slides with
  | case1 rest h =>
      rw [Scanner.scan_of_wait h, deframeLoop_eq, hd, show frameVerdict rest = .wait from h]
      simp
  | case2 rest h ih =>
      obtain ⟨x, xs, rfl⟩ := List.exists_cons_of_ne_nil (frameScanner.ne_nil_of_slide h)
      have htail : buffer.drop (offset + 1) = xs := by
        rw [← List.drop_drop, hd, List.drop_one, List.tail_cons]
      rw [Scanner.scan_of_slide h, deframeLoop_eq, hd, show frameVerdict (x :: xs) = .slide from h]
      simp only [List.tail_cons] at ih ⊢
      rw [ih _ _ _ htail]
      simp [Nat.add_assoc, Nat.add_comm 1]
  | case3 rest n b h ih =>
      have hrest : buffer.drop (offset + n) = rest.drop n := by
        rw [← List.drop_drop, hd]
      rw [Scanner.scan_of_item h, deframeLoop_eq, hd, show frameVerdict rest = .item n b from h]
      simp only
      rw [ih _ _ _ hrest]
      simp

/-- **The probe scans the whole buffer.** -/
theorem deframe_eq_scan (buffer : Bytes) :
    deframe buffer = (items (frameScanner.scan buffer).1, skips (frameScanner.scan buffer).1,
      (frameScanner.scan buffer).2) := by
  rw [deframe, deframeLoop_eq_scan]
  simp

end Probe

/-! ## the two decoders agree -/

/-- The length of a stream, counted over its pieces and its rest. -/
theorem length_symbols {ps : List (Piece UInt8 Bytes)}
    (h : ∀ slice f, Piece.item slice f ∈ ps → encode f = .ok slice) :
    (ps.flatMap Piece.symbols).length = skips ps + ((items ps).map (·.length + 4)).sum := by
  induction ps with
  | nil => rfl
  | cons p ps ih =>
      have ih := ih fun slice f hm => h slice f (List.mem_cons_of_mem p hm)
      rw [List.flatMap_cons, List.length_append, ih]
      cases p with
      | skipped b => simp [Piece.symbols]; omega
      | item slice f =>
          have he := h slice f List.mem_cons_self
          obtain ⟨hpos, hle⟩ := length_of_encode_ok he
          rw [encode_of_le hpos hle, Except.ok.injEq] at he
          subst he
          simp [Piece.symbols]; omega

/-- **The incremental decoder is the probe's whole-stream scan**, for every
stream and every chunking: same frames, as many discarded bytes as slides, the
remainder in the buffer.  Every byte of the stream is accounted for, each frame
was cut from its own encoding, and after any prefix of the stream the buffer is
a short or incomplete suffix of it. -/
theorem feedAll_eq_deframe (chunks : List Bytes) :
    ∃ frames d, Decoder.feedAll {} chunks = .ok (frames, d) ∧
      Probe.deframe chunks.flatten = (frames, d.discarded, d.buffer) ∧
      chunks.flatten.length = d.discarded + (frames.map (·.length + 4)).sum + d.buffer.length ∧
      (∀ f ∈ frames, 1 ≤ f.length ∧ f.length ≤ 6144) ∧
      (∃ pieces : List (Piece UInt8 Bytes),
        chunks.flatten = pieces.flatMap Piece.symbols ++ d.buffer ∧
        items pieces = frames ∧ skips pieces = d.discarded ∧
        ∀ slice f, Piece.item slice f ∈ pieces → encode f = .ok slice) ∧
      (∀ fed : List Bytes, fed.flatten <+: chunks.flatten →
        ∃ fs e, Decoder.feedAll {} fed = .ok (fs, e) ∧ e.buffer <:+ fed.flatten ∧
          (e.buffer.length < 4 ∨
            IsHeader e.buffer ∧ e.buffer.length < le16At e.buffer 0 + 4) ∧
          e.buffer.length ≤ 6147) := by
  have hrun (cs : List Bytes) := Decoder.feedAll_eq_scan Decoder.settled_new cs
  simp only [List.nil_append] at hrun
  have hflat := Scanner.flatMap_symbols_scan (S := frameScanner) chunks.flatten
  have hslice : ∀ slice f, Piece.item slice f ∈ (frameScanner.scan chunks.flatten).1 →
      encode f = .ok slice := by
    intro slice f hm
    obtain ⟨zs, n, hlook, rfl⟩ := Scanner.look_of_mem_scan hm
    exact encode_of_frameVerdict hlook
  refine ⟨_, _, hrun chunks, ?_, ?_, ?_, ?_, ?_⟩
  · rw [Probe.deframe_eq_scan]
    simp [Decoder.after]
  · have hlen := congrArg List.length hflat
    rw [List.length_append, length_symbols hslice] at hlen
    simp only [Decoder.after, Nat.zero_add]
    omega
  · intro f hf
    obtain ⟨slice, hm⟩ := mem_items.mp hf
    exact length_of_encode_ok (hslice slice f hm)
  · exact ⟨_, hflat.symm, rfl, by simp [Decoder.after], hslice⟩
  · intro fed _
    have hsettled := Decoder.settled_after {} fed.flatten
    exact ⟨_, _, hrun fed, Scanner.rest_scan_suffix _, hsettled.bounds⟩

/-! ## framing round trip -/

/-- Garbage and bodies as they go on the wire: each body is encoded behind its garbage. -/
def stream : List (Bytes × Bytes) → Except Exception Bytes
  | [] => pure []
  | (g, b) :: ps => do
      let wire ← encode b
      let rest ← stream ps
      pure (g ++ wire ++ rest)

/-- How many bytes garbage and bodies take on the wire. -/
def streamLength (ps : List (Bytes × Bytes)) : Nat :=
  (ps.map fun p => p.1.length + (p.2.length + 4)).sum

/-- No offset inside any garbage begins a header in the whole stream. -/
def NoFalseHeader (ps : List (Bytes × Bytes)) (s : Bytes) : Prop :=
  ∀ i, (h : i < ps.length) → ∀ j < ps[i].1.length,
    ¬ IsHeader (s.drop (streamLength (ps.take i) + j))

instance (ps : List (Bytes × Bytes)) (s : Bytes) : Decidable (NoFalseHeader ps s) :=
  inferInstanceAs (Decidable (∀ i, (h : i < ps.length) → ∀ j < ps[i].1.length,
    ¬ IsHeader (s.drop (streamLength (ps.take i) + j))))

/-- Bodies of admitted lengths make a stream. -/
theorem exists_stream {ps : List (Bytes × Bytes)}
    (h : ∀ p ∈ ps, 1 ≤ p.2.length ∧ p.2.length ≤ 6144) : ∃ s, stream ps = .ok s := by
  induction ps with
  | nil => exact ⟨[], rfl⟩
  | cons p ps ih =>
      obtain ⟨hpos, hle⟩ := h p List.mem_cons_self
      obtain ⟨s, hs⟩ := ih fun q hq => h q (List.mem_cons_of_mem p hq)
      exact ⟨_, by rw [stream, encode_of_le hpos hle, hs]; rfl⟩

/-- Garbage that starts no header is slid over, byte by byte. -/
theorem scan_garbage {g t : Bytes} (h4 : 4 ≤ t.length)
    (h : ∀ j < g.length, ¬ IsHeader ((g ++ t).drop j)) :
    frameScanner.scan (g ++ t) =
      (g.map Piece.skipped ++ (frameScanner.scan t).1, (frameScanner.scan t).2) := by
  induction g with
  | nil => rfl
  | cons x g ih =>
      have hslide : frameVerdict (x :: (g ++ t)) = .slide := by
        apply frameVerdict_of_not_header
        · rw [List.length_cons, List.length_append]; omega
        · simpa using h 0 (by simp)
      have hrest : ∀ j < g.length, ¬ IsHeader ((g ++ t).drop j) := by
        intro j hj
        simpa using h (j + 1) (by simpa using hj)
      rw [List.cons_append, Scanner.scan_of_slide (S := frameScanner) hslide, ih hrest]
      rfl

theorem skips_map_skipped (g : Bytes) (ps : List (Piece UInt8 Bytes)) :
    skips (g.map Piece.skipped ++ ps) = g.length + skips ps ∧
      items (g.map Piece.skipped ++ ps) = items ps := by
  induction g with
  | nil => simp
  | cons x g ih => simp [ih] ; omega

/-- The scan of a clean stream finds its bodies and slides over its garbage. -/
theorem scan_stream {ps : List (Bytes × Bytes)} {s : Bytes} (hs : stream ps = .ok s)
    (hclean : NoFalseHeader ps s) :
    items (frameScanner.scan s).1 = ps.map Prod.snd ∧
      skips (frameScanner.scan s).1 = (ps.map (·.1.length)).sum ∧
      (frameScanner.scan s).2 = [] := by
  induction ps generalizing s with
  | nil =>
      cases hs
      rw [Scanner.scan_of_wait (S := frameScanner) (frameVerdict_of_short (by decide))]
      simp
  | cons p ps ih =>
      obtain ⟨g, b⟩ := p
      rw [stream] at hs
      cases he : encode b with
      | error e => rw [he] at hs; cases hs
      | ok wire =>
          cases hr : stream ps with
          | error e => rw [he, hr] at hs; cases hs
          | ok rest =>
              obtain rfl : g ++ wire ++ rest = s := by
                rw [he, hr] at hs
                exact Except.ok.inj hs
              obtain ⟨hpos, hle⟩ := length_of_encode_ok he
              have hwire : wire.length = b.length + 4 := by
                rw [encode_of_le hpos hle, Except.ok.injEq] at he
                subst he
                simp [Nat.add_comm]
              have hg : ∀ j < g.length, ¬ IsHeader ((g ++ (wire ++ rest)).drop j) := by
                intro j hj
                simpa [streamLength] using hclean 0 (by simp) j hj
              have hclean' : NoFalseHeader ps rest := by
                intro i hi j hj
                have hsplit : (g ++ wire ++ rest).drop
                    (streamLength (((g, b) :: ps).take (i + 1)) + j) =
                    rest.drop (streamLength (ps.take i) + j) := by
                  have : streamLength (((g, b) :: ps).take (i + 1)) + j =
                      (g ++ wire).length + (streamLength (ps.take i) + j) := by
                    simp [streamLength, hwire]; omega
                  rw [this, ← List.drop_drop, List.drop_left]
                rw [← hsplit]
                exact hclean (i + 1) (by simpa using hi) j (by simpa using hj)
              obtain ⟨hitems, hskips, hrest⟩ := ih hr hclean'
              have hscan : frameScanner.scan (g ++ (wire ++ rest)) =
                  (g.map Piece.skipped ++ .item wire b :: (frameScanner.scan rest).1,
                    (frameScanner.scan rest).2) := by
                rw [scan_garbage (by rw [List.length_append]; omega) hg,
                  Scanner.scan_of_item (S := frameScanner) (frameVerdict_encode rest he),
                  List.take_left, List.drop_left]
              rw [List.append_assoc, hscan]
              obtain ⟨h1, h2⟩ := skips_map_skipped g
                (.item wire b :: (frameScanner.scan rest).1)
              exact ⟨by rw [h2]; simp [hitems], by rw [h1]; simp [hskips], hrest⟩

/-- **Framing round trip with resynchronisation**: whatever the chunking, a
fresh decoder fed encoded bodies behind garbage that starts no header returns
the bodies in order, discards exactly the garbage and keeps nothing. -/
theorem feedAll_stream (ps : List (Bytes × Bytes))
    (hlen : ∀ p ∈ ps, 1 ≤ p.2.length ∧ p.2.length ≤ 6144) :
    ∃ s, stream ps = .ok s ∧ (NoFalseHeader ps s → ∀ chunks : List Bytes, chunks.flatten = s →
      Decoder.feedAll {} chunks =
        .ok (ps.map Prod.snd, { buffer := [], discarded := (ps.map (·.1.length)).sum })) := by
  obtain ⟨s, hs⟩ := exists_stream hlen
  refine ⟨s, hs, fun hclean chunks hc => ?_⟩
  obtain ⟨hitems, hskips, hrest⟩ := scan_stream hs hclean
  rw [Decoder.feedAll_eq_scan Decoder.settled_new chunks, hc]
  simp only [List.nil_append, Decoder.after, hitems, hskips, hrest, Nat.zero_add]

/-- Two bodies behind garbage, cut inside a header and inside a body; the first
body holds a header of its own, which is not taken for one. -/
theorem feedAll_stream_two :
    Decoder.feedAll {} [[0x10, 0x04], [0x00, 0xe2, 0x51, 0x01, 0x00], [0xe7, 0x51, 0x20],
      [0x01, 0x00, 0xe7, 0x51, 0xaa]] =
      .ok ([[0x01, 0x00, 0xe7, 0x51], [0xaa]], { buffer := [], discarded := 2 }) := by
  obtain ⟨s, hs, hfeed⟩ := feedAll_stream
    [([0x10], [0x01, 0x00, 0xe7, 0x51]), ([0x20], [0xaa])] (by decide)
  have hwire : stream [([0x10], [0x01, 0x00, 0xe7, 0x51]), ([0x20], [0xaa])] = .ok
    [0x10, 0x04, 0x00, 0xe2, 0x51, 0x01, 0x00, 0xe7, 0x51, 0x20, 0x01, 0x00, 0xe7, 0x51, 0xaa] := rfl
  obtain rfl := Except.ok.inj (hs.symm.trans hwire)
  exact hfeed (by decide) _ rfl

end Mongoose
