import Mongoose.Bytes

/-!
# Mongoose.Codec

The wire framing and the message header.

A frame is `u16 length | u16 length ^ 0x51e6 | body`, a body is
`u16 destination | u16 source | u16 opcode | u16 sequence | u16 chan | u16 0`
followed by the payload.  `encode` and `request` build them, `Decoder.feed`
takes frames apart again as bytes arrive, and `deframe` is the second,
independent decoder of the repository: the Python probe's scan of a whole
buffer.
-/

namespace Mongoose

def max_body : Nat := 0x1800

/-- The length check word: every length is sent again xor this. -/
def key : Nat := 0x51e6

def board_node : Nat := 1

/-- Channel commands are addressed to `(protocol << 8) | board`. -/
def channel_node (protocol : Nat) (board : Nat := board_node) : Nat :=
  (protocol <<< 8 ||| board) % 65536

def data_chan : Nat := 1

/-! ## building -/

def encode (body : Bytes) : Except Exception Bytes := do
  if body.isEmpty ∨ body.length > max_body then
    throw (.invalid_argument "body length outside 1..6144")
  let wire := List.replicate (body.length + 4) 0
  let length := body.length % 65536
  let wire ← put16 wire 0 length
  let wire ← put16 wire 2 (length ^^^ key)
  pure (wire.take 4 ++ body)

def request (opcode sequence : Nat) (payload : Bytes := []) (destination : Nat := board_node)
    (chan : Nat := 0) : Except Exception Bytes := do
  if payload.length > max_body - 12 ∨ sequence = 0 ∨ sequence > 255 then
    throw (.invalid_argument "invalid request size or sequence")
  if destination = 0 then
    throw (.invalid_argument "destination 0 is the PC, not a target")
  let body := List.replicate (12 + payload.length) 0
  let body ← put16 body 0 destination
  let body ← put16 body 4 opcode
  let body ← put16 body 6 sequence
  let body ← put16 body 8 chan
  pure (body.take 12 ++ payload)

/-- The four bytes in front of a body of length `n`. -/
def header (n : Nat) : Bytes := bytes16 n ++ bytes16 (n ^^^ key)

@[simp] theorem length_header (n : Nat) : (header n).length = 4 := rfl

/-- A body of a length the wire admits is sent behind its header. -/
theorem encode_of_le {body : Bytes} (hpos : 0 < body.length) (hle : body.length ≤ max_body) :
    encode body = .ok (header body.length ++ body) := by
  have hne : body.isEmpty = false := by
    rw [List.isEmpty_eq_false_iff]; exact List.ne_nil_of_length_pos hpos
  have hmod : body.length % 65536 = body.length := Nat.mod_eq_of_lt (by unfold max_body at hle; omega)
  simp only [encode, hne, Bool.false_eq_true, false_or, if_neg (Nat.not_lt.mpr hle), hmod]
  rw [show body.length + 4 = body.length + 3 + 1 from rfl]
  rfl

/-- Only bodies of 1..6144 bytes are encoded. -/
theorem length_of_encode_ok {body wire : Bytes} (h : encode body = .ok wire) :
    0 < body.length ∧ body.length ≤ max_body := by
  by_contra hc
  have : body.isEmpty ∨ body.length > max_body := by
    rw [List.isEmpty_iff_length_eq_zero]; omega
  rw [encode, if_pos this] at h
  cases h

/-- The twelve bytes in front of a payload. -/
def messageHeader (opcode sequence destination chan : Nat) : Bytes :=
  bytes16 destination ++ bytes16 0 ++ bytes16 opcode ++ bytes16 sequence ++ bytes16 chan ++ bytes16 0

/-- A request in range is its message header and its payload. -/
theorem request_of_le {opcode sequence destination chan : Nat} {payload : Bytes}
    (hp : payload.length ≤ max_body - 12) (hs : 1 ≤ sequence) (hs' : sequence ≤ 255)
    (hd : destination ≠ 0) :
    request opcode sequence payload destination chan =
      .ok (messageHeader opcode sequence destination chan ++ payload) := by
  have h1 : ¬ (payload.length > max_body - 12 ∨ sequence = 0 ∨ sequence > 255) := by omega
  simp only [request, if_neg h1, if_neg hd]
  rw [show 12 + payload.length = payload.length + 12 from Nat.add_comm _ _]
  rfl

/-! ## the incremental decoder -/

structure Decoder where
  buffer : Bytes := []
  discarded : Nat := 0
  deriving DecidableEq, Repr

namespace Decoder

/-- The inner loop of `feed`: take frames off the front of the buffer, sliding
one byte over a header that is not one, until more input is needed. -/
def drain (d : Decoder) (frames : List Bytes) : Except Exception (List Bytes × Decoder) :=
  if 4 ≤ d.buffer.length then do
    let n ← le16 d.buffer 0
    let check ← le16 d.buffer 2
    if n = 0 ∨ n > max_body ∨ check ≠ n ^^^ key then
      drain { buffer := d.buffer.drop 1, discarded := d.discarded + 1 } frames
    else if d.buffer.length < n + 4 then
      pure (frames, d)
    else
      drain { d with buffer := d.buffer.drop (n + 4) } (frames ++ [(d.buffer.drop 4).take n])
  else pure (frames, d)
termination_by d.buffer.length
decreasing_by all_goals (simp only [List.length_drop]; omega)

/-- One byte of input. -/
def push (r : List Bytes × Decoder) (b : UInt8) : Except Exception (List Bytes × Decoder) :=
  drain { r.2 with buffer := r.2.buffer ++ [b] } r.1

/-- Bytes are ingested one at a time, so the retained input stays bounded. -/
def feed (d : Decoder) (bytes : Bytes) : Except Exception (List Bytes × Decoder) :=
  bytes.foldlM push ([], d)

/-- A fresh or running decoder fed one chunk after the other. -/
def feedAll (d : Decoder) : List Bytes → Except Exception (List Bytes × Decoder)
  | [] => pure ([], d)
  | c :: cs => do
      let r ← d.feed c
      let t ← feedAll r.2 cs
      pure (r.1 ++ t.1, t.2)

end Decoder

/-! ## the probe's decoder -/

namespace Probe

def KEY : Nat := 0x51E6
def MAX_PAYLOAD : Nat := 0x1800
def HEADER_LEN : Nat := 4

/-- The loop of `deframe`, with its three locals. -/
def deframeLoop (buffer : Bytes) (payloads : List Bytes) (offset slides : Nat) :
    List Bytes × Nat × Bytes :=
  if offset + HEADER_LEN ≤ buffer.length then
    let length := le16At buffer offset
    let check := le16At buffer (offset + 2)
    if length = 0 ∨ length > MAX_PAYLOAD ∨ check ^^^ KEY ≠ length then
      deframeLoop buffer payloads (offset + 1) (slides + 1)
    else if offset + HEADER_LEN + length > buffer.length then
      (payloads, slides, buffer.drop offset)
    else
      deframeLoop buffer (payloads ++ [(buffer.drop (offset + HEADER_LEN)).take length])
        (offset + (HEADER_LEN + length)) slides
  else (payloads, slides, buffer.drop offset)
termination_by buffer.length - offset
decreasing_by all_goals (unfold HEADER_LEN at *; omega)

/-- Split a byte stream into payloads: the payloads, the number of one-byte
slides and the remainder. -/
def deframe (buffer : Bytes) : List Bytes × Nat × Bytes := deframeLoop buffer [] 0 0

end Probe

end Mongoose
