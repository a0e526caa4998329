import Mongoose.Can
import Mongoose.Codec.Stream

/-!
# Mongoose.Can.Outbound

What the adapter reads of a message or a filter that a channel sends it.

An `Outbound` is the input of one of the six payload encoders, and `wire` takes it
through the encoder, the request header and the framing.  `Reading.of` finds the
fields in a body by their offsets alone, and everything that was encoded is read
back: no field is narrowed on the way to a value it does not fit.
-/

namespace Mongoose

open Scan

/-! ## accepted messages -/

/-- The flags a check lets through are at most the allowed ones. -/
theorem toNat_le_of_flags {flags allowed : UInt32} (h : ¬ flagsOutside flags allowed) :
    flags.toNat ≤ allowed.toNat := by
  have hnone : flags &&& ~~~allowed = 0 := not_not.mp h
  have hsub : flags &&& allowed = flags := by
    apply UInt32.toBitVec_inj.mp
    ext i hi
    have hbit := congrArg (fun f => f.getLsbD i) (UInt32.toBitVec_inj.mpr hnone)
    simpa [hi] using hbit
  rw [← hsub, UInt32.toNat_and]
  exact Nat.and_le_right

section accepted

variable {mask pattern flow message : PASSTHRU_MSG} {channel_flags time : UInt32} {table type : UInt8}
  {payload : Bytes}

/-- A filter of two patterns that agree in length. -/
theorem can_table_filter_ok (h : can_table_filter mask pattern channel_flags table type = .ok payload) :
    pattern.DataSize = mask.DataSize ∧ 4 ≤ mask.DataSize.toNat ∧ mask.DataSize.toNat ≤ 12 ∧
      mask.TxFlags.toNat ≤ 0x100 ∧ pattern.TxFlags = mask.TxFlags ∧
      payload = [table, 0, 0, 0] ++ bytes16 mask.TxFlags.toNat ++
        [type, UInt8.ofNat pattern.DataSize.toNat] ++ mask.bytes ++ pattern.bytes := by
  unfold can_table_filter at h
  obtain ⟨-, h⟩ := check_ok h
  obtain ⟨hflags, h⟩ := check_ok h
  obtain ⟨hsame, h⟩ := check_ok h
  obtain ⟨hsize, h⟩ := check_ok h
  simp only [not_or, not_not, UInt32.not_lt, gt_iff_lt, UInt32.le_iff_toNat_le] at hsame hsize
  have hle := toNat_le_of_flags hflags
  rw [hsame.1, hsame.2, UInt32.or_self] at hle
  rw [hsame.1, hsame.2]
  refine ⟨hsize.2.2, hsize.1, hsize.2.1, hle, rfl, ?_⟩
  rw [hsame.1] at h
  exact (Except.ok.inj h).symm

/-- A frame of an ID and up to eight bytes. -/
theorem can_transmit_ok (h : can_transmit message time = .ok payload) :
    4 ≤ message.DataSize.toNat ∧ message.DataSize.toNat ≤ 12 ∧
      payload = bytes32 message.TxFlags ++ bytes32 time ++ bytes16 message.DataSize.toNat ++
        bytes16 message.ExtraDataIndex.toNat ++ message.bytes := by
  unfold can_transmit at h
  obtain ⟨-, h⟩ := check_ok h
  obtain ⟨-, h⟩ := check_ok h
  obtain ⟨hsize, h⟩ := check_ok h
  simp only [not_or, UInt32.not_lt, gt_iff_lt, UInt32.le_iff_toNat_le] at hsize
  exact ⟨hsize.1, hsize.2, (Except.ok.inj h).symm⟩

/-- A message that passes every check is accepted. -/
theorem can_transmit_of_valid (hprotocol : message.ProtocolID = CAN)
    (hflags : ¬ flagsOutside message.TxFlags CAN_29BIT_ID) (hlo : 4 ≤ message.DataSize.toNat)
    (hhi : message.DataSize.toNat ≤ 12) :
    can_transmit message time =
      .ok (bytes32 message.TxFlags ++ bytes32 time ++ bytes16 message.DataSize.toNat ++
        bytes16 message.ExtraDataIndex.toNat ++ message.bytes) := by
  have hsize : ¬ (message.DataSize < 4 ∨ message.DataSize > 12) := by
    simp only [not_or, UInt32.not_lt, gt_iff_lt, UInt32.le_iff_toNat_le]
    exact ⟨hlo, hhi⟩
  rw [can_transmit, if_neg (not_not.mpr hprotocol), if_neg hflags, if_neg hsize]
  rfl

/-- A message of an ID and up to 4095 bytes, at least one. -/
theorem isotp_transmit_ok (h : isotp_transmit message time = .ok payload) :
    5 ≤ message.DataSize.toNat ∧ message.DataSize.toNat ≤ 4099 ∧
      payload = bytes32 message.TxFlags ++ bytes32 time ++ bytes16 message.DataSize.toNat ++
        bytes16 0 ++ message.bytes := by
  unfold isotp_transmit at h
  obtain ⟨-, h⟩ := check_ok h
  obtain ⟨-, h⟩ := check_ok h
  obtain ⟨hsize, h⟩ := check_ok h
  simp only [not_or, UInt32.not_lt, gt_iff_lt, UInt32.le_iff_toNat_le] at hsize
  exact ⟨hsize.1, hsize.2, (Except.ok.inj h).symm⟩

/-- A frame for the periodic table. -/
theorem can_periodic_ok (h : can_periodic message time = .ok payload) :
    4 ≤ message.DataSize.toNat ∧ message.DataSize.toNat ≤ 12 ∧
      payload = [table_periodic, 0, 0, 0] ++ bytes32 time ++ bytes32 message.TxFlags ++
        [UInt8.ofNat message.DataSize.toNat] ++ message.bytes := by
  unfold can_periodic at h
  obtain ⟨-, h⟩ := check_ok h
  obtain ⟨-, h⟩ := check_ok h
  obtain ⟨-, h⟩ := check_ok h
  obtain ⟨hsize, h⟩ := check_ok h
  simp only [not_or, UInt32.not_lt, gt_iff_lt, UInt32.le_iff_toNat_le] at hsize
  exact ⟨hsize.1, hsize.2, (Except.ok.inj h).symm⟩

/-- A pattern and the ID that its flow control goes to. -/
theorem isotp_flow_control_filter_ok (h : isotp_flow_control_filter mask pattern flow = .ok payload) :
    pattern.DataSize = 4 ∧ flow.DataSize = 4 ∧
      payload = [table_flow_control, 0, 0, 0] ++ bytes32 pattern.TxFlags ++ [0] ++ pattern.bytes ++
        [0] ++ flow.bytes ++ [0] := by
  unfold isotp_flow_control_filter at h
  obtain ⟨-, h⟩ := check_ok h
  obtain ⟨-, h⟩ := check_ok h
  obtain ⟨-, h⟩ := check_ok h
  obtain ⟨hsize, h⟩ := check_ok h
  obtain ⟨-, h⟩ := check_ok h
  obtain ⟨-, h⟩ := check_ok h
  simp only [not_or, not_not] at hsize
  refine ⟨hsize.2.1, hsize.2.2, ?_⟩
  rw [PASSTHRU_MSG.bytes, PASSTHRU_MSG.bytes, hsize.2.1, hsize.2.2]
  exact (Except.ok.inj h).symm

end accepted

/-! ## commands -/

/-- The inputs of the encoders. -/
inductive Outbound
  | can_transmit (message : PASSTHRU_MSG) (timeout_ms : UInt32)
  | isotp_transmit (message : PASSTHRU_MSG) (timeout_ms : UInt32)
  | can_periodic (message : PASSTHRU_MSG) (interval_ms : UInt32)
  | can_pass_filter (mask pattern : PASSTHRU_MSG) (channel_flags : UInt32)
  | can_block_filter (mask pattern : PASSTHRU_MSG) (channel_flags : UInt32)
  | isotp_flow_control_filter (mask pattern flow : PASSTHRU_MSG)

/-- What a command says beyond its header. -/
inductive Content
  | transmit (flags timeout size extra : Nat) (identifier data : Bytes)
  | periodic (interval flags size : Nat) (identifier data : Bytes)
  | filter (table type : UInt8) (flags size : Nat) (mask pattern : Bytes)
  | flow_control (flags : Nat) (pattern flow : Bytes)
  deriving DecidableEq, Repr

/-- What the adapter reads in a body. -/
structure Reading where
  destination : Nat
  opcode : Nat
  sequence : Nat
  chan : Nat
  content : Content
  deriving DecidableEq, Repr

namespace Outbound

def payload : Outbound → Except Exception Bytes
  | .can_transmit message timeout_ms => Mongoose.can_transmit message timeout_ms
  | .isotp_transmit message timeout_ms => Mongoose.isotp_transmit message timeout_ms
  | .can_periodic message interval_ms => Mongoose.can_periodic message interval_ms
  | .can_pass_filter mask pattern flags => Mongoose.can_pass_filter mask pattern flags
  | .can_block_filter mask pattern flags => Mongoose.can_block_filter mask pattern flags
  | .isotp_flow_control_filter mask pattern flow => Mongoose.isotp_flow_control_filter mask pattern flow

/-- The protocol of the channels that send it. -/
def protocol : Outbound → UInt32
  | .isotp_transmit .. | .isotp_flow_control_filter .. => ISO15765
  | _ => CAN

/-- A message is sent with opcode 8 and a table entry added with opcode 13. -/
def opcode : Outbound → Nat
  | .can_transmit .. | .isotp_transmit .. => 8
  | _ => 0x0d

def chan : Outbound → Nat
  | .can_transmit .. | .isotp_transmit .. => data_chan
  | _ => 0

/-- The body `Session::command` sends for it. -/
def body (o : Outbound) (sequence : Nat) : Except Exception Bytes := do
  let payload ← o.payload
  request o.opcode sequence payload (channel_node o.protocol.toNat) o.chan

def wire (o : Outbound) (sequence : Nat) : Except Exception Bytes := do
  let body ← o.body sequence
  encode body

/-- What it was built from. -/
def content : Outbound → Content
  | .can_transmit message timeout_ms =>
      .transmit message.TxFlags.toNat timeout_ms.toNat message.DataSize.toNat
        (message.ExtraDataIndex.toNat % 2 ^ 16) (message.bytes.take 4) (message.bytes.drop 4)
  | .isotp_transmit message timeout_ms =>
      .transmit message.TxFlags.toNat timeout_ms.toNat message.DataSize.toNat 0 (message.bytes.take 4)
        (message.bytes.drop 4)
  | .can_periodic message interval_ms =>
      .periodic interval_ms.toNat message.TxFlags.toNat message.DataSize.toNat (message.bytes.take 4)
        (message.bytes.drop 4)
  | .can_pass_filter mask pattern _ =>
      .filter table_pass 1 mask.TxFlags.toNat mask.DataSize.toNat mask.bytes pattern.bytes
  | .can_block_filter mask pattern _ =>
      .filter table_block 2 mask.TxFlags.toNat mask.DataSize.toNat mask.bytes pattern.bytes
  | .isotp_flow_control_filter _ pattern flow =>
      .flow_control pattern.TxFlags.toNat pattern.bytes flow.bytes

end Outbound

/-- The content of a body, by its opcode and the table it names. -/
def Content.of (body : Bytes) : Content :=
  if le16At body 4 = 8 then
    .transmit (le32At body 12) (le32At body 16) (le16At body 20) (le16At body 22)
      ((body.drop 24).take 4) (body.drop 28)
  else if body.getD 12 0 = table_periodic then
    .periodic (le32At body 16) (le32At body 20) (body.getD 24 0).toNat ((body.drop 25).take 4)
      (body.drop 29)
  else if body.getD 12 0 = table_flow_control then
    .flow_control (le32At body 16) ((body.drop 21).take 4) ((body.drop 26).take 4)
  else
    .filter (body.getD 12 0) (body.getD 18 0) (le16At body 16) (body.getD 19 0).toNat
      ((body.drop 20).take (body.getD 19 0).toNat) (body.drop (20 + (body.getD 19 0).toNat))

/-- The fields of a body. -/
def Reading.of (body : Bytes) : Reading :=
  { destination := le16At body 0, opcode := le16At body 4, sequence := le16At body 6,
    chan := le16At body 8, content := .of body }

/-! ## reading back -/

/-- The words of a header behind which a payload stands. -/
theorem reading_request (opcode sequence destination chan : Nat) (payload : Bytes)
    (hopcode : opcode < 65536) (hsequence : sequence < 65536) (hdestination : destination < 65536)
    (hchan : chan < 65536) :
    Reading.of (messageHeader opcode sequence destination chan ++ payload) =
      { destination := destination, opcode := opcode, sequence := sequence, chan := chan,
        content := .of (messageHeader opcode sequence destination chan ++ payload) } := by
  simp only [Reading.of, messageHeader, le16At, bytes16, List.cons_append, List.nil_append,
    List.getD_cons_succ, List.getD_cons_zero, UInt8.toNat_ofNat', Reading.mk.injEq, and_true]
  omega

section contents

variable {sequence destination chan : Nat}

/-- The opcode of a table command tells it from a message. -/
theorem opcode_table (payload : Bytes) :
    ¬ le16At (messageHeader 0x0d sequence destination chan ++ payload) 4 = 8 := by
  have hopcode : le16At (messageHeader 0x0d sequence destination chan ++ payload) 4 = 13 := rfl
  omega

/-- What a write sends is read back field by field. -/
theorem content_transmit (flags timeout : UInt32) {size : Nat} (extra : Nat) (data : Bytes)
    (hsize : size < 65536) :
    Content.of (messageHeader 8 sequence destination chan ++
        (bytes32 flags ++ bytes32 timeout ++ bytes16 size ++ bytes16 extra ++ data)) =
      .transmit flags.toNat timeout.toNat size (extra % 2 ^ 16) (data.take 4) (data.drop 4) := by
  have hopcode : le16At (messageHeader 8 sequence destination chan ++
      (bytes32 flags ++ bytes32 timeout ++ bytes16 size ++ bytes16 extra ++ data)) 4 = 8 := rfl
  have hflags := flags.toNat_lt
  have htimeout := timeout.toNat_lt
  rw [Content.of, if_pos hopcode]
  simp only [messageHeader, le32At, le16At, bytes32, bytes16, high16, List.cons_append, List.nil_append,
    List.getD_cons_succ, List.getD_cons_zero, UInt8.toNat_ofNat', List.drop_succ_cons, List.drop_zero,
    Content.transmit.injEq, and_true]
  omega

/-- So is a periodic message, -/
theorem content_periodic (interval flags : UInt32) {size : Nat} (data : Bytes) (hsize : size < 256) :
    Content.of (messageHeader 0x0d sequence destination chan ++
        ([table_periodic, 0, 0, 0] ++ bytes32 interval ++ bytes32 flags ++ [UInt8.ofNat size] ++ data)) =
      .periodic interval.toNat flags.toNat size (data.take 4) (data.drop 4) := by
  have hinterval := interval.toNat_lt
  have hflags := flags.toNat_lt
  rw [Content.of, if_neg (opcode_table _)]
  simp only [messageHeader, le32At, le16At, bytes32, bytes16, high16, List.cons_append, List.nil_append,
    List.getD_cons_succ, List.getD_cons_zero, UInt8.toNat_ofNat', List.drop_succ_cons, List.drop_zero,
    if_true, Content.periodic.injEq, and_true]
  omega

/-- a filter with flow control, -/
theorem content_flow_control (flags : UInt32) {pattern flow : Bytes} (hpattern : pattern.length = 4)
    (hflow : flow.length = 4) :
    Content.of (messageHeader 0x0d sequence destination chan ++
        ([table_flow_control, 0, 0, 0] ++ bytes32 flags ++ [0] ++ pattern ++ [0] ++ flow ++ [0])) =
      .flow_control flags.toNat pattern flow := by
  have hflags := flags.toNat_lt
  have htail : (pattern ++ ([0] ++ (flow ++ [0]))).drop 5 = flow ++ [0] := by
    rw [List.drop_append, hpattern, List.drop_of_length_le (by omega)]
    rfl
  rw [Content.of, if_neg (opcode_table _)]
  simp only [List.append_assoc]
  simp only [messageHeader, le32At, le16At, bytes32, bytes16, high16, List.cons_append, List.nil_append,
    List.getD_cons_succ, List.getD_cons_zero, UInt8.toNat_ofNat', List.drop_succ_cons, List.drop_zero]
  simp only [List.cons_append, List.nil_append] at htail
  rw [if_neg (by decide), if_pos trivial, htail, List.take_append_of_le_length (Nat.le_of_eq hpattern.symm),
    List.take_append_of_le_length (Nat.le_of_eq hflow.symm), List.take_of_length_le (Nat.le_of_eq hpattern),
    List.take_of_length_le (Nat.le_of_eq hflow), Content.flow_control.injEq]
  simp only [and_true]
  omega

/-- and one without. -/
theorem content_filter {flags size : Nat} {mask pattern : Bytes} {table : UInt8} (type : UInt8)
    (htable : table ≠ table_periodic ∧ table ≠ table_flow_control) (hflags : flags < 65536)
    (hsize : size < 256) (hmask : mask.length = size) :
    Content.of (messageHeader 0x0d sequence destination chan ++
        ([table, 0, 0, 0] ++ bytes16 flags ++ [type, UInt8.ofNat size] ++ mask ++ pattern)) =
      .filter table type flags size mask pattern := by
  have hbyte : (UInt8.ofNat mask.length).toNat = mask.length := by
    simpa [hmask] using hsize
  subst hmask
  rw [Content.of, if_neg (opcode_table _)]
  simp only [List.append_assoc]
  simp only [messageHeader, le16At, bytes16, List.cons_append, List.nil_append, List.getD_cons_succ,
    List.getD_cons_zero, if_neg htable.1, if_neg htable.2, hbyte]
  simp only [Nat.add_comm 20, List.drop_succ_cons, List.drop_zero, List.take_left, List.drop_left,
    UInt8.toNat_ofNat', Content.filter.injEq, and_true, true_and]
  omega

end contents

/-! ## the pipeline -/

/-- What is encoded is decoded, however it is cut. -/
theorem feedAll_encode {body wire : Bytes} (h : encode body = .ok wire) {chunks : List Bytes}
    (hc : chunks.flatten = wire) :
    Decoder.feedAll {} chunks = .ok ([body], { buffer := [], discarded := 0 }) := by
  have hitem : frameVerdict wire = .item wire.length body := by
    simpa using frameVerdict_encode [] h
  rw [Decoder.feedAll_eq_scan Decoder.settled_new, hc, List.nil_append,
    Scanner.scan_of_item (S := frameScanner) hitem, List.drop_length,
    Scanner.scan_of_wait (S := frameScanner) (frameVerdict_of_short (by decide))]
  rfl

/-- A message is read in full, up to the capacity of its field. -/
theorem length_bytes {m : PASSTHRU_MSG} (h : m.DataSize.toNat ≤ dataCapacity) :
    m.bytes.length = m.DataSize.toNat := by
  rw [PASSTHRU_MSG.bytes, List.length_take, m.length_Data]
  omega

namespace Outbound

variable {o : Outbound} {payload : Bytes} {sequence : Nat}

/-- There are two protocols. -/
theorem protocol_cases (o : Outbound) : o.protocol = CAN ∨ o.protocol = ISO15765 := by
  cases o <;> simp [protocol]

/-- A payload is short, and carries what it was built from. -/
theorem payload_ok (h : o.payload = .ok payload) (sequence destination chan : Nat) :
    payload.length ≤ 12 + 4099 ∧
      Content.of (messageHeader o.opcode sequence destination chan ++ payload) = o.content := by
  cases o with
  | can_transmit message time =>
      obtain ⟨-, hsize, rfl⟩ := can_transmit_ok h
      have hlen := length_bytes (m := message) (by unfold dataCapacity; omega)
      exact ⟨by simp [bytes32, bytes16, hlen]; omega,
        content_transmit _ _ _ _ (by omega)⟩
  | isotp_transmit message time =>
      obtain ⟨-, hsize, rfl⟩ := isotp_transmit_ok h
      have hlen := length_bytes (m := message) (by unfold dataCapacity; omega)
      exact ⟨by simp [bytes32, bytes16, hlen]; omega,
        content_transmit _ _ _ _ (by omega)⟩
  | can_periodic message time =>
      obtain ⟨-, hsize, rfl⟩ := can_periodic_ok h
      have hlen := length_bytes (m := message) (by unfold dataCapacity; omega)
      exact ⟨by simp [bytes32, bytes16, hlen]; omega,
        content_periodic _ _ _ (by omega)⟩
  | can_pass_filter mask pattern flags | can_block_filter mask pattern flags =>
      obtain ⟨hsame, -, hsize, hflags, -, rfl⟩ := can_table_filter_ok h
      have hmask := length_bytes (m := mask) (by unfold dataCapacity; omega)
      have hpattern := length_bytes (m := pattern) (by unfold dataCapacity; rw [hsame]; omega)
      rw [hsame] at hpattern ⊢
      exact ⟨by simp [bytes16, hmask, hpattern]; omega,
        content_filter _ (by decide) (by omega) (by omega) hmask⟩
  | isotp_flow_control_filter mask pattern flow =>
      obtain ⟨hpattern, hflow, rfl⟩ := isotp_flow_control_filter_ok h
      have hpattern : pattern.bytes.length = 4 := by
        rw [length_bytes (by rw [hpattern]; decide), hpattern]
        rfl
      have hflow : flow.bytes.length = 4 := by
        rw [length_bytes (by rw [hflow]; decide), hflow]
        rfl
      exact ⟨by simp [bytes32, bytes16, hpattern, hflow],
        content_flow_control _ hpattern hflow⟩

/-- **Every accepted message and filter reaches the wire and is read back exactly**,
whatever the chunks it arrives in. -/
theorem recovered (h : o.payload = .ok payload) (hs : 1 ≤ sequence) (hs' : sequence ≤ 255) :
    ∃ body wire, o.body sequence = .ok body ∧ o.wire sequence = .ok wire ∧
      (∀ chunks : List Bytes, chunks.flatten = wire →
        Decoder.feedAll {} chunks = .ok ([body], { buffer := [], discarded := 0 })) ∧
      Reading.of body =
        { destination := channel_node o.protocol.toNat, opcode := o.opcode, sequence := sequence,
          chan := o.chan, content := o.content } := by
  have hnode : channel_node o.protocol.toNat ≠ 0 ∧ channel_node o.protocol.toNat < 65536 := by
    obtain hcan | hiso := o.protocol_cases
    · rw [hcan]; decide
    · rw [hiso]; decide
  have hopcode : o.opcode < 65536 := by cases o <;> simp [opcode]
  have hchan : o.chan < 65536 := by cases o <;> simp [chan, data_chan]
  obtain ⟨hlen, hcontent⟩ := payload_ok h sequence (channel_node o.protocol.toNat) o.chan
  have hbody : o.body sequence =
      .ok (messageHeader o.opcode sequence (channel_node o.protocol.toNat) o.chan ++ payload) := by
    rw [body, h]
    exact request_of_le (by unfold max_body; omega) hs hs' hnode.1
  obtain ⟨wire, hwire⟩ : ∃ wire,
      encode (messageHeader o.opcode sequence (channel_node o.protocol.toNat) o.chan ++ payload) =
        .ok wire :=
    ⟨_, encode_of_le (by simp [messageHeader, bytes16])
      (by simp [messageHeader, bytes16, max_body]; omega)⟩
  refine ⟨_, wire, hbody, by rw [Outbound.wire, hbody]; exact hwire,
    fun chunks hc => feedAll_encode hwire hc, ?_⟩
  rw [reading_request _ _ _ _ _ hopcode (by omega) hnode.2 hchan, hcontent]

/-- A 29-bit frame with a long timeout, under the last sequence. -/
theorem recovered_can_transmit :
    ∃ body wire,
      (can_transmit { ProtocolID := CAN, TxFlags := 0x100, DataSize := 5 } 70000).body 255 = .ok body ∧
      (can_transmit { ProtocolID := CAN, TxFlags := 0x100, DataSize := 5 } 70000).wire 255 = .ok wire ∧
      (∀ chunks : List Bytes, chunks.flatten = wire →
        Decoder.feedAll {} chunks = .ok ([body], { buffer := [], discarded := 0 })) ∧
      Reading.of body =
        { destination := 0x501, opcode := 8, sequence := 255, chan := 1,
          content := .transmit 0x100 70000 5 0 [0, 0, 0, 0] [0] } := by
  have h := @recovered (can_transmit { ProtocolID := CAN, TxFlags := 0x100, DataSize := 5 } 70000) _ 255
    rfl (by decide) (by decide)
  exact h

end Outbound

end Mongoose
