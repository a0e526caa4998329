import Mathlib.Data.Nat.Bitwise
import Mongoose.Can.Inbound
import Mongoose.Can.Outbound
import Mongoose.IsoTp.Conversation

/-!
# Mongoose.Tools.SocketCan

The bridge between a raw CAN channel and a Linux CAN interface.

`to_socketcan` and `from_socketcan` convert frames the two ways.  What the bridge
takes from the interface the channel accepts, what the receiver delivers of a frame
from the bus comes out as the frame it was, and echoes stay on their side.
-/

namespace Mongoose

namespace SocketCan

open CanReceiver Fifo

/-! ## frames of the interface -/

def CAN_EFF_FLAG : UInt32 := 0x80000000
def CAN_RTR_FLAG : UInt32 := 0x40000000
def CAN_ERR_FLAG : UInt32 := 0x20000000
def CAN_SFF_MASK : UInt32 := 0x7ff
def CAN_EFF_MASK : UInt32 := 0x1fffffff

/-- `struct can_frame`; `data` is an array of eight bytes, of which `len` count. -/
structure can_frame where
  can_id : UInt32
  len : UInt8
  data : Bytes
  length_data : data.length = 8
  deriving DecidableEq, Repr

namespace can_frame

def extended (f : can_frame) : Bool := f.can_id &&& CAN_EFF_FLAG ≠ 0

/-- The bits of the ID that count at its width. -/
def identifier (f : can_frame) : UInt32 :=
  f.can_id &&& if f.extended then CAN_EFF_MASK else CAN_SFF_MASK

/-- The bytes that count. -/
def payload (f : can_frame) : Bytes := f.data.take f.len.toNat

end can_frame

/-- A message of the adapter for the interface; echoes are not forwarded. -/
def to_socketcan (message : PASSTHRU_MSG) : Option can_frame :=
  if message.DataSize < 4 ∨ message.DataSize > 12 ∨ message.RxStatus &&& TX_MSG_TYPE ≠ 0 then none
  else
    let id := source_id message.Data
    let len := message.DataSize.toNat - 4
    some
      { can_id :=
          if message.RxStatus &&& CAN_29BIT_ID ≠ 0 then id &&& CAN_EFF_MASK ||| CAN_EFF_FLAG
          else id &&& CAN_SFF_MASK
        len := UInt8.ofNat len
        data := ((message.Data.drop 4).take len ++ List.replicate 8 0).take 8
        length_data := by simp }

/-- A frame of the interface for the adapter; J2534 has no remote frames. -/
def from_socketcan (frame : can_frame) : Option PASSTHRU_MSG :=
  if frame.can_id &&& (CAN_RTR_FLAG ||| CAN_ERR_FLAG) ≠ 0 ∨ frame.len > 8 then none
  else
    some
      { ProtocolID := CAN
        TxFlags := if frame.extended then CAN_29BIT_ID else 0
        DataSize := UInt32.ofNat (4 + frame.len.toNat)
        Data := dataField (idBytes frame.identifier ++ frame.payload)
        length_Data := length_dataField _ }

/-- What one pass of `vehicle_to_host` writes to the interface. -/
def vehicle_to_host (messages : List PASSTHRU_MSG) : List can_frame := messages.filterMap to_socketcan

/-! ## bits -/

section bits

variable {x m f : UInt32}

/-- A flag outside a mask is not seen through it. -/
theorem and_mask_or (h : f &&& m = 0) : (x &&& m ||| f) &&& m = x &&& m := by
  apply UInt32.toBitVec_inj.mp
  ext i hi
  have hbit := congrArg (fun b => b.getLsbD i) (UInt32.toBitVec_inj.mpr h)
  simp [hi] at hbit ⊢
  grind

theorem and_mask_or_flag (h : f &&& m = 0) : (x &&& m ||| f) &&& f = f := by
  apply UInt32.toBitVec_inj.mp
  ext i hi
  have hbit := congrArg (fun b => b.getLsbD i) (UInt32.toBitVec_inj.mpr h)
  simp [hi] at hbit ⊢
  grind

/-- What a mask clears is clear. -/
theorem and_mask_flag (h : m &&& f = 0) : x &&& m &&& f = 0 := by
  rw [UInt32.and_assoc, h, UInt32.and_zero]

/-- Flags apart from a mask and another flag are not set with them. -/
theorem and_mask_or_flags {g : UInt32} (hm : m &&& g = 0) (hf : f &&& g = 0) : (x &&& m ||| f) &&& g = 0 := by
  apply UInt32.toBitVec_inj.mp
  ext i hi
  have hmask := congrArg (fun b => b.getLsbD i) (UInt32.toBitVec_inj.mpr hm)
  have hflag := congrArg (fun b => b.getLsbD i) (UInt32.toBitVec_inj.mpr hf)
  simp [hi] at hmask hflag ⊢
  grind

/-- The width bit is set or clear. -/
theorem and_29bit (x : UInt32) : x &&& CAN_29BIT_ID = 0 ∨ x &&& CAN_29BIT_ID = CAN_29BIT_ID := by
  have hand : (x &&& CAN_29BIT_ID).toNat = 2 ^ 8 * (x.toNat.testBit 8).toNat := by
    rw [UInt32.toNat_and, show CAN_29BIT_ID.toNat = 2 ^ 8 from rfl, Nat.and_comm, Nat.two_pow_and]
  cases hbit : x.toNat.testBit 8 with
  | false =>
      rw [hbit] at hand
      exact .inl (UInt32.toNat_inj.mp hand)
  | true =>
      rw [hbit] at hand
      exact .inr (UInt32.toNat_inj.mp hand)

/-- A value below a power of two passes the mask of its bits. -/
theorem and_mask_of_le {n : Nat} (hm : m.toNat = 2 ^ n - 1) (h : x ≤ m) : x &&& m = x := by
  apply UInt32.toNat_inj.mp
  have hlt : x.toNat < 2 ^ n := by
    have hle : x.toNat ≤ m.toNat := h
    have hpos : 0 < 2 ^ n := Nat.two_pow_pos n
    omega
  rw [UInt32.toNat_and, hm, Nat.and_two_pow_sub_one_of_lt_two_pow hlt]

end bits

/-! ## frames from the bus -/

/-- Bytes that fit a data field are in front of it. -/
theorem dataField_of_le {bytes : Bytes} (h : bytes.length ≤ dataCapacity) :
    dataField bytes = bytes ++ List.replicate (dataCapacity - bytes.length) 0 := by
  rw [dataField, List.take_of_length_le h, padData]

theorem source_id_append {bytes : Bytes} (rest : Bytes) (h : 4 ≤ bytes.length) :
    source_id (bytes ++ rest) = source_id bytes := by
  simp only [source_id, List.getD_append _ _ _ _ (show 0 < bytes.length by omega),
    List.getD_append _ _ _ _ (show 1 < bytes.length by omega),
    List.getD_append _ _ _ _ (show 2 < bytes.length by omega),
    List.getD_append _ _ _ _ (show 3 < bytes.length by omega)]

/-- The frame of the interface for bytes from the bus under a status. -/
def ofBus (status : UInt32) (bytes : Bytes) : can_frame :=
  { can_id :=
      if status &&& CAN_29BIT_ID ≠ 0 then source_id bytes &&& CAN_EFF_MASK ||| CAN_EFF_FLAG
      else source_id bytes &&& CAN_SFF_MASK
    len := UInt8.ofNat (bytes.length - 4)
    data := (bytes.drop 4 ++ List.replicate 8 0).take 8
    length_data := by simp }

section bus

variable {status timestamp : UInt32} {bytes : Bytes}

/-- The receiver keeps the width bit of a status and clears the echo bit. -/
theorem RxStatus_ofData (status timestamp : UInt32) (bytes : Bytes) :
    (Frame.ofData status timestamp bytes).toMsg.RxStatus &&& TX_MSG_TYPE = 0 ∧
      (Frame.ofData status timestamp bytes).toMsg.RxStatus &&& CAN_29BIT_ID = status &&& CAN_29BIT_ID := by
  constructor
  · exact and_mask_flag (by decide)
  · show status &&& 0xc0000100 &&& CAN_29BIT_ID = status &&& CAN_29BIT_ID
    rw [UInt32.and_assoc]
    rfl

theorem Data_ofData (status timestamp : UInt32) (bytes : Bytes) :
    (Frame.ofData status timestamp bytes).toMsg.Data = dataField bytes := by
  simp [Frame.toMsg, Frame.ofData, frameData]

/-- A frame from the bus is forwarded, whatever its status. -/
theorem to_socketcan_ofData (h4 : 4 ≤ bytes.length) (h12 : bytes.length ≤ 12) :
    to_socketcan (Frame.ofData status timestamp bytes).toMsg = some (ofBus status bytes) := by
  obtain ⟨hecho, hwidth⟩ := RxStatus_ofData status timestamp bytes
  have hsize : (Frame.ofData status timestamp bytes).toMsg.DataSize.toNat = bytes.length := by
    simp only [Frame.toMsg, Frame.ofData, UInt32.toNat_ofNat']
    omega
  have hdata : (Frame.ofData status timestamp bytes).toMsg.Data =
      bytes ++ List.replicate (dataCapacity - bytes.length) 0 := by
    rw [Data_ofData, dataField_of_le (by unfold dataCapacity; omega)]
  have hpass : ¬ ((Frame.ofData status timestamp bytes).toMsg.DataSize < 4 ∨
      (Frame.ofData status timestamp bytes).toMsg.DataSize > 12 ∨
      (Frame.ofData status timestamp bytes).toMsg.RxStatus &&& TX_MSG_TYPE ≠ 0) := by
    simp only [hecho, UInt32.lt_iff_toNat_lt, gt_iff_lt, hsize]
    simp
    omega
  rw [to_socketcan, if_neg hpass]
  simp only [hwidth, hsize, hdata, source_id_append _ h4, ofBus]
  simp [List.drop_append_of_le_length h4]

theorem ofBus_extended (status : UInt32) (bytes : Bytes) :
    (ofBus status bytes).extended = decide (status &&& CAN_29BIT_ID ≠ 0) := by
  by_cases hwidth : status &&& CAN_29BIT_ID ≠ 0
  · simp only [can_frame.extended, ofBus, if_pos hwidth]
    rw [and_mask_or_flag (by decide)]
    simp [hwidth, CAN_EFF_FLAG]
  · simp only [can_frame.extended, ofBus, if_neg hwidth]
    rw [and_mask_flag (by decide)]
    simp [hwidth]

theorem ofBus_identifier (status : UInt32) (bytes : Bytes) :
    (ofBus status bytes).identifier =
      source_id bytes &&& if status &&& CAN_29BIT_ID ≠ 0 then CAN_EFF_MASK else CAN_SFF_MASK := by
  rw [can_frame.identifier, ofBus_extended]
  by_cases hwidth : status &&& CAN_29BIT_ID ≠ 0
  · rw [if_pos hwidth, if_pos (by simpa using hwidth)]
    simp only [ofBus, if_pos hwidth]
    exact and_mask_or (by decide)
  · rw [if_neg hwidth, if_neg (by simpa using hwidth)]
    simp only [ofBus, if_neg hwidth]
    rw [UInt32.and_assoc, UInt32.and_self]

theorem ofBus_payload (status : UInt32) (h12 : bytes.length ≤ 12) :
    (ofBus status bytes).payload = bytes.drop 4 := by
  have hlen : (UInt8.ofNat (bytes.length - 4)).toNat = bytes.length - 4 := by
    rw [UInt8.toNat_ofNat']
    omega
  have hdrop : (bytes.drop 4).length = bytes.length - 4 := List.length_drop
  simp only [can_frame.payload, ofBus, hlen, List.take_take]
  rw [List.take_append_of_le_length (by omega), List.take_of_length_le (by omega)]

/-- An ID fits the width its status gives. -/
def Fits (status : UInt32) (bytes : Bytes) : Prop :=
  source_id bytes ≤ if status &&& CAN_29BIT_ID ≠ 0 then CAN_EFF_MASK else CAN_SFF_MASK

theorem ofBus_identifier_of_fits (h : Fits status bytes) :
    (ofBus status bytes).identifier = source_id bytes := by
  rw [ofBus_identifier]
  rw [Fits] at h
  by_cases hwidth : status &&& CAN_29BIT_ID ≠ 0
  · rw [if_pos hwidth] at h ⊢
    exact and_mask_of_le (n := 29) (by decide) h
  · rw [if_neg hwidth] at h ⊢
    exact and_mask_of_le (n := 11) (by decide) h

/-- A frame that went to the interface comes back as it was. -/
theorem from_socketcan_ofBus (h4 : 4 ≤ bytes.length) (h12 : bytes.length ≤ 12) (h : Fits status bytes) :
    ∃ m, from_socketcan (ofBus status bytes) = some m ∧ m.Data = dataField bytes ∧
      m.DataSize = UInt32.ofNat bytes.length ∧ m.TxFlags = status &&& CAN_29BIT_ID := by
  have hlen : (ofBus status bytes).len.toNat = bytes.length - 4 := by
    simp only [ofBus, UInt8.toNat_ofNat']
    omega
  have hflags : (ofBus status bytes).can_id &&& (CAN_RTR_FLAG ||| CAN_ERR_FLAG) = 0 := by
    simp only [ofBus]
    split
    · exact and_mask_or_flags (by decide) (by decide)
    · exact and_mask_flag (by decide)
  have hpass : ¬ ((ofBus status bytes).can_id &&& (CAN_RTR_FLAG ||| CAN_ERR_FLAG) ≠ 0 ∨
      (ofBus status bytes).len > 8) := by
    simp only [hflags, gt_iff_lt, UInt8.lt_iff_toNat_lt, hlen]
    simp
    omega
  refine ⟨_, by rw [from_socketcan, if_neg hpass], ?_, ?_, ?_⟩
  · show dataField (idBytes (ofBus status bytes).identifier ++ (ofBus status bytes).payload) = dataField bytes
    rw [ofBus_identifier_of_fits h, ofBus_payload _ h12, idBytes_source_id h4, with_identifier, identifier,
      List.take_append_drop]
  · show UInt32.ofNat (4 + (ofBus status bytes).len.toNat) = UInt32.ofNat bytes.length
    rw [hlen, Nat.add_sub_cancel' h4]
  · show (if (ofBus status bytes).extended then CAN_29BIT_ID else 0) = status &&& CAN_29BIT_ID
    rw [ofBus_extended]
    obtain hwidth | hwidth := and_29bit status
    · rw [hwidth]
      rfl
    · rw [hwidth]
      rfl

/-- A frame of the interface is accepted by the channel. -/
theorem from_socketcan_ok {frame : can_frame} {message : PASSTHRU_MSG}
    (h : from_socketcan frame = some message) :
    frame.payload.length = frame.len.toNat ∧ frame.len.toNat ≤ 8 ∧
      message.bytes = idBytes frame.identifier ++ frame.payload ∧
      message.TxFlags = (if frame.extended then CAN_29BIT_ID else 0) ∧
      ∀ timeout_ms, ∃ payload, can_transmit message timeout_ms = .ok payload := by
  rw [from_socketcan] at h
  split at h
  · cases h
  next hpass =>
    cases h
    simp only [not_or, gt_iff_lt, UInt8.not_lt, UInt8.le_iff_toNat_le] at hpass
    have hle : frame.len.toNat ≤ 8 := hpass.2
    have hpayload : frame.payload.length = frame.len.toNat := by
      rw [can_frame.payload, List.length_take, frame.length_data]
      omega
    have hsize : (UInt32.ofNat (4 + frame.len.toNat)).toNat = 4 + frame.len.toNat := by
      rw [UInt32.toNat_ofNat']
      omega
    have hlen : (idBytes frame.identifier ++ frame.payload).length = 4 + frame.len.toNat := by
      rw [List.length_append, length_idBytes, hpayload]
    refine ⟨hpayload, hle, ?_, rfl, fun timeout_ms => ?_⟩
    · show (dataField (idBytes frame.identifier ++ frame.payload)).take
        (UInt32.ofNat (4 + frame.len.toNat)).toNat = _
      rw [hsize, dataField_of_le (by unfold dataCapacity; omega),
        List.take_append_of_le_length (by omega), List.take_of_length_le (by omega)]
    · refine ⟨_, can_transmit_of_valid rfl ?_ ?_ ?_⟩
      · show ¬ flagsOutside (if frame.extended then CAN_29BIT_ID else 0) CAN_29BIT_ID
        split <;> decide
      · show 4 ≤ (UInt32.ofNat (4 + frame.len.toNat)).toNat
        omega
      · show (UInt32.ofNat (4 + frame.len.toNat)).toNat ≤ 12
        omega

end bus

/-! ## the channel -/

/-- The receiver of an open CAN channel with room for one more frame. -/
structure Receptive (r : CanReceiver) : Prop where
  protocol : r.protocol = CAN
  stopped : r.stopped = 0
  bounded : r.Bounded
  room : r.frames.length < capacity

section channel

variable {r : CanReceiver} {body bytes : Bytes} {status timestamp : UInt32}

/-- A body gives a reader what it offers, as far as there is room. -/
theorem receive_backlog (hprotocol : r.protocol = CAN) (hstopped : r.stopped = 0) (hbounded : r.Bounded)
    (body : Bytes) :
    ∃ r', r.receive body = .ok r' ∧
      r'.backlog = fill r.limit r.backlog (r.offers (inbound (channel_node CAN.toNat) body)) := by
  refine ⟨r.handle (inbound (channel_node CAN.toNat) body), ?_, (received_handle hbounded _).backlog⟩
  rw [receive_eq hbounded, if_neg (not_not.mpr hstopped), hprotocol]

/-- A frame from the bus is delivered. -/
theorem receive_data (h : Receptive r)
    (hbody : inbound (channel_node CAN.toNat) body = .data status timestamp bytes) :
    ∃ r', r.receive body = .ok r' ∧
      r'.backlog = r.backlog ++ [(Frame.ofData status timestamp bytes).toMsg] := by
  have hiso : ¬ r.protocol = ISO15765 := by rw [h.protocol]; decide
  have hroom : r.backlog.length < r.limit := by
    simp only [backlog, limit, if_neg hiso, List.length_map]
    exact h.room
  obtain ⟨r', hr', hbacklog⟩ := receive_backlog h.protocol h.stopped h.bounded body
  refine ⟨r', hr', ?_⟩
  rw [hbacklog, hbody, offers, if_neg hiso, fill_cons hroom, fill_nil]

/-- An echo carries the echo bit. -/
theorem echo_offers (hprotocol : r.protocol = CAN) {sequence : Nat} {m : PASSTHRU_MSG}
    (h : m ∈ r.offers (.sent sequence timestamp)) : to_socketcan m = none := by
  have hiso : ¬ r.protocol = ISO15765 := by rw [hprotocol]; decide
  simp only [offers, if_neg hiso] at h
  split at h
  · cases h
  next sent hsent =>
    obtain ⟨f, hf, rfl⟩ := List.mem_map.mp h
    rw [echoFrames] at hf
    split at hf
    · obtain rfl := List.mem_singleton.mp hf
      have hecho (wide : UInt32) (hwide : wide = 0x100 ∨ wide = 0) :
          (TX_MSG_TYPE ||| wide) &&& TX_MSG_TYPE ≠ 0 := by
        obtain rfl | rfl := hwide <;> decide
      rw [to_socketcan, if_pos]
      refine .inr (.inr (hecho _ ?_))
      split
      · exact .inl rfl
      · exact .inr rfl
    · cases hf

/-- **The bridge is transparent.**  A frame taken from the interface is accepted by the
channel, and seen on the bus it comes back as it was.  A frame from the bus is forwarded
under any status, and if its ID fits its width the channel would send it as it was.  An
echo is not forwarded. -/
theorem bridge_transparent :
    (∀ frame message, from_socketcan frame = some message →
      (∀ timeout_ms, ∃ payload, can_transmit message timeout_ms = .ok payload) ∧
      ∀ r body status timestamp, Receptive r →
        inbound (channel_node CAN.toNat) body = .data status timestamp message.bytes →
        status &&& CAN_29BIT_ID = message.TxFlags →
        ∃ r' m seen, r.receive body = .ok r' ∧ r'.backlog = r.backlog ++ [m] ∧
          to_socketcan m = some seen ∧ seen.identifier = frame.identifier ∧
          seen.extended = frame.extended ∧ seen.len = frame.len ∧ seen.payload = frame.payload) ∧
    (∀ r body status timestamp bytes, Receptive r →
      inbound (channel_node CAN.toNat) body = .data status timestamp bytes →
      ∃ r' m frame, r.receive body = .ok r' ∧ r'.backlog = r.backlog ++ [m] ∧
        m.RxStatus &&& TX_MSG_TYPE = 0 ∧ to_socketcan m = some frame ∧
        (Fits status bytes → ∃ m', from_socketcan frame = some m' ∧ m'.Data = m.Data ∧
          m'.DataSize = m.DataSize ∧ m'.TxFlags = m.RxStatus &&& CAN_29BIT_ID)) ∧
    ∀ (r : CanReceiver) body sequence timestamp, r.protocol = CAN → r.stopped = 0 → r.Bounded →
      inbound (channel_node CAN.toNat) body = .sent sequence timestamp →
      ∃ r' echoes, r.receive body = .ok r' ∧ r'.backlog = r.backlog ++ echoes ∧
        vehicle_to_host echoes = [] := by
  refine ⟨fun frame message h => ?_, fun r body status timestamp bytes hr hbody => ?_,
    fun r body sequence timestamp hprotocol hstopped hbounded hbody => ?_⟩
  · obtain ⟨hlen, hle, hbytes, hflags, haccepted⟩ := from_socketcan_ok h
    refine ⟨haccepted, fun r body status timestamp hr hbody hwidth => ?_⟩
    obtain ⟨r', hr', hbacklog⟩ := receive_data hr hbody
    obtain ⟨h4, h12⟩ := length_of_inbound hbody
    have hext : (status &&& CAN_29BIT_ID ≠ 0) ↔ frame.extended = true := by
      rw [hwidth, hflags]
      cases frame.extended <;> decide
    refine ⟨r', _, _, hr', hbacklog, to_socketcan_ofData h4 h12, ?_, ?_, ?_, ?_⟩
    · rw [ofBus_identifier, hbytes, source_id_idBytes]
      simp only [hext, can_frame.identifier, UInt32.and_assoc, UInt32.and_self]
    · rw [ofBus_extended, Bool.eq_iff_iff, decide_eq_true_iff]
      exact hext
    · simp only [ofBus, hbytes, List.length_append, length_idBytes, hlen, Nat.add_sub_cancel_left,
        UInt8.ofNat_toNat]
    · rw [ofBus_payload _ h12, hbytes, List.drop_left' (length_idBytes _)]
  · obtain ⟨r', hr', hbacklog⟩ := receive_data hr hbody
    obtain ⟨h4, h12⟩ := length_of_inbound hbody
    obtain ⟨hecho, hwidth⟩ := RxStatus_ofData status timestamp bytes
    refine ⟨r', _, _, hr', hbacklog, hecho, to_socketcan_ofData h4 h12, fun hfits => ?_⟩
    obtain ⟨m', hm', hdata, hsize, hflags⟩ := from_socketcan_ofBus h4 h12 hfits
    exact ⟨m', hm', hdata.trans (Data_ofData _ _ _).symm, hsize, hflags.trans hwidth.symm⟩
  · obtain ⟨r', hr', hbacklog⟩ := receive_backlog hprotocol hstopped hbounded body
    refine ⟨r', _, hr', hbacklog, List.filterMap_eq_nil_iff.mpr fun m hm => ?_⟩
    rw [hbody] at hm
    exact echo_offers hprotocol (List.mem_of_mem_take hm)

/-- A 29-bit frame with three bytes of data, sent and seen again with every status bit set. -/
theorem bridge_transparent_extended :
    ∃ r' m seen,
      ({} : CanReceiver).receive ([0, 0, 1, 5, 9, 0, 0, 0, 0, 0, 0, 0] ++ [0xff, 0xff, 0xff, 0xff] ++
        [1, 0, 0, 0] ++ [0, 0, 7, 0] ++ [0x18, 0xda, 0xf1, 0x10, 0xde, 0xad, 0xbe]) = .ok r' ∧
      r'.backlog = [m] ∧ to_socketcan m = some seen ∧ seen.identifier = 0x18daf110 ∧
      seen.extended = true ∧ seen.len = 3 ∧ seen.payload = [0xde, 0xad, 0xbe] := by
  have hframe := (bridge_transparent.1
    { can_id := 0x98daf110, len := 3, data := [0xde, 0xad, 0xbe, 0, 0, 0, 0, 0], length_data := rfl } _ rfl).2
    {} ([0, 0, 1, 5, 9, 0, 0, 0, 0, 0, 0, 0] ++ [0xff, 0xff, 0xff, 0xff] ++ [1, 0, 0, 0] ++ [0, 0, 7, 0] ++
      [0x18, 0xda, 0xf1, 0x10, 0xde, 0xad, 0xbe]) 0xffffffff 1
    ⟨rfl, rfl, ⟨by decide, by decide, by decide⟩, by decide⟩ (by decide) (by decide)
  exact hframe

end channel

end SocketCan

end Mongoose
