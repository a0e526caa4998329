import Mathlib.Logic.Function.Basic
import Mathlib.Tactic.Common
import Mongoose.Codec
import Mongoose.IsoTp

/-!
# Mongoose.Can

The payloads of channel commands, and the receiver of an open channel.

Every encoder checks a message before it lays it out, in the order and with the
errors of the source.  `CanReceiver` is what the reader thread and the API share
under the receiver's mutex: queues of received frames and messages, the writes
not yet confirmed, and the sticky loss flags.  Each of its functions here is
one critical section.
-/

namespace Mongoose

/-! ## wire table selectors -/

def table_pass : UInt8 := 0
def table_block : UInt8 := 1
def table_flow_control : UInt8 := 2
def table_periodic : UInt8 := 4

/-! ## payload encoders -/

/-- The flags have a bit outside `allowed`. -/
def flagsOutside (flags allowed : UInt32) : Prop := flags &&& ~~~allowed ≠ 0

instance (flags allowed : UInt32) : Decidable (flagsOutside flags allowed) :=
  inferInstanceAs (Decidable (_ ≠ _))

/-- The upper half-word of a 32-bit value, `v >> 16`. -/
def high16 (v : Nat) : Nat := v / 65536

/-- A 32-bit value in four bytes. -/
def bytes32 (v : UInt32) : Bytes := bytes16 v.toNat ++ bytes16 (high16 v.toNat)

/-- Filter add: table selector, flags, type, size, mask and pattern verbatim. -/
def can_table_filter (mask pattern : PASSTHRU_MSG) (channel_flags : UInt32) (table type : UInt8) :
    Except Exception Bytes := do
  if mask.ProtocolID ≠ CAN ∨ pattern.ProtocolID ≠ CAN then
    throw (.Error ERR_MSG_PROTOCOL_ID "filter protocol must match CAN channel")
  if flagsOutside (mask.TxFlags ||| pattern.TxFlags) CAN_29BIT_ID then
    throw (.Error ERR_INVALID_FLAGS "unsupported CAN filter flags")
  if mask.TxFlags ≠ channel_flags ∨ pattern.TxFlags ≠ channel_flags then
    throw (.Error ERR_INVALID_MSG "filter identifier width must match channel")
  if mask.DataSize < 4 ∨ mask.DataSize > 12 ∨ pattern.DataSize ≠ mask.DataSize then
    throw (.Error ERR_INVALID_MSG "CAN mask and pattern must have equal sizes in 4..12")
  let payload ← put16 [table, 0, 0, 0, 0, 0, type, UInt8.ofNat pattern.DataSize.toNat] 4
    mask.TxFlags.toNat
  pure (payload ++ mask.bytes ++ pattern.bytes)

def can_pass_filter (mask pattern : PASSTHRU_MSG) (channel_flags : UInt32) :
    Except Exception Bytes :=
  can_table_filter mask pattern channel_flags table_pass 1

def can_block_filter (mask pattern : PASSTHRU_MSG) (channel_flags : UInt32) :
    Except Exception Bytes :=
  can_table_filter mask pattern channel_flags table_block 2

/-- One raw CAN frame: flags, timeout, data size, extra data index, then the data. -/
def can_transmit (message : PASSTHRU_MSG) (timeout_ms : UInt32) : Except Exception Bytes := do
  if message.ProtocolID ≠ CAN then
    throw (.Error ERR_MSG_PROTOCOL_ID "message protocol must match CAN channel")
  let flags := message.TxFlags
  if flagsOutside flags CAN_29BIT_ID then
    throw (.Error ERR_INVALID_FLAGS "unsupported CAN transmit flags")
  if message.DataSize < 4 ∨ message.DataSize > 12 then
    throw (.Error ERR_INVALID_MSG "CAN message size must be 4..12")
  let payload := List.replicate 12 0
  let payload ← put16 payload 0 flags.toNat
  let payload ← put16 payload 2 (high16 flags.toNat)
  let payload ← put16 payload 4 timeout_ms.toNat
  let payload ← put16 payload 6 (high16 timeout_ms.toNat)
  let payload ← put16 payload 8 message.DataSize.toNat
  let payload ← put16 payload 10 message.ExtraDataIndex.toNat
  pure (payload ++ message.bytes)

/-- One periodic CAN message: table selector, interval, flags, size, then the data. -/
def can_periodic (message : PASSTHRU_MSG) (interval_ms : UInt32) : Except Exception Bytes := do
  if interval_ms < 5 ∨ interval_ms > 65535 then
    throw (.Error ERR_INVALID_TIME_INTERVAL "periodic interval must be 5..65535 ms")
  if message.ProtocolID ≠ CAN then
    throw (.Error ERR_MSG_PROTOCOL_ID "message protocol must match CAN channel")
  let flags := message.TxFlags
  if flagsOutside flags CAN_29BIT_ID then
    throw (.Error ERR_INVALID_FLAGS "unsupported CAN transmit flags")
  if message.DataSize < 4 ∨ message.DataSize > 12 then
    throw (.Error ERR_INVALID_MSG "CAN message size must be 4..12")
  let payload := (List.replicate 13 0).set 0 table_periodic
  let payload ← put16 payload 4 interval_ms.toNat
  let payload ← put16 payload 6 (high16 interval_ms.toNat)
  let payload ← put16 payload 8 flags.toNat
  let payload ← put16 payload 10 (high16 flags.toNat)
  let payload := payload.set 12 (UInt8.ofNat message.DataSize.toNat)
  pure (payload ++ message.bytes)

/-- ISO15765 flow-control filter: the response ID matched and the request ID
answered to.  It takes no mask, so the mask must cover the whole 11-bit ID. -/
def isotp_flow_control_filter (mask pattern flow : PASSTHRU_MSG) : Except Exception Bytes := do
  if mask.ProtocolID ≠ ISO15765 ∨ pattern.ProtocolID ≠ ISO15765 ∨ flow.ProtocolID ≠ ISO15765 then
    throw (.Error ERR_MSG_PROTOCOL_ID "filter protocol must match ISO15765 channel")
  let flags := pattern.TxFlags
  if mask.TxFlags ≠ flags ∨ flow.TxFlags ≠ flags then
    throw (.Error ERR_INVALID_MSG "mask, pattern and flow-control flags must agree")
  if flagsOutside flags ISO15765_FRAME_PAD then
    throw (.Error ERR_INVALID_FLAGS "unsupported ISO15765 filter flags")
  if mask.DataSize ≠ 4 ∨ pattern.DataSize ≠ 4 ∨ flow.DataSize ≠ 4 then
    throw (.Error ERR_INVALID_MSG "ISO15765 filter messages are four ID bytes")
  -- the lambda `identifier` of the source reads four big-endian bytes, as `source_id` does
  if source_id mask.Data &&& 0x7ff ≠ 0x7ff then
    throw (.Error ERR_INVALID_MSG "the adapter matches the whole 11-bit ID; mask must cover it")
  if source_id pattern.Data > 0x7ff ∨ source_id flow.Data > 0x7ff then
    throw (.Error ERR_INVALID_MSG "only 11-bit ISO15765 identifiers are supported")
  let payload : Bytes := [2, 0, 0, 0, 0, 0, 0, 0, 0, 0, 0, 0, 0, 0, 0, 0, 0, 0, 0]
  let payload ← put16 payload 4 flags.toNat
  let payload ← put16 payload 6 (high16 flags.toNat)
  pure (payload.take 9 ++ pattern.Data.take 4 ++ (payload.drop 13).take 1 ++ flow.Data.take 4 ++
    payload.drop 18)

/-- One ISO15765 request; the adapter segments it. -/
def isotp_transmit (message : PASSTHRU_MSG) (timeout_ms : UInt32) : Except Exception Bytes := do
  if message.ProtocolID ≠ ISO15765 then
    throw (.Error ERR_MSG_PROTOCOL_ID "message protocol must match ISO15765 channel")
  if flagsOutside message.TxFlags ISO15765_FRAME_PAD then
    throw (.Error ERR_INVALID_FLAGS "unsupported ISO15765 transmit flags")
  if message.DataSize < 5 ∨ message.DataSize > 4 + 4095 then
    throw (.Error ERR_INVALID_MSG "ISO15765 message must be an ID plus 1..4095 data bytes")
  let payload := List.replicate 12 0
  let payload ← put16 payload 0 message.TxFlags.toNat
  let payload ← put16 payload 2 (high16 message.TxFlags.toNat)
  let payload ← put16 payload 4 timeout_ms.toNat
  let payload ← put16 payload 6 (high16 timeout_ms.toNat)
  let payload ← put16 payload 8 message.DataSize.toNat
  let payload ← put16 payload 10 0
  pure (payload ++ message.bytes)

/-! ## the receiver -/

/-- A `shared_ptr<TransmitCount>`: which WriteMsgs call a record belongs to. -/
abbrev TransmitCall := Nat

namespace CanReceiver

def capacity : Nat := 4096
def message_capacity : Nat := 256

/-- A queued raw CAN frame; `data` is a fixed array of twelve bytes. -/
structure Frame where
  status : UInt32
  timestamp : UInt32
  size : Nat
  data : Bytes
  tx_flags : UInt32 := 0
  deriving DecidableEq, Repr

/-- A queued ISO15765 message or indication. -/
structure Message where
  status : UInt32
  timestamp : UInt32
  data : Bytes
  tx_flags : UInt32 := 0
  deriving DecidableEq, Repr

/-- A write recorded before it was sent: its sequence, flags, ID plus data, and call. -/
structure PendingTransmit where
  sequence : Nat
  flags : UInt32
  message : Bytes
  call : Option TransmitCall
  deriving DecidableEq, Repr

end CanReceiver

open CanReceiver in
/-- The receiver of one channel.  `confirmed` holds the counts of the
`TransmitCall`s its records point to. -/
structure CanReceiver where
  protocol : UInt32 := CAN
  reassembler : IsoTpReassembler := {}
  messages : List Message := []
  pending_transmits : List PendingTransmit := []
  frames : List Frame := []
  transmitted : Nat := 0
  confirmed : TransmitCall → Nat := fun _ => 0
  overflow : Bool := false
  malformed : Bool := false
  loopback : Bool := false
  stopped : Int := 0
  reason : String := ""

namespace CanReceiver

/-- Twelve bytes, the given ones in front. -/
def frameData (bytes : Bytes) : Bytes := bytes ++ List.replicate (12 - bytes.length) 0

/-- Credit a confirmation to the call of a record, if it has one. -/
def credit (r : CanReceiver) (call : Option TransmitCall) : CanReceiver :=
  match call with
  | none => r
  | some c => { r with confirmed := Function.update r.confirmed c (r.confirmed c + 1) }

/-- The record a confirmation of a sequence pairs with: the first that has it. -/
def paired (r : CanReceiver) (sequence : Nat) : Option PendingTransmit :=
  r.pending_transmits.find? fun p => p.sequence = sequence

/-- Report a confirmed write.  ISO15765 always gets the transmit-done indication,
and with LOOPBACK either protocol gets the message back. -/
def confirm (r : CanReceiver) (sent : PendingTransmit) (timestamp : UInt32) : CanReceiver :=
  let r := r.credit sent.call
  if r.protocol = ISO15765 then
    if sent.message.length ≥ 4 ∧ r.messages.length = message_capacity then { r with overflow := true }
    else
      let r := if sent.message.length ≥ 4 then
          { r with messages := r.messages ++
            [{ status := TX_MSG_TYPE ||| TX_DONE, timestamp := timestamp,
               data := sent.message.take 4, tx_flags := sent.flags }] }
        else r
      if r.loopback then
        if r.messages.length = message_capacity then { r with overflow := true }
        else
          { r with messages := r.messages ++
            [{ status := TX_MSG_TYPE, timestamp := timestamp, data := sent.message,
               tx_flags := sent.flags }] }
      else r
  else if r.loopback ∧ sent.message.length ≥ 4 ∧ sent.message.length ≤ 12 then
    if r.frames.length = capacity then { r with overflow := true }
    else
      { r with frames := r.frames ++
        [{ status := TX_MSG_TYPE ||| (if sent.flags &&& CAN_29BIT_ID ≠ 0 then 0x100 else 0),
           timestamp := timestamp, size := sent.message.length,
           data := frameData sent.message, tx_flags := sent.flags }] }
  else r

/-- Pair a confirmation with its record and drop that record and the ones before
it; an unknown sequence changes nothing.  True if it paired. -/
def deliver_confirmed (r : CanReceiver) (sequence : Nat) (timestamp : UInt32) :
    Bool × CanReceiver :=
  match r.paired sequence with
  | none => (false, r)
  | some sent =>
      let kept := (r.pending_transmits.dropWhile fun p => p.sequence ≠ sequence).tail
      (true, { r with pending_transmits := kept }.confirm sent timestamp)

/-- Queue reassembled messages until the queue is full. -/
def queueOutputs (r : CanReceiver) (timestamp : UInt32) :
    List IsoTpReassembler.Output → CanReceiver
  | [] => r
  | o :: os =>
      if r.messages.length = message_capacity then { r with overflow := true }
      else
        queueOutputs { r with messages := r.messages ++
          [{ status := o.rx_status, timestamp := timestamp, data := o.data }] } timestamp os

/-- One inbound body.  Anything not addressed from the channel's node to the PC,
or of another opcode, is not the receiver's. -/
def receive (r : CanReceiver) (body : Bytes) : Except Exception CanReceiver :=
  if r.stopped ≠ 0 ∨ body.length < 12 then pure r
  else do
    let destination ← le16 body 0
    let source ← le16 body 2
    if destination ≠ 0 ∨ source ≠ channel_node r.protocol.toNat then pure r
    else
      let opcode ← le16 body 4
      if opcode = 10 then
        if body.length < 20 then pure r
        else
          let indication ← le32 body 12
          -- two firmware loss indications
          if indication = 0x10b ∨ indication = 0x119 then pure { r with overflow := true }
          -- iMsgTxDone: one frame left the controller
          else if indication = 0x106 then
            let sequence ← le16 body 6
            let timestamp ← le32 body 16
            let (paired, r) := r.deliver_confirmed sequence (UInt32.ofNat timestamp)
            pure (if paired then { r with transmitted := r.transmitted + 1 } else r)
          else pure r
      else if opcode ≠ 9 then pure r
      else if body.length < 24 then pure { r with malformed := true }
      else
        let size ← le16 body 22
        if size < 4 ∨ size > 12 ∨ body.length ≠ 24 + size then pure { r with malformed := true }
        else
          let timestamp ← le32 body 16
          if r.protocol = ISO15765 then
            let (outputs, reassembler) := r.reassembler.feed ((body.drop 24).take size)
            pure ({ r with reassembler := reassembler }.queueOutputs (UInt32.ofNat timestamp) outputs)
          else if r.frames.length = capacity then pure { r with overflow := true }
          else
            let status ← le32 body 12
            pure { r with frames := r.frames ++
              [{ status := UInt32.ofNat status &&& 0xc0000100, timestamp := UInt32.ofNat timestamp,
                 size := size, data := frameData ((body.drop 24).take size) }] }

/-- With 256 writes outstanding the oldest record goes. -/
def make_room (r : CanReceiver) : CanReceiver :=
  if r.pending_transmits.length = message_capacity then
    { r with pending_transmits := r.pending_transmits.tail }
  else r

/-- Record a write under its sequence. -/
def note_transmit (r : CanReceiver) (message : PASSTHRU_MSG) (sequence : Nat)
    (call : Option TransmitCall) : CanReceiver :=
  let size := min message.DataSize.toNat (4 + 8 + 4096)
  { r.make_room with pending_transmits := r.make_room.pending_transmits ++
      [{ sequence := sequence, flags := message.TxFlags, message := message.Data.take size,
         call := call }] }

def set_loopback (r : CanReceiver) (enabled : Bool) : CanReceiver := { r with loopback := enabled }

/-- The write that noted the newest record was refused. -/
def forget_transmit (r : CanReceiver) : CanReceiver :=
  { r with pending_transmits := r.pending_transmits.dropLast }

def flush_receive (r : CanReceiver) : CanReceiver :=
  { r with frames := [], messages := [], reassembler := r.reassembler.reset, overflow := false,
           malformed := false }

def forget_transmits (r : CanReceiver) : CanReceiver := { r with pending_transmits := [] }

/-- The first stop code and reason stay. -/
def stop (r : CanReceiver) (code : Int) (reason : String) : CanReceiver :=
  { r with
    stopped := if r.stopped = 0 then code else r.stopped
    reason := if r.stopped = 0 then reason else r.reason
    frames := []
    messages := []
    pending_transmits := [] }

/-! ### reading -/

/-- A queued message as a reader gets it: an indication reports no extra data. -/
def Message.toMsg (m : Message) : PASSTHRU_MSG :=
  { ProtocolID := ISO15765, RxStatus := m.status, TxFlags := m.tx_flags, Timestamp := m.timestamp
    DataSize := UInt32.ofNat m.data.length
    ExtraDataIndex :=
      if m.status &&& (START_OF_MESSAGE ||| TX_DONE) ≠ 0 then 0 else UInt32.ofNat m.data.length
    Data := dataField m.data, length_Data := length_dataField _ }

def Frame.toMsg (f : Frame) : PASSTHRU_MSG :=
  { ProtocolID := CAN, RxStatus := f.status, TxFlags := f.tx_flags, Timestamp := f.timestamp
    DataSize := UInt32.ofNat f.size, ExtraDataIndex := UInt32.ofNat f.size
    Data := dataField (f.data.take f.size), length_Data := length_dataField _ }

/-- How many messages one pass of the read loop takes, of those left to take. -/
def available (r : CanReceiver) (left : Nat) : Nat :=
  if r.protocol = ISO15765 then min r.messages.length left else 0

/-- One pass of the read loop: messages, then frames, up to what is left. -/
def take (r : CanReceiver) (left : Nat) : List PASSTHRU_MSG × CanReceiver :=
  let n := r.available left
  ((r.messages.take n).map Message.toMsg ++ (r.frames.take (left - n)).map Frame.toMsg,
    { r with messages := r.messages.drop n, frames := r.frames.drop (left - n) })

/-- Something is queued. -/
def pending (r : CanReceiver) : Prop :=
  if r.protocol = ISO15765 then r.messages ≠ [] else r.frames ≠ []

instance (r : CanReceiver) : Decidable r.pending := by unfold pending; infer_instance

/-- A waiting reader wakes. -/
def awake (r : CanReceiver) : Prop := r.stopped ≠ 0 ∨ r.pending ∨ r.overflow ∨ r.malformed

instance (r : CanReceiver) : Decidable r.awake := inferInstanceAs (Decidable (_ ∨ _ ∨ _ ∨ _))

/-- A loss is reported once, an overflow before a malformed frame. -/
def report (r : CanReceiver) : Option Exception × CanReceiver :=
  if r.overflow then
    (some (.Error ERR_BUFFER_OVERFLOW "CAN receive buffer overflow; messages lost"),
      { r with overflow := false })
  else if r.malformed then
    (some (.Error ERR_INVALID_MSG "malformed CAN receive frame discarded"),
      { r with malformed := false })
  else (none, r)

/-! ## the pending records -/

section pending

variable {r r' : CanReceiver}

@[simp] theorem pending_credit (r : CanReceiver) (call : Option TransmitCall) :
    (r.credit call).pending_transmits = r.pending_transmits := by
  cases call <;> rfl

/-- Reporting a write queues messages only. -/
@[simp] theorem pending_confirm (r : CanReceiver) (sent : PendingTransmit) (timestamp : UInt32) :
    (r.confirm sent timestamp).pending_transmits = r.pending_transmits := by
  simp only [confirm]
  split_ifs <;> simp

@[simp] theorem pending_queueOutputs (r : CanReceiver) (timestamp : UInt32)
    (os : List IsoTpReassembler.Output) :
    (r.queueOutputs timestamp os).pending_transmits = r.pending_transmits := by
  induction os generalizing r with
  | nil => rfl
  | cons o os ih =>
      rw [queueOutputs]
      split
      · rfl
      · rw [ih]

/-- A confirmation drops records from the front. -/
theorem pending_deliver_confirmed (r : CanReceiver) (sequence : Nat) (timestamp : UInt32) :
    (r.deliver_confirmed sequence timestamp).2.pending_transmits <:+ r.pending_transmits := by
  rw [deliver_confirmed]
  split
  · exact List.suffix_rfl
  · rw [pending_confirm]
    exact (List.tail_suffix _).trans (List.dropWhile_suffix _)

/-- An inbound body drops records from the front, if any. -/
theorem pending_receive {body : Bytes} (h : r.receive body = .ok r') :
    r'.pending_transmits <:+ r.pending_transmits := by
  have hsame {q : CanReceiver} (hr : (pure q : Except Exception CanReceiver) = .ok r')
      (hq : q.pending_transmits = r.pending_transmits) :
      r'.pending_transmits <:+ r.pending_transmits := by
    obtain rfl := Except.ok.inj hr
    exact hq ▸ List.suffix_rfl
  rw [receive] at h
  split at h
  · exact hsame h rfl
  have h := le16_bind_ok (le16_bind_ok h)
  split at h
  · exact hsame h rfl
  have h := le16_bind_ok h
  split at h
  · split at h
    · exact hsame h rfl
    obtain ⟨indication, -, h⟩ := bind_ok h
    split at h
    · exact hsame h rfl
    split at h
    · obtain ⟨timestamp, -, h⟩ := bind_ok (le16_bind_ok h)
      have hd := pending_deliver_confirmed r (le16At body 6) (UInt32.ofNat timestamp)
      generalize r.deliver_confirmed (le16At body 6) (UInt32.ofNat timestamp) = d at h hd
      obtain rfl := Except.ok.inj h
      split <;> exact hd
    · exact hsame h rfl
  split at h
  · exact hsame h rfl
  split at h
  · exact hsame h rfl
  have h := le16_bind_ok h
  split at h
  · exact hsame h rfl
  obtain ⟨timestamp, -, h⟩ := bind_ok h
  split at h
  · exact hsame h (pending_queueOutputs ..)
  split at h
  · exact hsame h rfl
  obtain ⟨status, -, h⟩ := bind_ok h
  exact hsame h rfl

end pending

end CanReceiver

end Mongoose
