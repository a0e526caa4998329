import Mongoose.Can
import Mongoose.Lib.Fifo

/-!
# Mongoose.Can.Inbound

What a body means to a receiver.

`inbound` classifies a body by its bytes alone and `handle` acts on the class, and
`receive_eq` says that this is `receive`.  A receiver has one queue, frames or messages by
its protocol: `backlog` is that queue as a reader gets it, and `Received` says how a body
fills it.
-/

namespace Mongoose

namespace CanReceiver

open Fifo

/-! ## bodies -/

/-- The kinds of body the receiver of a node can get. -/
inductive Inbound
  /-- Not the receiver's, or nothing to it. -/
  | other
  /-- The firmware lost frames. -/
  | loss
  /-- One frame of the command with this sequence was sent. -/
  | sent (sequence : Nat) (timestamp : UInt32)
  | malformed
  /-- A frame from the bus: four bytes of ID and up to eight of data. -/
  | data (status timestamp : UInt32) (frame : Bytes)
  deriving DecidableEq, Repr

/-- The class of a body. -/
def inbound (node : Nat) (body : Bytes) : Inbound :=
  if body.length < 12 ∨ le16At body 0 ≠ 0 ∨ le16At body 2 ≠ node then .other
  else if le16At body 4 = 10 then
    if body.length < 20 then .other
    else if le32At body 12 = 0x10b ∨ le32At body 12 = 0x119 then .loss
    else if le32At body 12 = 0x106 then .sent (le16At body 6) (UInt32.ofNat (le32At body 16))
    else .other
  else if le16At body 4 ≠ 9 then .other
  else if body.length < 24 ∨ le16At body 22 < 4 ∨ le16At body 22 > 12 ∨
      body.length ≠ 24 + le16At body 22 then .malformed
  else
    .data (UInt32.ofNat (le32At body 12)) (UInt32.ofNat (le32At body 16))
      ((body.drop 24).take (le16At body 22))

/-- The frame of a data body has four to twelve bytes. -/
theorem length_of_inbound {node : Nat} {body frame : Bytes} {status timestamp : UInt32}
    (h : inbound node body = .data status timestamp frame) : 4 ≤ frame.length ∧ frame.length ≤ 12 := by
  unfold inbound at h
  split_ifs at h
  cases h
  simp only [List.length_take, List.length_drop]
  omega

/-! ## queues -/

/-- Messages queued as far as there is room. -/
def queueMessages (r : CanReceiver) (ms : List Message) : CanReceiver :=
  { r with
    messages := fill message_capacity r.messages ms
    overflow := r.overflow || !(refused message_capacity r.messages ms).isEmpty }

/-- Frames queued as far as there is room. -/
def queueFrames (r : CanReceiver) (fs : List Frame) : CanReceiver :=
  { r with
    frames := fill capacity r.frames fs
    overflow := r.overflow || !(refused capacity r.frames fs).isEmpty }

section queues

variable {r : CanReceiver}

@[simp] theorem queueMessages_nil : r.queueMessages [] = r := by simp [queueMessages]

@[simp] theorem queueFrames_nil : r.queueFrames [] = r := by simp [queueFrames]

/-- A message that does not fit is lost, and the loss noted. -/
theorem queueMessages_full {ms : List Message} (h : r.messages.length = message_capacity)
    (hne : ms ≠ []) : r.queueMessages ms = { r with overflow := true } := by
  simp [queueMessages, fill_full h, refused_full h, hne]

/-- So is a frame. -/
theorem queueFrames_full {fs : List Frame} (h : r.frames.length = capacity) (hne : fs ≠ []) :
    r.queueFrames fs = { r with overflow := true } := by
  simp [queueFrames, fill_full h, refused_full h, hne]

/-- One that fits joins at the end. -/
theorem queueMessages_cons {m : Message} {ms : List Message} (h : r.messages.length < message_capacity) :
    r.queueMessages (m :: ms) = { r with messages := r.messages ++ [m] }.queueMessages ms := by
  simp [queueMessages, fill_cons h, refused_cons h]

/-- So does a frame. -/
theorem queueFrames_cons {f : Frame} {fs : List Frame} (h : r.frames.length < capacity) :
    r.queueFrames (f :: fs) = { r with frames := r.frames ++ [f] }.queueFrames fs := by
  simp [queueFrames, fill_cons h, refused_cons h]

end queues

/-- The queues are within their bounds, and only the one of the protocol is used. -/
structure Bounded (r : CanReceiver) : Prop where
  messages : r.messages.length ≤ message_capacity
  frames : r.frames.length ≤ capacity
  one : if r.protocol = ISO15765 then r.frames = [] else r.messages = []

/-! ## handling -/

/-- A reassembled message as it is queued. -/
def Message.ofOutput (timestamp : UInt32) (o : IsoTpReassembler.Output) : Message :=
  { status := o.rx_status, timestamp := timestamp, data := o.data }

/-- What an ISO15765 channel reports of a write that was sent. -/
def echoMessages (r : CanReceiver) (sent : PendingTransmit) (timestamp : UInt32) : List Message :=
  (if 4 ≤ sent.message.length then
      [{ status := TX_MSG_TYPE ||| TX_DONE, timestamp := timestamp, data := sent.message.take 4,
         tx_flags := sent.flags }]
    else []) ++
  if r.loopback then
    [{ status := TX_MSG_TYPE, timestamp := timestamp, data := sent.message, tx_flags := sent.flags }]
  else []

/-- What a CAN channel does. -/
def echoFrames (r : CanReceiver) (sent : PendingTransmit) (timestamp : UInt32) : List Frame :=
  if r.loopback ∧ 4 ≤ sent.message.length ∧ sent.message.length ≤ 12 then
    [{ status := TX_MSG_TYPE ||| (if sent.flags &&& CAN_29BIT_ID ≠ 0 then 0x100 else 0),
       timestamp := timestamp, size := sent.message.length, data := frameData sent.message,
       tx_flags := sent.flags }]
  else []

/-- The frame of a data body as it is queued. -/
def Frame.ofData (status timestamp : UInt32) (frame : Bytes) : Frame :=
  { status := status &&& 0xc0000100, timestamp := timestamp, size := frame.length,
    data := frameData frame }

/-- What the channel reports of a write that was sent, queued. -/
def announce (r : CanReceiver) (sent : PendingTransmit) (timestamp : UInt32) : CanReceiver :=
  if r.protocol = ISO15765 then r.queueMessages (r.echoMessages sent timestamp)
  else r.queueFrames (r.echoFrames sent timestamp)

/-- A confirmation that pairs with a record. -/
def pair (r : CanReceiver) (sequence : Nat) (sent : PendingTransmit) : CanReceiver :=
  { r.credit sent.call with
    pending_transmits := (r.pending_transmits.dropWhile fun p => p.sequence ≠ sequence).tail
    transmitted := r.transmitted + 1 }

/-- It moves the records and the counts. -/
theorem pair_kept (r : CanReceiver) (sequence : Nat) (sent : PendingTransmit) :
    ∃ confirmed pending, r.pair sequence sent =
      { r with confirmed := confirmed, pending_transmits := pending, transmitted := r.transmitted + 1 } := by
  unfold pair
  cases sent.call with
  | none | some => exact ⟨_, _, rfl⟩

/-- What a receiver that is not stopped does with a body of a class. -/
def handle (r : CanReceiver) : Inbound → CanReceiver
  | .other => r
  | .loss => { r with overflow := true }
  | .sent sequence timestamp =>
      match r.paired sequence with
      | none => r
      | some sent => (r.pair sequence sent).announce sent timestamp
  | .malformed => { r with malformed := true }
  | .data status timestamp frame =>
      if r.protocol = ISO15765 then
        { r with reassembler := (r.reassembler.feed frame).2 }.queueMessages
          ((r.reassembler.feed frame).1.map (Message.ofOutput timestamp))
      else r.queueFrames [.ofData status timestamp frame]

/-- What the reassembler hands out is queued as messages. -/
theorem queueOutputs_eq (r : CanReceiver) (timestamp : UInt32) (os : List IsoTpReassembler.Output)
    (h : r.messages.length ≤ message_capacity) :
    r.queueOutputs timestamp os = r.queueMessages (os.map (Message.ofOutput timestamp)) := by
  induction os generalizing r with
  | nil => simp [queueOutputs]
  | cons o os ih =>
      rw [queueOutputs]
      split
      · next hfull => rw [queueMessages_full hfull (by simp)]
      · next hroom =>
          have hlt : r.messages.length < message_capacity := by omega
          rw [ih _ (by simp only [List.length_append, List.length_singleton]; omega), List.map_cons,
            queueMessages_cons hlt]
          rfl

/-- Crediting a call touches no queue. -/
theorem Bounded.credit {r : CanReceiver} (h : r.Bounded) (call : Option TransmitCall) :
    (r.credit call).Bounded := by
  cases call <;> exact ⟨h.messages, h.frames, h.one⟩

/-- Queueing one message, if there is one. -/
theorem queue_message {r : CanReceiver} (h : r.messages.length ≤ message_capacity) (c : Prop)
    [Decidable c] (m : Message) :
    (if c then
        if r.messages.length = message_capacity then { r with overflow := true }
        else { r with messages := r.messages ++ [m] }
      else r) = r.queueMessages (if c then [m] else []) := by
  by_cases hc : c
  · rw [if_pos hc, if_pos hc]
    split
    · next hfull => rw [queueMessages_full hfull (by simp)]
    · next hroom => rw [queueMessages_cons (by omega), queueMessages_nil]
  · rw [if_neg hc, if_neg hc, queueMessages_nil]

/-- One frame, if it is to be queued at all. -/
theorem queue_frame {r : CanReceiver} (h : r.frames.length ≤ capacity) (c : Prop) [Decidable c]
    (f : Frame) :
    (if c then
        if r.frames.length = capacity then { r with overflow := true }
        else { r with frames := r.frames ++ [f] }
      else r) = r.queueFrames (if c then [f] else []) := by
  by_cases hc : c
  · rw [if_pos hc, if_pos hc]
    split
    · next hfull => rw [queueFrames_full hfull (by simp)]
    · next hroom => rw [queueFrames_cons (by omega), queueFrames_nil]
  · rw [if_neg hc, if_neg hc, queueFrames_nil]

/-- Reporting a write queues what the channel reports of it. -/
theorem confirm_eq {r : CanReceiver} (h : r.Bounded) (sent : PendingTransmit) (timestamp : UInt32) :
    r.confirm sent timestamp = (r.credit sent.call).announce sent timestamp := by
  have hq := h.credit sent.call
  unfold confirm announce
  generalize r.credit sent.call = q at hq
  have hmessages := hq.messages
  by_cases hiso : q.protocol = ISO15765
  · simp only [if_pos hiso, echoMessages]
    by_cases hlen : sent.message.length ≥ 4
    · simp only [if_pos hlen, List.cons_append, List.nil_append]
      by_cases hfull : q.messages.length = message_capacity
      · rw [if_pos ⟨hlen, hfull⟩, queueMessages_full hfull (by simp)]
      · have hlt : q.messages.length < message_capacity := by omega
        rw [if_neg fun h => hfull h.2, queueMessages_cons hlt]
        exact queue_message (by simp only [List.length_append, List.length_singleton]; omega) _ _
    · simp only [if_neg hlen, List.nil_append]
      rw [if_neg fun h => hlen h.1]
      exact queue_message hmessages _ _
  · simp only [if_neg hiso, echoFrames]
    exact queue_frame hq.frames _ _

/-- A field that is there reads as its value. -/
theorem le16_bind {α : Type} {d : Bytes} {o : Nat} (f : Nat → Except Exception α) (h : o + 2 ≤ d.length) :
    (le16 d o >>= f) = f (le16At d o) := by
  rw [le16_of_le h]
  rfl

/-- A word within the bytes is read. -/
theorem le32_bind {α : Type} {d : Bytes} {o : Nat} (f : Nat → Except Exception α) (h : o + 4 ≤ d.length) :
    (le32 d o >>= f) = f (le32At d o) := by
  rw [le32_of_le h]
  rfl

/-- Queueing what is reported counts nothing. -/
theorem announce_count (r : CanReceiver) (sent : PendingTransmit) (timestamp : UInt32) :
    (r.announce sent timestamp).transmitted = r.transmitted := by
  unfold announce
  split <;> rfl

/-- What is announced does not depend on the count. -/
theorem announce_transmitted (r : CanReceiver) (n : Nat) (sent : PendingTransmit) (timestamp : UInt32) :
    { r with transmitted := n }.announce sent timestamp =
      { r.announce sent timestamp with transmitted := n } := by
  unfold announce
  by_cases hiso : r.protocol = ISO15765
  · simp only [if_pos hiso]
    rfl
  · simp only [if_neg hiso]
    rfl

/-- A confirmation is counted if it pairs. -/
theorem deliver_confirmed_eq {r : CanReceiver} (h : r.Bounded) (sequence : Nat) (timestamp : UInt32) :
    (if (r.deliver_confirmed sequence timestamp).1 then
        { (r.deliver_confirmed sequence timestamp).2 with
          transmitted := (r.deliver_confirmed sequence timestamp).2.transmitted + 1 }
      else (r.deliver_confirmed sequence timestamp).2) = r.handle (.sent sequence timestamp) := by
  rw [deliver_confirmed, handle]
  cases hp : r.paired sequence with
  | none => rfl
  | some sent =>
      have hkept : Bounded { r with pending_transmits :=
          (r.pending_transmits.dropWhile fun p => p.sequence ≠ sequence).tail } :=
        ⟨h.messages, h.frames, h.one⟩
      simp only [if_true]
      rw [confirm_eq hkept, ← announce_transmitted, announce_count]
      cases hcall : sent.call <;> simp only [pair, credit, hcall]

/-- **A body is received by its class**, and every field it is read for is there. -/
theorem receive_eq {r : CanReceiver} (h : r.Bounded) (body : Bytes) :
    r.receive body =
      .ok (if r.stopped ≠ 0 then r else r.handle (inbound (channel_node r.protocol.toNat) body)) := by
  by_cases hstopped : r.stopped ≠ 0
  · rw [receive, if_pos (.inl hstopped), if_pos hstopped]
    rfl
  rw [if_neg hstopped, receive, inbound]
  by_cases hshort : body.length < 12
  · rw [if_pos (.inr hshort), if_pos (.inl hshort)]
    rfl
  rw [if_neg (by tauto), le16_bind _ (by omega), le16_bind _ (by omega)]
  by_cases hroute : le16At body 0 ≠ 0 ∨ le16At body 2 ≠ channel_node r.protocol.toNat
  · rw [if_pos hroute, if_pos (.inr hroute)]
    rfl
  rw [if_neg hroute, if_neg (not_or.mpr ⟨hshort, hroute⟩), le16_bind _ (by omega)]
  by_cases hindication : le16At body 4 = 10
  · rw [if_pos hindication, if_pos hindication]
    by_cases hlen : body.length < 20
    · rw [if_pos hlen, if_pos hlen]
      rfl
    rw [if_neg hlen, if_neg hlen, le32_bind _ (by omega)]
    by_cases hloss : le32At body 12 = 0x10b ∨ le32At body 12 = 0x119
    · rw [if_pos hloss, if_pos hloss]
      rfl
    rw [if_neg hloss, if_neg hloss]
    by_cases hsent : le32At body 12 = 0x106
    · rw [if_pos hsent, if_pos hsent, le16_bind _ (by omega), le32_bind _ (by omega)]
      exact congrArg Except.ok (deliver_confirmed_eq h _ _)
    · rw [if_neg hsent, if_neg hsent]
      rfl
  rw [if_neg hindication, if_neg hindication]
  by_cases hdata : le16At body 4 ≠ 9
  · rw [if_pos hdata, if_pos hdata]
    rfl
  rw [if_neg hdata, if_neg hdata]
  by_cases hheader : body.length < 24
  · rw [if_pos hheader, if_pos (.inl hheader)]
    rfl
  rw [if_neg hheader, le16_bind _ (by omega)]
  by_cases hsize : le16At body 22 < 4 ∨ le16At body 22 > 12 ∨ body.length ≠ 24 + le16At body 22
  · rw [if_pos hsize, if_pos (.inr hsize)]
    rfl
  rw [if_neg hsize, if_neg (not_or.mpr ⟨hheader, hsize⟩), le32_bind _ (by omega)]
  by_cases hiso : r.protocol = ISO15765
  · rw [if_pos hiso]
    simp only [handle, if_pos hiso]
    exact congrArg Except.ok (queueOutputs_eq _ _ _ h.messages)
  · rw [if_neg hiso]
    simp only [handle, if_neg hiso]
    have hlen : ((body.drop 24).take (le16At body 22)).length = le16At body 22 := by
      simp only [List.length_take, List.length_drop]
      omega
    by_cases hfull : r.frames.length = capacity
    · rw [if_pos hfull, queueFrames_full hfull (by simp)]
      rfl
    · have hframes := h.frames
      rw [if_neg hfull, le32_bind _ (by omega), queueFrames_cons (by omega), queueFrames_nil,
        Frame.ofData, hlen]
      rfl

/-! ## the queue of a receiver -/

/-- The queue of the protocol, as a reader gets it. -/
def backlog (r : CanReceiver) : List PASSTHRU_MSG :=
  if r.protocol = ISO15765 then r.messages.map Message.toMsg else r.frames.map Frame.toMsg

def limit (r : CanReceiver) : Nat := if r.protocol = ISO15765 then message_capacity else capacity

/-- What a body of a class gives a reader, if there is room. -/
def offers (r : CanReceiver) : Inbound → List PASSTHRU_MSG
  | .sent sequence timestamp =>
      match r.paired sequence with
      | none => []
      | some sent =>
          if r.protocol = ISO15765 then (r.echoMessages sent timestamp).map Message.toMsg
          else (r.echoFrames sent timestamp).map Frame.toMsg
  | .data status timestamp frame =>
      if r.protocol = ISO15765 then
        (r.reassembler.feed frame).1.map fun o => (Message.ofOutput timestamp o).toMsg
      else [(Frame.ofData status timestamp frame).toMsg]
  | _ => []

/-- A body fills the queue with what it offers. -/
structure Received (r : CanReceiver) (x : Inbound) (r' : CanReceiver) : Prop where
  protocol : r'.protocol = r.protocol
  stopped : r'.stopped = r.stopped
  bounded : r'.Bounded
  backlog : r'.backlog = fill r.limit r.backlog (r.offers x)
  overflow : r'.overflow =
    (r.overflow || decide (x = .loss) || !(refused r.limit r.backlog (r.offers x)).isEmpty)
  malformed : r'.malformed = (r.malformed || decide (x = .malformed))

section received

variable {r r' q : CanReceiver} {x : Inbound}

/-- No more is queued than fits. -/
theorem Bounded.length_backlog (h : r.Bounded) : r.backlog.length ≤ r.limit := by
  unfold backlog limit
  split
  · simpa using h.messages
  · simpa using h.frames

/-- Messages queued on an ISO15765 channel that is otherwise as it was. -/
theorem received_messages (hiso : r.protocol = ISO15765) (h : r.Bounded) {ms : List Message}
    (hx : x ≠ .loss ∧ x ≠ .malformed) (hms : r.offers x = ms.map Message.toMsg)
    (hprotocol : q.protocol = r.protocol) (hstopped : q.stopped = r.stopped)
    (hmessages : q.messages = r.messages) (hframes : q.frames = r.frames)
    (hflags : q.overflow = r.overflow ∧ q.malformed = r.malformed) :
    Received r x (q.queueMessages ms) where
  protocol := hprotocol
  stopped := hstopped
  bounded :=
    { messages := length_fill_le (hmessages ▸ h.messages)
      frames := hframes ▸ h.frames
      one := by
        have hone := h.one
        simp only [queueMessages, hprotocol, hiso, if_true, hframes] at hone ⊢
        exact hone }
  backlog := by
    simp [CanReceiver.backlog, limit, queueMessages, hprotocol, hiso, hms, hmessages, map_fill]
  overflow := by
    simp [CanReceiver.backlog, limit, queueMessages, hiso, hms, hmessages, hx.1, hflags.1,
      ← map_refused]
  malformed := by simp [queueMessages, hx.2, hflags.2]

/-- Frames queued on a CAN channel that is otherwise as it was. -/
theorem received_frames (hcan : r.protocol ≠ ISO15765) (h : r.Bounded) {fs : List Frame}
    (hx : x ≠ .loss ∧ x ≠ .malformed) (hfs : r.offers x = fs.map Frame.toMsg)
    (hprotocol : q.protocol = r.protocol) (hstopped : q.stopped = r.stopped)
    (hmessages : q.messages = r.messages) (hframes : q.frames = r.frames)
    (hflags : q.overflow = r.overflow ∧ q.malformed = r.malformed) :
    Received r x (q.queueFrames fs) where
  protocol := hprotocol
  stopped := hstopped
  bounded :=
    { messages := hmessages ▸ h.messages
      frames := length_fill_le (hframes ▸ h.frames)
      one := by
        have hone := h.one
        simp only [queueFrames, hprotocol, if_neg hcan, hmessages] at hone ⊢
        exact hone }
  backlog := by
    simp [CanReceiver.backlog, limit, queueFrames, hprotocol, hcan, hfs, hframes, map_fill]
  overflow := by
    simp [CanReceiver.backlog, limit, queueFrames, hcan, hfs, hframes, hx.1, hflags.1, ← map_refused]
  malformed := by simp [queueFrames, hx.2, hflags.2]

/-- **A body fills the queue, and raises the flags of its class.** -/
theorem received_handle (h : r.Bounded) (x : Inbound) : Received r x (r.handle x) := by
  have hsame (hx : r.offers x = []) (ho : r.handle x = r) (hne : x ≠ .loss ∧ x ≠ .malformed) :
      Received r x (r.handle x) := by
    rw [ho]
    exact ⟨rfl, rfl, h, by simp [hx], by simp [hx, hne.1], by simp [hne.2]⟩
  cases x with
  | other => exact hsame rfl rfl (by decide)
  | loss =>
      exact ⟨rfl, rfl, ⟨h.messages, h.frames, h.one⟩, fill_nil.symm, by simp [handle], by simp [handle]⟩
  | malformed =>
      exact ⟨rfl, rfl, ⟨h.messages, h.frames, h.one⟩, fill_nil.symm, by simp [handle, offers],
        by simp [handle]⟩
  | sent sequence timestamp =>
      cases hp : r.paired sequence with
      | none => exact hsame (by simp [offers, hp]) (by simp [handle, hp]) (by simp)
      | some sent =>
          obtain ⟨confirmed, pending, hpair⟩ := pair_kept r sequence sent
          simp only [handle, hp, announce, hpair]
          by_cases hiso : r.protocol = ISO15765
          · rw [if_pos hiso]
            exact received_messages hiso h (by simp) (by simp [offers, hp, hiso, echoMessages]) rfl rfl rfl
              rfl ⟨rfl, rfl⟩
          · rw [if_neg hiso]
            exact received_frames hiso h (by simp) (by simp [offers, hp, hiso, echoFrames]) rfl rfl rfl
              rfl ⟨rfl, rfl⟩
  | data status timestamp frame =>
      simp only [handle]
      by_cases hiso : r.protocol = ISO15765
      · rw [if_pos hiso]
        exact received_messages hiso h (by simp) (by simp [offers, hiso]) rfl rfl rfl rfl ⟨rfl, rfl⟩
      · rw [if_neg hiso]
        exact received_frames hiso h (by simp) (by simp [offers, hiso]) rfl rfl rfl rfl ⟨rfl, rfl⟩

end received

/-! ## the other operations -/

section operations

variable {r : CanReceiver}

/-- One pass of the read loop takes what it can from the front of the queue. -/
theorem take_eq (h : r.Bounded) (left : Nat) :
    (r.take left).1 = r.backlog.take left ∧ (r.take left).2.backlog = r.backlog.drop left := by
  have hone := h.one
  by_cases hiso : r.protocol = ISO15765
  · rw [if_pos hiso] at hone
    by_cases hle : left ≤ r.messages.length
    · simp [take, available, backlog, hiso, hone, hle, List.map_take, List.map_drop]
    · have hlen : r.messages.length ≤ left := by omega
      simp [take, available, backlog, hiso, hone, hlen, List.take_of_length_le, List.drop_of_length_le]
  · rw [if_neg hiso] at hone
    simp [take, available, backlog, hiso, hone, List.map_take, List.map_drop]

/-- Taking only makes room. -/
theorem Bounded.take (h : r.Bounded) (left : Nat) : (r.take left).2.Bounded where
  messages := by
    have := h.messages
    simp only [CanReceiver.take, List.length_drop]
    omega
  frames := by
    have := h.frames
    simp only [CanReceiver.take, List.length_drop]
    omega
  one := by
    have hone := h.one
    by_cases hiso : r.protocol = ISO15765
    · simp_all [CanReceiver.take]
    · simp_all [CanReceiver.take]

/-- A flush leaves nothing. -/
theorem backlog_flush_receive (r : CanReceiver) : r.flush_receive.backlog = [] := by
  simp [backlog, flush_receive]

/-- Nor does a stop. -/
theorem backlog_stop (r : CanReceiver) (code : Int) (reason : String) :
    (r.stop code reason).backlog = [] := by
  simp [backlog, stop]

theorem bounded_flush_receive (r : CanReceiver) : r.flush_receive.Bounded := by
  refine ⟨Nat.zero_le _, Nat.zero_le _, ?_⟩
  split <;> rfl

theorem bounded_stop (r : CanReceiver) (code : Int) (reason : String) :
    (r.stop code reason).Bounded := by
  refine ⟨Nat.zero_le _, Nat.zero_le _, ?_⟩
  split <;> rfl

end operations

end CanReceiver

end Mongoose
