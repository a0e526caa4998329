import Mongoose.Checked
import Mongoose.Session.Touched

/-!
# Mongoose.Can.Bounds

The receiver with every access checked.

`Fit` is what the queues, the records and the reassembler of a receiver always are, and
every function of a receiver keeps it.  A receiver that fits takes any body, and hands out
any number of messages, without an access out of range; and what it hands out has the
sizes a caller relies on.
-/

namespace Mongoose

/-! ## sizes -/

/-- An indication carries an ID alone. -/
def indication (status : UInt32) : Prop := status &&& (START_OF_MESSAGE ||| TX_DONE) ≠ 0

instance (status : UInt32) : Decidable (indication status) := inferInstanceAs (Decidable (_ ≠ _))

/-- A message that a reader gets: an ID and at most 4095 bytes of data, with no extra data
where it is an indication. -/
structure PASSTHRU_MSG.Readable (m : PASSTHRU_MSG) : Prop where
  minimum : 4 ≤ m.DataSize.toNat
  maximum : m.DataSize.toNat ≤ 4099
  extra : m.ExtraDataIndex = if indication m.RxStatus then 0 else m.DataSize

namespace CanReceiver

/-- A queued frame holds what it says it does. -/
structure Frame.Fit (f : Frame) : Prop where
  minimum : 4 ≤ f.size
  maximum : f.size ≤ 12
  data : f.data.length = 12
  status : ¬ indication f.status

/-- The bytes of a message or a record, between two bounds. -/
def Fits (lo hi : Nat) (bytes : Bytes) : Prop := lo ≤ bytes.length ∧ bytes.length ≤ hi

/-- A write whose record is between the bounds. -/
def Records (lo hi : Nat) (m : PASSTHRU_MSG) : Prop :=
  Fits lo hi (m.Data.take (min m.DataSize.toNat (4 + 8 + 4096)))

/-- A receiver whose contents are as they should be, its messages between two bounds. -/
structure Fit (lo hi : Nat) (r : CanReceiver) : Prop where
  valid : r.reassembler.Valid
  messages : ∀ m ∈ r.messages, Fits lo hi m.data
  frames : ∀ f ∈ r.frames, f.Fit
  pending : ∀ p ∈ r.pending_transmits, Fits lo hi p.message

/-- Bounds that leave room for an ID and 4095 bytes of data. -/
structure Roomy (lo hi : Nat) : Prop where
  lo : lo ≤ 4
  hi : 4099 ≤ hi

section fit

variable {lo hi : Nat} {r r' : CanReceiver} {ms : List Message} {fs : List Frame}

/-- Every write is recorded within the bounds of a record. -/
theorem records_any (m : PASSTHRU_MSG) : Records 0 4108 m := by
  simp only [Records, Fits, List.length_take]
  omega

/-- A write that may be sent is recorded whole. -/
theorem records_whole {m : PASSTHRU_MSG} (hlo : 4 ≤ m.DataSize.toNat) (hhi : m.DataSize.toNat ≤ 4099) :
    Records 4 4099 m := by
  have hdata := m.length_Data
  simp only [Records, Fits, List.length_take, hdata, dataCapacity]
  omega

/-- A new receiver. -/
theorem fit_new (lo hi : Nat) (protocol : UInt32) : Fit lo hi { protocol := protocol } where
  valid := IsoTpReassembler.valid_empty
  messages := by simp
  frames := by simp
  pending := by simp

/-- Less is queued and recorded than before. -/
theorem Fit.of_subset (h : r.Fit lo hi) (hv : r'.reassembler.Valid) (hm : r'.messages ⊆ r.messages)
    (hf : r'.frames ⊆ r.frames) (hp : r'.pending_transmits ⊆ r.pending_transmits) :
    r'.Fit lo hi :=
  ⟨hv, fun m hx => h.messages m (hm hx), fun f hx => h.frames f (hf hx), fun p hx => h.pending p (hp hx)⟩

/-- Messages that fit are queued as they are. -/
theorem Fit.queueMessages (h : r.Fit lo hi) (hms : ∀ m ∈ ms, Fits lo hi m.data) :
    (r.queueMessages ms).Fit lo hi :=
  { h with
    messages := fun m hm => (List.mem_append.mp hm).elim (h.messages m) fun hm =>
      hms m (List.mem_of_mem_take hm) }

/-- So are frames. -/
theorem Fit.queueFrames (h : r.Fit lo hi) (hfs : ∀ f ∈ fs, f.Fit) :
    (r.queueFrames fs).Fit lo hi :=
  { h with
    frames := fun f hf => (List.mem_append.mp hf).elim (h.frames f) fun hf =>
      hfs f (List.mem_of_mem_take hf) }

/-- The data of a frame has a fixed length. -/
theorem length_frameData {bytes : Bytes} (h : bytes.length ≤ 12) : (frameData bytes).length = 12 := by
  simp only [frameData, List.length_append, List.length_replicate]
  omega

/-- The frame of a data body. -/
theorem fit_ofData {node : Nat} {body frame : Bytes} {status timestamp : UInt32}
    (h : inbound node body = .data status timestamp frame) : (Frame.ofData status timestamp frame).Fit where
  minimum := (length_of_inbound h).1
  maximum := (length_of_inbound h).2
  data := length_frameData (length_of_inbound h).2
  status := by
    have hmask : (0xc0000100 : UInt32) &&& (START_OF_MESSAGE ||| TX_DONE) = 0 := by decide
    simp [indication, Frame.ofData, UInt32.and_assoc, hmask]

/-- What is reported of a write that was sent. -/
theorem fits_echoMessages (hroom : Roomy lo hi) {sent : PendingTransmit} {timestamp : UInt32}
    (h : Fits lo hi sent.message) : ∀ m ∈ r.echoMessages sent timestamp, Fits lo hi m.data := by
  obtain ⟨hlo, hhi⟩ := hroom
  intro m hm
  obtain hm | hm := List.mem_append.mp hm
  · split at hm
    · next hlen =>
        cases List.mem_singleton.mp hm
        simp only [Fits, List.length_take]
        omega
    · cases hm
  · split at hm
    · cases List.mem_singleton.mp hm
      exact h
    · cases hm

/-- An echo fits. -/
theorem fit_echoFrames {sent : PendingTransmit} {timestamp : UInt32} :
    ∀ f ∈ r.echoFrames sent timestamp, f.Fit := by
  intro f hf
  rw [echoFrames] at hf
  split at hf
  · next hlen =>
      cases List.mem_singleton.mp hf
      refine ⟨hlen.2.1, hlen.2.2, length_frameData hlen.2.2, ?_⟩
      dsimp only
      split <;> decide
  · cases hf

end fit

end CanReceiver

namespace IsoTpReassembler

/-- Every output carries an ID and at most 4095 bytes of data. -/
theorem fits_of_mem_feed {r : IsoTpReassembler} (h : r.Valid) {frame : Bytes} {o : Output}
    (ho : o ∈ (r.feed frame).1) : CanReceiver.Fits 4 4099 o.data := by
  obtain ⟨-, he⟩ | ⟨hg, he⟩ | ⟨-, he⟩ | ⟨ha, he⟩ | ⟨-, he⟩ | ⟨hc, he⟩ | ⟨-, -, he⟩ := feed_cases r frame <;>
    rw [he] at ho
  · cases ho
  · cases List.mem_singleton.mp ho
    obtain ⟨hlen, -, hlimit, hheld⟩ := hg
    simp only [CanReceiver.Fits, singleOutput, with_identifier, List.length_append, List.length_take,
      List.length_drop]
    unfold identifier single_limit at *
    omega
  · cases ho
  · rw [first_of_accepted ha] at ho
    cases List.mem_singleton.mp ho
    have hlen := ha.1
    simp only [CanReceiver.Fits, startOutput, with_identifier, List.length_take]
    unfold identifier at *
    omega
  · cases ho
  · cases hf : r.find (source_id frame) with
    | none =>
        rw [consecutive_of_find_none hf] at ho
        cases ho
    | some a =>
        rw [consecutive_of_find hf] at ho
        split at ho
        · cases ho
        · split at ho
          · cases ho
          · cases List.mem_singleton.mp ho
            have hv := (h.assemblies a (Slots.mem_of_find hf)).grow frame
            have hlen := hv.length_message
            have hle := hv.received_le
            have hmax := hv.maximum
            unfold Assembly.received at hle
            unfold CanReceiver.Fits
            unfold identifier max_message at *
            dsimp only at *
            omega
  · cases ho

end IsoTpReassembler

namespace CanReceiver

/-! ## the functions -/

variable {lo hi : Nat} {r r' : CanReceiver}

/-- A confirmation only takes a record away. -/
theorem Fit.pair (h : r.Fit lo hi) (sequence : Nat) (sent : PendingTransmit) :
    (r.pair sequence sent).Fit lo hi := by
  have hsub : (r.pair sequence sent).pending_transmits ⊆ r.pending_transmits :=
    fun p hp => (List.dropWhile_suffix _).subset (List.mem_of_mem_tail hp)
  unfold CanReceiver.pair at hsub ⊢
  cases sent.call with
  | none | some => exact h.of_subset h.valid (fun _ => id) (fun _ => id) hsub

/-- A body leaves a receiver as it should be. -/
theorem Fit.handle (hroom : Roomy lo hi) (h : r.Fit lo hi) {node : Nat} (body : Bytes) :
    (r.handle (inbound node body)).Fit lo hi := by
  cases hx : inbound node body with
  | other => exact h
  | loss | malformed => exact ⟨h.valid, h.messages, h.frames, h.pending⟩
  | sent sequence timestamp =>
      simp only [CanReceiver.handle]
      cases hp : r.paired sequence with
      | none => exact h
      | some sent =>
          have hsent : Fits lo hi sent.message := h.pending sent (List.mem_of_find?_eq_some hp)
          dsimp only [announce]
          split
          · exact (h.pair sequence sent).queueMessages (fits_echoMessages hroom hsent)
          · exact (h.pair sequence sent).queueFrames fit_echoFrames
  | data status timestamp frame =>
      simp only [CanReceiver.handle]
      split
      · refine Fit.queueMessages ⟨h.valid.feed frame, h.messages, h.frames, h.pending⟩ fun m hm => ?_
        obtain ⟨o, ho, rfl⟩ := List.mem_map.mp hm
        have hfits := IsoTpReassembler.fits_of_mem_feed h.valid ho
        exact ⟨Nat.le_trans hroom.lo hfits.1, Nat.le_trans hfits.2 hroom.hi⟩
      · exact h.queueFrames fun f hf => List.mem_singleton.mp hf ▸ fit_ofData hx

theorem subset_make_room (r : CanReceiver) : r.make_room.pending_transmits ⊆ r.pending_transmits := by
  rw [make_room]
  split
  · exact (List.tail_suffix _).subset
  · exact fun _ => id

/-- So does making room. -/
theorem Fit.make_room (h : r.Fit lo hi) : r.make_room.Fit lo hi := by
  have hsub := r.subset_make_room
  unfold CanReceiver.make_room at hsub ⊢
  split
  · next hfull =>
      rw [if_pos hfull] at hsub
      exact h.of_subset h.valid (fun _ => id) (fun _ => id) hsub
  · exact h

/-- A record that is noted holds what it may. -/
theorem Fit.note_transmit (h : r.Fit lo hi) {message : PASSTHRU_MSG} (hm : Records lo hi message)
    (sequence : Nat) (call : Option TransmitCall) : (r.note_transmit message sequence call).Fit lo hi := by
  have hr := h.make_room
  refine ⟨hr.valid, hr.messages, hr.frames, fun p hp => ?_⟩
  obtain hp | hp := List.mem_append.mp hp
  · exact hr.pending p hp
  · cases List.mem_singleton.mp hp
    exact hm

/-- Whatever is done to a receiver keeps it fit. -/
theorem Fit.op (h : r.Fit lo hi) (op : ReceiverOp) : (op.apply r).Fit lo hi := by
  cases op with
  | forget_transmit => exact h.of_subset h.valid (fun _ => id) (fun _ => id) (List.dropLast_subset _)
  | forget_transmits => exact h.of_subset h.valid (fun _ => id) (fun _ => id) (List.nil_subset _)
  | flush_receive =>
      exact h.of_subset IsoTpReassembler.valid_empty (List.nil_subset _) (List.nil_subset _) fun _ => id
  | set_loopback enabled => exact h.of_subset h.valid (fun _ => id) (fun _ => id) fun _ => id
  | stop code reason =>
      exact h.of_subset h.valid (List.nil_subset _) (List.nil_subset _) (List.nil_subset _)
  | take left => exact h.of_subset h.valid (List.drop_subset _ _) (List.drop_subset _ _) fun _ => id
  | report =>
      simp only [ReceiverOp.apply, CanReceiver.report]
      split_ifs <;> exact h.of_subset h.valid (fun _ => id) (fun _ => id) fun _ => id

/-- **Every function of a receiver leaves it as it should be.** -/
theorem Touched.fit (hroom : Roomy lo hi) (ht : Touched (Records lo hi) r r') (hb : r.Bounded)
    (h : r.Fit lo hi) : r'.Fit lo hi := by
  cases ht with
  | body body _ hr =>
      rw [receive_eq hb] at hr
      obtain rfl := Except.ok.inj hr
      split
      · exact h
      · exact h.handle hroom body
  | note message sequence call hm => exact h.note_transmit hm sequence call
  | make_room => exact h.make_room
  | op op => exact h.op op

/-- However often it is touched. -/
theorem Touched.fit_many (hroom : Roomy lo hi)
    (ht : Relation.ReflTransGen (Touched (Records lo hi)) r r') (hr : r.Proper) (h : r.Fit lo hi) :
    r'.Fit lo hi := by
  suffices hboth : r'.Proper ∧ r'.Fit lo hi from hboth.2
  induction ht with
  | refl => exact ⟨hr, h⟩
  | tail _ ht ih => exact ⟨ht.proper ih.1, ht.fit hroom ih.1.bounded ih.2⟩

/-! ## what is handed out -/

/-- The length of a message fits its field. -/
theorem toNat_length {bytes : Bytes} (h : bytes.length ≤ 4099) :
    (UInt32.ofNat bytes.length).toNat = bytes.length := by
  rw [UInt32.toNat_ofNat', Nat.mod_eq_of_lt (by omega)]

/-- A message that fits can be read back. -/
theorem readable_message {m : Message} (h : Fits 4 4099 m.data) : m.toMsg.Readable where
  minimum := (toNat_length h.2).symm ▸ h.1
  maximum := (toNat_length h.2).symm ▸ h.2
  extra := rfl

/-- So can a frame. -/
theorem readable_frame {f : Frame} (h : f.Fit) : f.toMsg.Readable where
  minimum := by
    have := h.minimum
    have := h.maximum
    simp only [Frame.toMsg, UInt32.toNat_ofNat']
    omega
  maximum := by
    have := h.maximum
    simp only [Frame.toMsg, UInt32.toNat_ofNat']
    omega
  extra := by
    simp only [Frame.toMsg]
    exact (if_neg h.status).symm

/-- What one pass of the read loop takes. -/
theorem readable_take (h : r.Fit 4 4099) (left : Nat) : ∀ m ∈ (r.take left).1, m.Readable := by
  intro m hm
  obtain hm | hm := List.mem_append.mp hm
  · obtain ⟨x, hx, rfl⟩ := List.mem_map.mp hm
    exact readable_message (h.messages x (List.mem_of_mem_take hx))
  · obtain ⟨f, hf, rfl⟩ := List.mem_map.mp hm
    exact readable_frame (h.frames f (List.mem_of_mem_take hf))

end CanReceiver

namespace Checked

/-! ## the receiver, access by access -/

open CanReceiver

/-- `deliver_confirmed`, from where the record is found. -/
def confirm (r : CanReceiver) (sent : PendingTransmit) (timestamp : UInt32) :
    Except Exception CanReceiver := do
  let r := r.credit sent.call
  if r.protocol = ISO15765 then
    if sent.message.length ≥ 4 ∧ r.messages.length = message_capacity then pure { r with overflow := true }
    else do
      let r ← if sent.message.length ≥ 4 then do
          let address ← slice sent.message 0 4
          pure { r with messages := r.messages ++
            [{ status := TX_MSG_TYPE ||| TX_DONE, timestamp := timestamp,
               data := address, tx_flags := sent.flags }] }
        else pure r
      if r.loopback then
        if r.messages.length = message_capacity then pure { r with overflow := true }
        else
          pure { r with messages := r.messages ++
            [{ status := TX_MSG_TYPE, timestamp := timestamp, data := sent.message,
               tx_flags := sent.flags }] }
      else pure r
  else if r.loopback ∧ sent.message.length ≥ 4 ∧ sent.message.length ≤ 12 then
    if r.frames.length = capacity then pure { r with overflow := true }
    else do
      let data ← copy 12 sent.message sent.message.length
      pure { r with frames := r.frames ++
        [{ status := TX_MSG_TYPE ||| (if sent.flags &&& CAN_29BIT_ID ≠ 0 then 0x100 else 0),
           timestamp := timestamp, size := sent.message.length, data := data, tx_flags := sent.flags }] }
  else pure r

def deliver_confirmed (r : CanReceiver) (sequence : Nat) (timestamp : UInt32) :
    Except Exception (Bool × CanReceiver) :=
  match r.paired sequence with
  | none => pure (false, r)
  | some sent => do
      let kept := (r.pending_transmits.dropWhile fun p => p.sequence ≠ sequence).tail
      let r ← confirm { r with pending_transmits := kept } sent timestamp
      pure (true, r)

/-- `CanReceiver::receive`. -/
def receive (r : CanReceiver) (body : Bytes) : Except Exception CanReceiver :=
  if r.stopped ≠ 0 ∨ body.length < 12 then pure r
  else do
    let destination ← le16 body 0
    let source ← le16 body 2
    if destination ≠ 0 ∨ source ≠ channel_node r.protocol.toNat then pure r
    else
      let opcode ← le16 body 4
      if opcode = 10 then
        if body.length < 20 then pure r
        else
          let indication ← le32 body 12
          if indication = 0x10b ∨ indication = 0x119 then pure { r with overflow := true }
          else if indication = 0x106 then
            let sequence ← le16 body 6
            let timestamp ← le32 body 16
            let (paired, r) ← deliver_confirmed r sequence (UInt32.ofNat timestamp)
            pure (if paired then { r with transmitted := r.transmitted + 1 } else r)
          else pure r
      else if opcode ≠ 9 then pure r
      else if body.length < 24 then pure { r with malformed := true }
      else
        let size ← le16 body 22
        if size < 4 ∨ size > 12 ∨ body.length ≠ 24 + size then pure { r with malformed := true }
        else
          let timestamp ← le32 body 16
          let frame ← slice body 24 size
          if r.protocol = ISO15765 then
            let (outputs, reassembler) ← feed r.reassembler frame
            pure ({ r with reassembler := reassembler }.queueOutputs (UInt32.ofNat timestamp) outputs)
          else if r.frames.length = capacity then pure { r with overflow := true }
          else
            let status ← le32 body 12
            let data ← copy 12 frame size
            pure { r with frames := r.frames ++
              [{ status := UInt32.ofNat status &&& 0xc0000100, timestamp := UInt32.ofNat timestamp,
                 size := size, data := data }] }

/-- A queued message copied into the caller's. -/
def message_out (m : Message) : Except Exception PASSTHRU_MSG := do
  let _ ← copy dataCapacity m.data m.data.length
  pure m.toMsg

def frame_out (f : Frame) : Except Exception PASSTHRU_MSG := do
  let _ ← copy dataCapacity f.data f.size
  pure f.toMsg

/-- One pass of the loop of `CanReceiver::read`. -/
def take (r : CanReceiver) (left : Nat) : Except Exception (List PASSTHRU_MSG × CanReceiver) := do
  let n := r.available left
  let rest ← minus left n
  let messages ← (r.messages.take n).mapM message_out
  let frames ← (r.frames.take rest).mapM frame_out
  pure (messages ++ frames, { r with messages := r.messages.drop n, frames := r.frames.drop rest })

section receiver

variable {r : CanReceiver}

/-- A record long enough for an ID has one, and one short enough for a frame fits it. -/
theorem confirm_eq (r : CanReceiver) (sent : PendingTransmit) (timestamp : UInt32) :
    confirm r sent timestamp = .ok (r.confirm sent timestamp) := by
  unfold confirm CanReceiver.confirm
  generalize r.credit sent.call = q
  have hecho (t : CanReceiver) :
      (if t.loopback then
          if t.messages.length = message_capacity then pure { t with overflow := true }
          else pure { t with messages := t.messages ++
            [{ status := TX_MSG_TYPE, timestamp := timestamp, data := sent.message,
               tx_flags := sent.flags }] }
        else pure t : Except Exception CanReceiver) =
      .ok (if t.loopback then
          if t.messages.length = message_capacity then { t with overflow := true }
          else { t with messages := t.messages ++
            [{ status := TX_MSG_TYPE, timestamp := timestamp, data := sent.message,
               tx_flags := sent.flags }] }
        else t) := by
    split_ifs <;> rfl
  dsimp only
  by_cases hiso : q.protocol = ISO15765
  · rw [if_pos hiso, if_pos hiso]
    by_cases hfull : sent.message.length ≥ 4 ∧ q.messages.length = message_capacity
    · rw [if_pos hfull, if_pos hfull]
      rfl
    rw [if_neg hfull, if_neg hfull]
    by_cases hlen : sent.message.length ≥ 4
    · rw [if_pos hlen, if_pos hlen, slice_eq _ (by omega), pure_bind]
      exact hecho _
    · rw [if_neg hlen, if_neg hlen, pure_bind]
      exact hecho _
  · rw [if_neg hiso, if_neg hiso]
    by_cases hshort : q.loopback ∧ sent.message.length ≥ 4 ∧ sent.message.length ≤ 12
    · rw [if_pos hshort, if_pos hshort]
      by_cases hfull : q.frames.length = capacity
      · rw [if_pos hfull, if_pos hfull]
        rfl
      rw [if_neg hfull, if_neg hfull, copy_eq _ (Nat.le_refl _) hshort.2.2, List.take_length]
      rfl
    · rw [if_neg hshort, if_neg hshort]
      rfl

theorem deliver_confirmed_eq (r : CanReceiver) (sequence : Nat) (timestamp : UInt32) :
    deliver_confirmed r sequence timestamp = .ok (r.deliver_confirmed sequence timestamp) := by
  unfold deliver_confirmed CanReceiver.deliver_confirmed
  cases r.paired sequence with
  | none => rfl
  | some sent =>
      simp only [confirm_eq]
      rfl

/-- The slice of a data body is the frame whose length was checked. -/
theorem receive_eq (hv : r.reassembler.Valid) (body : Bytes) : receive r body = r.receive body := by
  unfold receive CanReceiver.receive
  refine ite_congr rfl (fun _ => rfl) fun _ => bind_congr fun destination => bind_congr fun source => ?_
  refine ite_congr rfl (fun _ => rfl) fun _ => bind_congr fun opcode => ?_
  refine ite_congr rfl (fun _ => ?_) fun _ => ite_congr rfl (fun _ => rfl) fun _ => ?_
  · refine ite_congr rfl (fun _ => rfl) fun _ => bind_congr fun indication => ?_
    refine ite_congr rfl (fun _ => rfl) fun _ => ite_congr rfl (fun _ => ?_) fun _ => rfl
    refine bind_congr fun sequence => bind_congr fun timestamp => ?_
    rw [deliver_confirmed_eq]
    rfl
  · refine ite_congr rfl (fun _ => rfl) fun _ => bind_congr fun size => ?_
    refine ite_congr rfl (fun _ => rfl) fun hsize => bind_congr fun timestamp => ?_
    obtain ⟨hlow, hhigh, hlen⟩ := not_or.mp hsize |>.imp id not_or.mp
    have hlen : body.length = 24 + size := not_not.mp hlen
    rw [slice_eq _ (Nat.le_of_eq hlen.symm)]
    refine ite_congr rfl (fun _ => ?_) fun _ => ite_congr rfl (fun _ => rfl) fun _ => ?_
    · rw [feed_eq hv]
      rfl
    · refine bind_congr fun status => ?_
      have htake : ((body.drop 24).take size).length = size := by
        simp only [List.length_take, List.length_drop]
        omega
      rw [copy_eq _ (Nat.le_of_eq htake.symm) (by omega), List.take_of_length_le (Nat.le_of_eq htake),
        frameData, htake]

/-- A map that never fails is one. -/
theorem mapM_eq {α β : Type} {f : α → Except Exception β} {g : α → β} {l : List α}
    (h : ∀ x ∈ l, f x = .ok (g x)) : l.mapM f = .ok (l.map g) := by
  induction l with
  | nil => rfl
  | cons x l ih =>
      rw [List.mapM_cons, h x List.mem_cons_self, ih fun y hy => h y (List.mem_cons_of_mem _ hy)]
      rfl

/-- What is queued fits the caller's messages. -/
theorem take_eq {lo hi : Nat} (h : r.Fit lo hi) (hhi : hi ≤ dataCapacity) (left : Nat) :
    take r left = .ok (r.take left) := by
  have hn : r.available left ≤ left := by
    rw [available]
    split <;> omega
  have hmessages : ∀ m ∈ r.messages.take (r.available left), message_out m = .ok m.toMsg := by
    intro m hm
    have hle := (h.messages m (List.mem_of_mem_take hm)).2
    rw [message_out, copy_eq _ (Nat.le_refl _) (Nat.le_trans hle hhi)]
    rfl
  have hframes : ∀ f ∈ r.frames.take (left - r.available left), frame_out f = .ok f.toMsg := by
    intro f hf
    have hfit := h.frames f (List.mem_of_mem_take hf)
    have hmax := hfit.maximum
    rw [frame_out, copy_eq _ (hfit.data ▸ hmax) (by unfold dataCapacity; omega)]
    rfl
  rw [take, minus_eq _ hn, mapM_eq hmessages, mapM_eq hframes]
  rfl

end receiver

end Checked

end Mongoose
