import Mongoose.Can.Accounts
import Mongoose.Can.Outbound

/-!
# Mongoose.Can.Echo

What a channel gives its readers of the writes that were confirmed.

`Noted.reports` says what that is in terms of the message written.  A `Journal` keeps
beside a run of a receiver and its readers the traffic of the queue, the register of the
writes, and an `Arrival` for every body; `Echoed` says that the queue accepted what the
arrivals brought and no more.
-/

namespace Mongoose

open CanReceiver

/-! ## reports -/

namespace Noted

/-- The message written, as received from the bus. -/
def echo (protocol : UInt32) (timestamp : UInt32) (n : Noted) : PASSTHRU_MSG :=
  { ProtocolID := protocol
    RxStatus := TX_MSG_TYPE |||
      if protocol = CAN ∧ n.message.TxFlags &&& CAN_29BIT_ID ≠ 0 then 0x100 else 0
    TxFlags := n.message.TxFlags
    Timestamp := timestamp
    DataSize := n.message.DataSize
    ExtraDataIndex := n.message.DataSize
    Data := dataField n.message.bytes, length_Data := length_dataField _ }

/-- The transmit-done indication: the ID alone. -/
def indication (timestamp : UInt32) (n : Noted) : PASSTHRU_MSG :=
  { ProtocolID := ISO15765
    RxStatus := TX_MSG_TYPE ||| TX_DONE
    TxFlags := n.message.TxFlags
    Timestamp := timestamp
    DataSize := 4
    ExtraDataIndex := 0
    Data := dataField (n.message.bytes.take 4), length_Data := length_dataField _ }

/-- All that is reported of a write, with LOOPBACK off or on. -/
def reports (protocol : UInt32) (loopback : Bool) (timestamp : UInt32) (n : Noted) : List PASSTHRU_MSG :=
  (if protocol = ISO15765 then [n.indication timestamp] else []) ++
    if loopback then [n.echo protocol timestamp] else []

/-- The message has passed the checks of the channel's encoder. -/
def Accepted (protocol : UInt32) (n : Noted) : Prop :=
  ∃ timeout payload, protocol = CAN ∧ can_transmit n.message timeout = .ok payload ∨
    protocol = ISO15765 ∧ isotp_transmit n.message timeout = .ok payload

section accepted

variable {protocol timestamp : UInt32} {n : Noted}

/-- An accepted message has a size that its protocol allows. -/
theorem Accepted.size (h : n.Accepted protocol) :
    4 ≤ n.message.DataSize.toNat ∧ n.message.DataSize.toNat ≤ 4099 ∧
      (protocol ≠ ISO15765 → protocol = CAN ∧ n.message.DataSize.toNat ≤ 12) := by
  obtain ⟨timeout, payload, ⟨hcan, h⟩ | ⟨hiso, h⟩⟩ := h
  · obtain ⟨hlo, hhi, -⟩ := can_transmit_ok h
    exact ⟨hlo, by omega, fun _ => ⟨hcan, hhi⟩⟩
  · obtain ⟨hlo, hhi, -⟩ := isotp_transmit_ok h
    exact ⟨by omega, hhi, fun hne => absurd hiso hne⟩

/-- An accepted message is recorded whole. -/
theorem Accepted.record_message (h : n.Accepted protocol) : n.record.message = n.message.bytes := by
  have hsize := h.size
  rw [record, PASSTHRU_MSG.bytes, Nat.min_eq_left (by omega)]

/-- And as many bytes. -/
theorem Accepted.length_bytes (h : n.Accepted protocol) :
    n.message.bytes.length = n.message.DataSize.toNat :=
  Mongoose.length_bytes (by have := h.size; unfold dataCapacity; omega)

/-- A record is reported as the write it was made of. -/
theorem Accepted.offers (h : n.Accepted protocol) {r : CanReceiver} (hr : r.protocol = protocol)
    {sequence : Nat} (hp : r.paired sequence = some n.record) :
    r.offers (.sent sequence timestamp) = n.reports protocol r.loopback timestamp := by
  obtain ⟨hlo, hhi, hcan⟩ := h.size
  have hlen := h.length_bytes
  have hsize : UInt32.ofNat n.message.bytes.length = n.message.DataSize := by
    rw [hlen, UInt32.ofNat_toNat]
  simp only [CanReceiver.offers, hp, hr, reports]
  by_cases hiso : protocol = ISO15765
  · have hid : (n.message.bytes.take 4).length = 4 := by
      rw [List.length_take, hlen]
      omega
    have hdone : (TX_MSG_TYPE ||| TX_DONE) &&& (START_OF_MESSAGE ||| TX_DONE) ≠ 0 := by decide
    have hwhole : TX_MSG_TYPE &&& (START_OF_MESSAGE ||| TX_DONE) = 0 := by decide
    have hne : ISO15765 ≠ CAN := by decide
    rw [if_pos hiso, if_pos hiso, echoMessages, h.record_message, if_pos (by omega)]
    subst hiso
    cases r.loopback <;> simp [Message.toMsg, indication, echo, record, hid, hsize, hdone, hwhole, hne]
  · obtain ⟨rfl, hhi⟩ := hcan hiso
    rw [if_neg hiso, if_neg hiso, echoFrames, h.record_message]
    cases r.loopback
    · simp
    · by_cases hwide : n.message.TxFlags &&& CAN_29BIT_ID = 0 <;>
        simp [Frame.toMsg, echo, record, frameData, hlen, hlo, hhi, hwide]

end accepted

end Noted

/-! ## arrivals -/

/-- A body that reached the receiver, and the items that the queue accepted of it. -/
inductive Arrival
  /-- It confirmed a noted write; there was room for so many items. -/
  | confirmation (e : Noted × Nat) (timestamp : UInt32) (loopback : Bool) (room : Nat)
      (items : List PASSTHRU_MSG)
  | other (items : List PASSTHRU_MSG)

namespace Arrival

def items : Arrival → List PASSTHRU_MSG
  | .confirmation _ _ _ _ items | .other items => items

def confirmed : Arrival → Option (Noted × Nat)
  | .confirmation e .. => some e
  | .other _ => none

/-- A confirmation brings the reports of its write, as far as there is room, and nothing
else brings a report. -/
def Faithful (protocol : UInt32) : Arrival → Prop
  | .confirmation e timestamp loopback room items => e.1.Accepted protocol →
      items = (e.1.reports protocol loopback timestamp).take room
  | .other items => ∀ m ∈ items, m.RxStatus &&& TX_MSG_TYPE = 0

end Arrival

/-- What is kept beside a run. -/
structure Journal where
  traffic : Traffic := {}
  register : Register Noted := {}
  arrivals : List Arrival := []

namespace Reception

def arrival (s : Reception) (g : Register Noted) (body : Bytes) : Arrival :=
  match s.receiver.classify body with
  | .sent sequence timestamp =>
      match g.pending.find? fun e => e.1.hasSequence sequence with
      | some e =>
          .confirmation e timestamp s.receiver.loopback (s.receiver.limit - s.receiver.backlog.length)
            (s.receiver.admits body)
      | none => .other (s.receiver.admits body)
  | _ => .other (s.receiver.admits body)

def journal (s : Reception) (l : Label) (s' : Reception) (j : Journal) : Journal where
  traffic := Traffic.note s l s' j.traffic
  register := s.book l s' j.register
  arrivals := match l with
    | .receive body => j.arrivals ++ [s.arrival j.register body]
    | _ => j.arrivals

end Reception

/-! ## what is no report -/

open IsoTpReassembler in
/-- A reassembled message says that it starts, or nothing. -/
theorem IsoTpReassembler.rx_status_feed {r : IsoTpReassembler} {frame : Bytes} {o : Output}
    (ho : o ∈ (r.feed frame).1) : o.rx_status = 0 ∨ o.rx_status = START_OF_MESSAGE := by
  have hsingle {q : IsoTpReassembler} (h : o ∈ (q.single frame).1) : o.rx_status = 0 := by
    unfold single at h
    dsimp only at h
    split_ifs at h <;> first | cases h; done | rw [List.mem_singleton.mp h]
  have hfirst {q : IsoTpReassembler} (h : o ∈ (q.first frame).1) : o.rx_status = START_OF_MESSAGE := by
    unfold first at h
    dsimp only at h
    split_ifs at h <;> first | cases h; done | rw [List.mem_singleton.mp h]
  have hconsecutive {q : IsoTpReassembler} (h : o ∈ (q.consecutive frame).1) : o.rx_status = 0 := by
    unfold consecutive at h
    split at h
    · cases h
    · dsimp only at h
      split_ifs at h <;> first | cases h; done | rw [List.mem_singleton.mp h]
  unfold feed at ho
  split at ho
  · cases ho
  dsimp only at ho
  split at ho
  · split at ho
    · exact .inl (hsingle ho)
    split at ho
    · exact .inr (hfirst ho)
    · cases ho
  · split at ho
    · exact .inl (hsingle ho)
    · exact .inr (hfirst ho)
    · exact .inl (hconsecutive ho)
    · cases ho

/-- Nothing that comes from the bus looks like a report. -/
theorem CanReceiver.offers_other {r : CanReceiver} {x : Inbound}
    (hx : ∀ sequence timestamp, x = .sent sequence timestamp → r.paired sequence = none)
    {m : PASSTHRU_MSG} (hm : m ∈ r.offers x) : m.RxStatus &&& TX_MSG_TYPE = 0 := by
  cases x with
  | other | loss | malformed => cases hm
  | sent sequence timestamp =>
      rw [offers, hx sequence timestamp rfl] at hm
      cases hm
  | data status timestamp frame =>
      rw [offers] at hm
      split at hm
      · obtain ⟨o, ho, rfl⟩ := List.mem_map.mp hm
        show o.rx_status &&& TX_MSG_TYPE = 0
        obtain hs | hs := IsoTpReassembler.rx_status_feed ho <;> rw [hs] <;> decide
      · rw [List.mem_singleton.mp hm]
        show status &&& 0xc0000100 &&& TX_MSG_TYPE = 0
        rw [UInt32.and_assoc]
        exact UInt32.and_zero

/-! ## runs -/

/-- The queue accepted what the arrivals brought, and those that confirm are the settled
entries of the register. -/
structure Echoed (protocol : UInt32) (s : Reception) (j : Journal) : Prop where
  accounted : Accounted s j.traffic
  booked : Booked s.receiver j.register
  channel : s.receiver.protocol = protocol
  accepted : j.traffic.ledger.accepted = j.arrivals.flatMap Arrival.items
  confirmed : j.arrivals.filterMap Arrival.confirmed = j.register.settled
  faithful : ∀ a ∈ j.arrivals, a.Faithful protocol

namespace Echoed

variable {protocol : UInt32} {s s' : Reception} {j j' : Journal} {g : Register Noted} {body : Bytes}

/-- At first nothing was echoed. -/
theorem fresh (protocol : UInt32) : Echoed protocol (.fresh protocol) {} where
  accounted := .fresh protocol
  booked := .fresh protocol
  channel := rfl
  accepted := rfl
  confirmed := rfl
  faithful _ ha := by cases ha

/-- A confirmation pairs with the record of the entry it settles. -/
theorem paired_eq (hb : Booked s.receiver g) (sequence : Nat) :
    s.receiver.paired sequence =
      (g.pending.find? fun e => e.1.hasSequence sequence).map fun e => e.1.record := by
  rw [paired, hb.records, List.find?_map]
  rfl

/-- What arrives is what the receiver admits. -/
theorem items_arrival (s : Reception) (g : Register Noted) (body : Bytes) :
    (s.arrival g body).items = s.receiver.admits body := by
  unfold Reception.arrival
  split
  · split <;> rfl
  · rfl

/-- An arrival confirms the entry that its body settles. -/
theorem confirmed_arrival (s s' : Reception) (g : Register Noted) (body : Bytes) :
    (s.book (.receive body) s' g).settled = g.settled ++ (s.arrival g body).confirmed.toList := by
  simp only [Reception.book, Reception.arrival]
  cases s.receiver.classify body with
  | sent sequence timestamp =>
      dsimp only
      rw [Register.settled_settle]
      cases g.pending.find? fun e => e.1.hasSequence sequence <;> rfl
  | other | loss | malformed | data => exact (List.append_nil _).symm

/-- An arrival is faithful to the record it confirms. -/
theorem faithful_arrival (hs : Echoed protocol s j) (body : Bytes) :
    (s.arrival j.register body).Faithful protocol := by
  have hother (h : ∀ sequence timestamp, s.receiver.classify body = .sent sequence timestamp →
      s.receiver.paired sequence = none) : (Arrival.other (s.receiver.admits body)).Faithful protocol :=
    fun m hm => CanReceiver.offers_other h (List.mem_of_mem_take hm)
  unfold Reception.arrival
  split
  · next sequence timestamp hx =>
      have hpaired := paired_eq hs.booked sequence
      split
      · next e hfind =>
          rw [hfind] at hpaired
          intro haccepted
          rw [admits, hx, haccepted.offers hs.channel hpaired]
      · next hfind =>
          rw [hfind] at hpaired
          refine hother fun sequence' timestamp' hx' => ?_
          rw [hx] at hx'
          cases hx'
          exact hpaired
  · next hx => exact hother fun sequence timestamp h => absurd h (hx sequence timestamp)

/-- What is not a body brings nothing, and leaves what was brought. -/
theorem accepted_of_other {l : Reception.Label} (hl : ∀ body, l ≠ .receive body) (h : Traffic) :
    (Traffic.note s l s' h).ledger.accepted = h.ledger.accepted := by
  cases l with
  | receive body => exact absurd rfl (hl body)
  | act i a =>
      simp only [Traffic.note]
      split <;> rfl
  | _ => rfl

/-- A receiver keeps its protocol. -/
theorem protocol_step (hs : Accounted s j.traffic) {l : Reception.Label} (ht : s.step l = some s') :
    s'.receiver.protocol = s.receiver.protocol := by
  cases l with
  | receive body =>
      rw [Reception.step, receive_classify hs.bounded] at ht
      cases ht
      exact (received_handle hs.bounded _).protocol
  | note_transmit =>
      cases ht
      simp only [CanReceiver.note_transmit, make_room]
      split <;> rfl
  | forget_transmit | forget_transmits | set_loopback | flush_receive =>
      cases ht
      rfl
  | stop | read =>
      rw [Reception.step, Option.ite_none_right_eq_some] at ht
      cases ht.2
      rfl
  | act i a =>
      rw [Reception.step, Option.bind_eq_some_iff] at ht
      obtain ⟨rd, -, ht⟩ := ht
      obtain ⟨⟨rd', r'⟩, hx, ht⟩ := Option.map_eq_some_iff.mp ht
      cases ht
      exact (SameRecords.read hx).protocol

/-- Every step keeps the journal. -/
theorem step (hs : Echoed protocol s j) {l : Reception.Label} (ht : s.step l = some s') :
    Echoed protocol s' (s.journal l s' j) := by
  have haccounted := hs.accounted.step ht
  have hbooked := hs.booked.step hs.accounted ht
  have hchannel := (protocol_step hs.accounted ht).trans hs.channel
  by_cases hl : ∃ body, l = .receive body
  · obtain ⟨body, rfl⟩ := hl
    refine ⟨haccounted, hbooked, hchannel, ?_, ?_, ?_⟩
    · simp [Reception.journal, Traffic.note, Fifo.Ledger.accept, hs.accepted, items_arrival]
    · have hsettled := confirmed_arrival s s' j.register body
      simp only [Reception.journal, List.filterMap_append, hs.confirmed, hsettled]
      cases h : (s.arrival j.register body).confirmed <;> simp [h]
    · intro a ha
      obtain ha | ha := List.mem_append.mp ha
      · exact hs.faithful a ha
      · exact List.mem_singleton.mp ha ▸ hs.faithful_arrival body
  · have hne : ∀ body, l ≠ .receive body := fun body h => hl ⟨body, h⟩
    have harrivals : (s.journal l s' j).arrivals = j.arrivals := by
      cases l with
      | receive body => exact absurd rfl (hne body)
      | _ => rfl
    refine ⟨haccounted, hbooked, hchannel, ?_, ?_, harrivals ▸ hs.faithful⟩
    · rw [harrivals, ← hs.accepted]
      exact accepted_of_other hne j.traffic
    · rw [harrivals, hs.confirmed]
      have hsettled : (s.book l s' j.register).settled = j.register.settled :=
        Reception.settled_of_other fun body h => absurd h (hne body)
      exact hsettled.symm

/-- So does every run. -/
theorem run {ls : List Reception.Label}
    (hrun : Run.run (Run.recording Reception.step Reception.journal) (.fresh protocol, {}) ls = some (s, j)) :
    Echoed protocol s j :=
  Run.invariant (I := fun t => Echoed protocol t.1 t.2)
    (fun (t, k) l (t', k') ht hstep => by
      obtain ⟨hk, rfl⟩ := Run.recording_eq_some_iff.mp hstep
      exact Echoed.step ht hk)
    (fresh protocol) hrun

end Echoed

/-! ## fidelity -/

namespace Reception

/-- A request of one byte, which is sent with LOOPBACK on. -/
def request : Noted := { message := { ProtocolID := ISO15765, DataSize := 5 }, sequence := 7, call := none }

end Reception

end Mongoose
