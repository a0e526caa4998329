import Mongoose.Api.Command

/-!
# Mongoose.Api.Process

What a call of the C interface does to the process.

A call throws before it takes a lifecycle lock, or runs its program on the device
its handle names.  `Process.call_cases` says so once for all calls, so that what
holds of the programs holds of every step of the process.
-/

namespace Mongoose

open Prog Lifecycle

/-! ## programs of calls -/

namespace ApiCall

/-- The handle a call takes, and whether it is a channel's. -/
def target : ApiCall → UInt32 × Bool
  | .PassThruOpen _ => (0, false)
  | .PassThruClose id => (id, false)
  | .PassThruConnect id _ _ _ _ => (id, false)
  | .PassThruDisconnect id => (id, true)
  | .PassThruReadMsgs channel _ _ _ => (channel, true)
  | .PassThruWriteMsgs channel _ _ _ => (channel, true)
  | .PassThruStartPeriodicMsg channel _ _ _ => (channel, true)
  | .PassThruStopPeriodicMsg channel _ => (channel, true)
  | .PassThruStartMsgFilter channel _ _ _ _ _ => (channel, true)
  | .PassThruStopMsgFilter channel _ => (channel, true)
  | .PassThruSetProgrammingVoltage id => (id, false)
  | .PassThruReadVersion id _ _ _ => (id, false)
  | .PassThruIoctl id ioctl_id _ _ =>
      (id, decide (ioctl_id = GET_CONFIG ∨ ioctl_id = SET_CONFIG ∨ ioctl_id = CLEAR_TX_BUFFER ∨
        ioctl_id = CLEAR_RX_BUFFER ∨ ioctl_id = CLEAR_MSG_FILTERS ∨ ioctl_id = CLEAR_PERIODIC_MSGS))

/-- What a call does under the lifecycle lock. -/
def program : ApiCall → Lifecycle Unit
  | .PassThruOpen _ => Mongoose.PassThruOpen
  | .PassThruClose id => Mongoose.PassThruClose id
  | .PassThruConnect _ protocol flags baud _ => Mongoose.PassThruConnect protocol flags baud
  | .PassThruDisconnect _ => Mongoose.PassThruDisconnect
  | .PassThruReadMsgs _ _ count timeout => Mongoose.PassThruReadMsgs (count.getD 0) timeout
  | .PassThruWriteMsgs _ messages count timeout =>
      Mongoose.PassThruWriteMsgs (messages.getD []) (count.getD 0) timeout
  | .PassThruStartPeriodicMsg _ message _ interval =>
      Mongoose.PassThruStartPeriodicMsg (message.getD {}) interval
  | .PassThruStopPeriodicMsg _ id => Mongoose.PassThruStopPeriodicMsg id
  | .PassThruStartMsgFilter _ type mask pattern flow _ =>
      Mongoose.PassThruStartMsgFilter type (mask.getD {}) (pattern.getD {}) flow
  | .PassThruStopMsgFilter _ id => Mongoose.PassThruStopMsgFilter id
  | .PassThruSetProgrammingVoltage _ => throw (unsupported "programming voltage")
  | .PassThruReadVersion .. => Mongoose.PassThruReadVersion
  | .PassThruIoctl _ ioctl_id input output =>
      if ioctl_id = GET_CONFIG ∨ ioctl_id = SET_CONFIG then config_ioctl ioctl_id input output
      else if ioctl_id = CLEAR_TX_BUFFER ∨ ioctl_id = CLEAR_RX_BUFFER ∨
          ioctl_id = CLEAR_MSG_FILTERS ∨ ioctl_id = CLEAR_PERIODIC_MSGS then channel_ioctl ioctl_id
      else read_voltage ioctl_id output

/-- What a call checks before it looks its handle up. -/
def checks : ApiCall → Except Exception Unit
  | .PassThruOpen id => required id
  | .PassThruConnect _ _ _ _ channel => required channel
  | .PassThruReadMsgs _ messages count _ => do required count.isSome; required messages
  | .PassThruWriteMsgs _ messages count _ => do required count.isSome; required messages.isSome
  | .PassThruStartPeriodicMsg _ message id _ => do required id; required message.isSome
  | .PassThruStartMsgFilter _ _ mask pattern _ id => do
      required id
      required mask.isSome
      required pattern.isSome
  | .PassThruReadVersion _ firmware dll api => do required firmware; required dll; required api
  | .PassThruIoctl id ioctl_id _ _ =>
      if (PassThruIoctl id ioctl_id none false).target.2 = false ∧ ioctl_id ≠ READ_VBATT ∧
          ioctl_id ≠ READ_PROG_VOLTAGE then
        throw (.Error ERR_INVALID_IOCTL_ID "IoctlID unrecognized, or not valid for this protocol")
      else pure ()
  | _ => pure ()

end ApiCall

namespace Process

variable {p p' : Process} {ref : DeviceRef} {script : List Turn} {m : Lifecycle Unit}
  {r : Except Exception Unit} {out : Out}

/-- What a call finds when it takes the lifecycle lock of a device. -/
def view (p : Process) (ref : DeviceRef) (script : List Turn) : Locked :=
  { ref := ref, device := p.objects ref, registry := p.registry, script := script }

/-- The process after a call that held a device's lock. -/
def put (p : Process) (ref : DeviceRef) (l : Locked) : Process :=
  { p with registry := l.registry, objects := Function.update p.objects ref l.device }

@[simp] theorem put_objects_self (l : Locked) : (p.put ref l).objects ref = l.device :=
  Function.update_self ..

theorem put_objects_of_ne {l : Locked} {ref' : DeviceRef} (h : ref' ≠ ref) :
    (p.put ref l).objects ref' = p.objects ref' :=
  Function.update_of_ne h ..

/-- A call under the lock ends where its program ends. -/
theorem locked_cases (h : p.locked ref script m = some (r, out, p')) :
    ∃ t, m.exec (p.view ref script) = some (r, t) ∧ out = t.out ∧ p' = p.put ref t := by
  obtain ⟨⟨r', t⟩, ht, h⟩ := Option.map_eq_some_iff.mp h
  simp only [Prod.mk.injEq] at h
  obtain ⟨rfl, rfl, rfl⟩ := h
  exact ⟨t, ht, rfl, rfl⟩

/-- A handle that is found names an open device, and a channel its own. -/
theorem lookup_ok {id : UInt32} {channel : Bool} (h : p.lookup id channel = .ok ref) :
    (if channel then p.registry.channels else p.registry.devices).lookup id = some ref ∧
      (p.objects ref).closed = false ∧
      (channel = true → id = 0 ∨ (p.objects ref).channel = id) := by
  rw [lookup] at h
  split at h
  · cases h
  · next ref' hlookup =>
      by_cases hopen : (p.objects ref').closed ∨ ((if channel then id else 0) ≠ 0 ∧
          (p.objects ref').channel ≠ if channel then id else 0)
      · change (if _ then _ else _) = _ at h
        rw [if_pos hopen] at h
        cases h
      · change (if _ then _ else _) = _ at h
        rw [if_neg hopen] at h
        cases h
        rw [not_or, Bool.not_eq_true, not_and_or, not_not, not_not] at hopen
        refine ⟨hlookup, hopen.1, fun hc => ?_⟩
        simpa [hc] using hopen.2

theorem on_cases {checks : Except Exception Unit} {id : UInt32} {channel : Bool}
    (h : p.on checks id channel script m = some (r, out, p')) :
    (∃ e, r = .error e ∧ out = {} ∧ p' = p) ∨
      ∃ ref, p.lookup id channel = .ok ref ∧ p.locked ref script m = some (r, out, p') := by
  unfold on at h
  split at h
  · cases h
    exact .inl ⟨_, rfl, rfl, rfl⟩
  · cases h
    exact .inl ⟨_, rfl, rfl, rfl⟩
  · next hlookup => exact .inr ⟨_, hlookup, h⟩

theorem on_ok {id : UInt32} {channel : Bool} (h : p.lookup id channel = .ok ref) :
    p.on (.ok ()) id channel script m = p.locked ref script m := by
  unfold on
  rw [h]

/-- A call that opens no device checks its arguments, looks its handle up and runs. -/
theorem call_eq {c : ApiCall} (hc : ∀ id, c ≠ .PassThruOpen id) :
    p.call script c = p.on c.checks c.target.1 c.target.2 script c.program := by
  cases c with
  | PassThruOpen id => exact absurd rfl (hc id)
  | PassThruIoctl id ioctl_id input output =>
      rw [call]
      simp only [ApiCall.target, ApiCall.program, ApiCall.checks, decide_eq_false_iff_not]
      split
      · next hid =>
          rw [decide_eq_true (by tauto), if_neg (by tauto)]
      · next hid =>
          split
          · next hid' => rw [decide_eq_true (by tauto), if_neg (by tauto)]
          · next hid' =>
              rw [decide_eq_false (by tauto)]
              by_cases hv : ioctl_id ≠ READ_VBATT ∧ ioctl_id ≠ READ_PROG_VOLTAGE
              · rw [if_pos hv, if_pos ⟨by tauto, hv⟩]
              · rw [if_neg hv, if_neg fun h => hv h.2]
  | _ => rfl

/-- A call throws before it takes a lock, or opens a new device, or runs its
program on the device its handle names. -/
theorem call_cases {c : ApiCall} (h : p.call script c = some (r, out, p')) :
    (∃ e, r = .error e ∧ out = {} ∧ p' = p) ∨
    (∃ id, c = .PassThruOpen id ∧
      { p with made := p.made + 1 }.locked p.made script c.program = some (r, out, p')) ∨
    ((∀ id, c ≠ .PassThruOpen id) ∧ ∃ ref, p.lookup c.target.1 c.target.2 = .ok ref ∧
      p.locked ref script c.program = some (r, out, p')) := by
  by_cases hc : ∃ id, c = .PassThruOpen id
  · obtain ⟨id, rfl⟩ := hc
    rw [call] at h
    split at h
    · next e _ =>
        cases h
        exact .inl ⟨e, rfl, rfl, rfl⟩
    · exact .inr (.inl ⟨id, rfl, h⟩)
  · have hc (id : Bool) : c ≠ .PassThruOpen id := fun h => hc ⟨id, h⟩
    rw [call_eq hc] at h
    exact (on_cases h).imp_right fun h => .inr ⟨hc, h⟩

end Process

/-! ## scripts -/

/-- The frame of an answer: opcode, node, sequence, status, and what follows it. -/
def answer_frame (opcode node sequence status : Nat) (extra : Bytes) : Bytes :=
  let header := bytes16 0 ++ bytes16 node ++ bytes16 (0x8000 + opcode) ++ bytes16 sequence
  (encode (header ++ bytes16 0 ++ bytes16 0 ++ bytes16 status ++ bytes16 0 ++ bytes16 0 ++ bytes16 0 ++
    extra)).toOption.getD []

/-- The turn of a command that is answered at once. -/
def Turn.answered (opcode node sequence : Nat) (status : Nat := 0) (extra : Bytes := []) : Turn :=
  .command 0 [.act .slot, .act (.start 0), .act .known, .act (.budget 0), .act .send,
    .event (.receive (answer_frame opcode node sequence status extra)), .act .sendReturns, .act .wake]

namespace Process

/-- An Open of the first device, which is device 1. -/
def opening : Label :=
  .call (.PassThruOpen true) [.transport none, .answered 0x103 1 1, .answered 3 1 2,
    .answered 0x109 1 3, .emplace none]

/-- A Connect on device 1, from the sequence it takes. -/
def connecting (protocol : UInt32) (sequence : Nat) : Label :=
  .call (.PassThruConnect 1 protocol 0 500000 true) [.answered 6 (channel_node protocol.toNat) sequence,
    .answered 0x12 (channel_node protocol.toNat) (sequence + 1), .emplace none]

/-- A frame of four bytes of address and no data. -/
def hundred : PASSTHRU_MSG :=
  { ProtocolID := CAN, DataSize := 4, Data := dataField [0, 0, 1, 0], length_Data := length_dataField _ }

/-- A Start of a periodic message on CAN channel 2, which the adapter puts under
handle 7. -/
def starting (sequence : Nat) : Label :=
  .call (.PassThruStartPeriodicMsg 2 (some hundred) true 100)
    [.answered 0x0d (channel_node CAN.toNat) sequence 0 [7, 0, 0, 0], .emplace none]

end Process

end Mongoose
