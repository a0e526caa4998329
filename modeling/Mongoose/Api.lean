import Mongoose.Config
import Mongoose.Lib.Prog
import Mongoose.Session

/-!
# Mongoose.Api

The PassThru entry points, over devices whose sessions are those of
`Mongoose.Session`.

A call holds the lifecycle lock of one device, so it is a program on that device
and the registry.  What the clock, the adapter and memory do meanwhile is its
script, one turn for each point where the source waits for them; a script that is
no behaviour of the session is refused.  Every command runs the session's own
steps, so whatever holds of all runs of a session holds of every device's.
-/

namespace Mongoose

/-! ## sessions of devices -/

/-- The receivers of a device come in two kinds. -/
def receiver_protocol (r : ReceiverRef) : UInt32 := if r % 2 = 0 then CAN else ISO15765

/-- The `n`-th receiver of a device, made for a protocol. -/
def receiver_ref (n : Nat) (protocol : UInt32) : ReceiverRef :=
  2 * n + if protocol = CAN then 0 else 1

/-- A session in a state that its threads can bring about. -/
structure Live where
  world : World
  reached : ∃ ls, Run.run World.step (World.opened receiver_protocol) ls = some world

namespace Live

def opened : Live := ⟨World.opened receiver_protocol, [], rfl⟩

/-- The session after some steps, unless they are none of its own. -/
def run (s : Live) (ls : List Label) : Option Live :=
  match h : Run.run World.step s.world ls with
  | none => none
  | some w => some ⟨w, s.reached.elim fun ks hk => ⟨ks ++ ls, Run.run_append hk h⟩⟩

theorem run_eq_some {s t : Live} {ls : List Label} (h : s.run ls = some t) :
    Run.run World.step s.world ls = some t.world := by
  rw [run] at h
  split at h
  · cases h
  · next w hw =>
      cases h
      exact hw

def session (s : Live) : Session := s.world.session

end Live

/-! ## scripts -/

/-- What the transport reports. -/
inductive Event
  | receive (bytes : Bytes)
  | failed (reason : String)

def Event.label : Event → Label
  | .receive bytes => .receive bytes
  | .failed reason => .failed reason

/-- What happens next while a command runs. -/
inductive Step
  | act (a : Action)
  | event (e : Event)

namespace Step

def label (c : CallId) : Step → Label
  | .act a => .act c a
  | .event e => e.label

/-- The command is given to the transport. -/
def sends : Step → Bool
  | .act .send => true
  | _ => false

/-- `sequence_known` returns. -/
def knows : Step → Bool
  | .act .known => true
  | _ => false

end Step

/-- What a call waits for, at each point where it waits. -/
inductive Turn
  /-- A reading of the steady clock. -/
  | clock (now : Int)
  /-- A command: when it is called, and what happens until it is over. -/
  | command (now : Int) (steps : List Step)
  /-- The waits for a receiver, and what is reported in each. -/
  | waits (events : List (List Event))
  /-- A map takes one more entry, or throws. -/
  | emplace (error : Option Exception)
  /-- The transport opens or stops, or throws. -/
  | transport (error : Option Exception)

/-! ## devices -/

/-- A command that was written, and its answer if it had one. -/
structure Exchange where
  command : Command
  sequence : Nat
  response : Option Bytes

/-- An opaque firmware handle, and the wire table it lives in. -/
structure Filter where
  handle : Nat
  table : UInt8
  deriving DecidableEq, Repr

/-- A `std::map` from public IDs. -/
abbrev IdMap (β : Type) := List (UInt32 × β)

namespace IdMap

variable {β : Type}

/-- `std::map::emplace`: an entry that is there stays. -/
def emplace (m : IdMap β) (id : UInt32) (v : β) : IdMap β :=
  if (m.lookup id).isSome then m else m ++ [(id, v)]

def erase (m : IdMap β) (id : UInt32) : IdMap β := m.filter fun e => e.1 ≠ id

theorem lookup_emplace (m : IdMap β) (id : UInt32) (v : β) (k : UInt32) :
    (m.emplace id v).lookup k = if k = id then some ((m.lookup id).getD v) else m.lookup k := by
  rw [emplace]
  by_cases hk : k = id
  · subst hk
    cases h : m.lookup k <;> simp [h, List.lookup_append]
  · have hne : (k == id) = false := by simpa using hk
    rw [if_neg hk]
    split
    · rfl
    · rw [List.lookup_append, List.lookup_cons, hne]
      simp

theorem lookup_erase (m : IdMap β) (id k : UInt32) :
    (m.erase id).lookup k = if k = id then none else m.lookup k := by
  induction m with
  | nil => simp [erase]
  | cons e m ih =>
      rw [erase] at ih ⊢
      by_cases he : e.1 = id
      · rw [List.filter_cons_of_neg (by simpa using he), ih, List.lookup_cons]
        by_cases hk : k = id
        · rw [if_pos hk, if_pos hk]
        · have hne : (k == e.1) = false := by simpa [he] using hk
          rw [if_neg hk, if_neg hk, hne]
      · rw [List.filter_cons_of_pos (by simpa using he), List.lookup_cons, List.lookup_cons, ih]
        by_cases hk : k = id
        · have hne : (k == e.1) = false := by simpa [hk] using fun h => he h.symm
          rw [if_pos hk, if_pos hk, hne]
        · rw [if_neg hk, if_neg hk]

end IdMap

/-- A device, with the commands written on its session. -/
structure Device where
  session : Live := Live.opened
  /-- How many commands, receivers and writes it has made, which names the next. -/
  commands : CallId := 0
  receivers : Nat := 0
  writes : TransmitCall := 0
  log : List Exchange := []
  /-- Those of the log that were written while `reopen_required` was set. -/
  uncertain : List Exchange := []
  closed : Bool := false
  reopen_required : Bool := false
  wire_channel_open : Bool := false
  /-- An add may have reached the adapter without a handle we hold. -/
  periodic_untracked : Bool := false
  channel : UInt32 := 0
  channel_flags : UInt32 := 0
  /-- The protocol of the open channel. -/
  protocol : UInt32 := CAN
  receiver : Option ReceiverRef := none
  filters : IdMap Filter := []
  /-- Public ID to firmware handle, in table 4. -/
  periodics : IdMap Nat := []

namespace Device

def usable (d : Device) : Prop := d.session.session.usable

instance (d : Device) : Decidable d.usable := inferInstanceAs (Decidable (Session.usable _))

/-- The receiver a reference of this device points to. -/
def receiver_at (d : Device) (r : ReceiverRef) : CanReceiver := d.session.session.receivers r

/-- `Session::command` on the device's session: the steps run the command to its end. -/
def command (d : Device) (cmd : Command) (now : Int) (steps : List Step) :
    Option (Except Exception Bytes × Device) := do
  let session ← d.session.run (.enter d.commands cmd now :: steps.map (Step.label d.commands))
  let call ← session.world.calls d.commands
  let exchanged (response : Option Bytes) : Device :=
    let written : List Exchange :=
      if steps.any Step.sends then [{ command := cmd, sequence := call.allocated, response := response }] else []
    { d with
      session := session
      commands := d.commands + 1
      log := d.log ++ written
      uncertain := d.uncertain ++ if d.reopen_required then written else [] }
  match call.phase with
  | .returned body => some (.ok body, exchanged (some body))
  | .threw e => some (.error e, exchanged none)
  | _ => none

end Device

/-- What all devices share.  IDs of every kind come from one counter. -/
structure Registry where
  next_handle : Nat := 1
  devices : IdMap Nat := []
  channels : IdMap Nat := []

/-- What a call writes through its pointers. -/
structure Out where
  id : UInt32 := 0
  count : Nat := 0
  messages : List PASSTHRU_MSG := []
  values : List UInt32 := []
  value : UInt32 := 0
  firmware : String := ""

/-- Which device a `shared_ptr<Device>` points to. -/
abbrev DeviceRef := Nat

/-- What a call works on while it holds a device's lifecycle lock. -/
structure Locked where
  ref : DeviceRef
  device : Device
  registry : Registry
  script : List Turn
  out : Out := {}
  /-- The last command's sequence was made known. -/
  noted : Bool := false

abbrev Lifecycle := Prog Exception Locked

open Prog

namespace Lifecycle

def update (f : Device → Device) : Lifecycle Unit := alter fun l => { l with device := f l.device }

def output (f : Out → Out) : Lifecycle Unit := alter fun l => { l with out := f l.out }

/-- Steps of the session that the call itself takes. -/
def perform (ls : List Label) : Lifecycle Unit := do
  let l ← read
  match l.device.session.run ls with
  | none => refuse
  | some session => update fun d => { d with session := session }

/-- A function of a receiver. -/
def client (r : ReceiverRef) (op : ReceiverOp) : Lifecycle Unit := perform [.client r op]

/-- The next turn of the script. -/
def turn : Lifecycle Turn := do
  let l ← read
  match l.script with
  | [] => refuse
  | t :: script => do
      alter fun l => { l with script := script }
      pure t

def clock : Lifecycle Int := do
  match (← turn) with
  | .clock now => pure now
  | _ => refuse

/-- A map takes an entry, or throws. -/
def room : Lifecycle Unit := do
  match (← turn) with
  | .emplace error => rethrow error
  | _ => refuse

def transport : Lifecycle Unit := do
  match (← turn) with
  | .transport error => rethrow error
  | _ => refuse

def waits : Lifecycle (List (List Event)) := do
  match (← turn) with
  | .waits events => pure events
  | _ => refuse

/-- `session->command`. -/
def command (cmd : Command) : Lifecycle Bytes := do
  match (← turn) with
  | .command now steps => do
      let l ← read
      match l.device.command cmd now steps with
      | none => refuse
      | some (result, device) => do
          alter fun l => { l with device := device, noted := steps.any Step.knows }
          of result
  | _ => refuse

end Lifecycle

open Lifecycle

/-! ## helpers -/

/-- Eight hexadecimal digits, as `%08x` prints them. -/
def hex8 (v : Nat) : String := String.ofList (List.leftpad 8 '0' (Nat.toDigits 16 v))

def Session.status (body : Bytes) : Except Exception Nat :=
  if body.length < 20 then throw (.Error ERR_FAILED "general response shorter than 20 bytes")
  else le32 body 12

/-- The status other than zero that is no error. -/
inductive Allow
  | None
  | AlreadyStarted
  | Queued
  deriving DecidableEq, Repr

def accepted (response : Bytes) (allow : Allow := .None) : Except Exception Unit := do
  let status ← Session.status response
  if status = 0 then pure ()
  else if allow = .AlreadyStarted ∧ status = 7 then pure ()
  else if allow = .Queued ∧ status = 0x100 then pure ()
  else if status = 0x20a then
    throw (.Error ERR_FAILED "adapter reports missing vehicle-connector voltage (0x020a)")
  else throw (.Error ERR_FAILED ("adapter status 0x" ++ hex8 status ++ " (mapping not yet validated)"))

def required (pointer : Bool) : Except Exception Unit :=
  if pointer then pure () else throw (.Error ERR_NULL_PARAMETER "required pointer is null")

def unsupported (operation : String) : Exception :=
  .Error ERR_NOT_SUPPORTED (operation ++ ": awaiting protocol/hardware validation")

def allocate_handle : Lifecycle UInt32 := do
  let l ← read
  throw_if (l.registry.next_handle > 0xffffffff) (.Error ERR_EXCEEDED_LIMIT "handle IDs exhausted")
  alter fun l => { l with registry := { l.registry with next_handle := l.registry.next_handle + 1 } }
  pure (UInt32.ofNat l.registry.next_handle)

/-- `LockedDevice::session`. -/
def session : Lifecycle Unit := do
  let l ← read
  throw_if (l.device.reopen_required)
    (.Error ERR_DEVICE_NOT_CONNECTED "channel state uncertain; close and reopen device")

/-- Whether the channel had periodic messages running, which the caller must
clear on the wire before the channel is closed.  `protocol` stays as it was. -/
def retire_channel : Lifecycle Bool := do
  let l ← read
  perform [.set_can_receiver none]
  update fun d => { d with receiver := none, filters := [], periodics := [] }
  alter fun l =>
    { l with registry := { l.registry with channels := l.registry.channels.erase l.device.channel } }
  update fun d => { d with channel := 0 }
  pure (l.device.periodic_untracked || !l.device.periodics.isEmpty)

def uncertain_channel : Lifecycle Unit := do
  update fun d => { d with reopen_required := true }
  let l ← read
  match l.device.receiver with
  | none => pure ()
  | some r =>
      client r (.stop ERR_DEVICE_NOT_CONNECTED "channel state uncertain; reopen device")

/-- A command on the channel's node; one that leaves the session unusable leaves
the channel uncertain. -/
def channel_command (opcode : Nat) (payload : Bytes := []) (timeout : Int := 10000) (chan : Nat := 0)
    (sequence_known : Option Recording := none) : Lifecycle Bytes := do
  let l ← read
  tryCatch
    (command { opcode := opcode, payload := payload, timeout := timeout
               destination := channel_node l.device.protocol.toNat, chan := chan
               sequence_known := sequence_known })
    fun e => do
      let l ← read
      when (¬ l.device.usable) uncertain_channel
      throw e

/-- A channel command that the adapter must accept. -/
def accepted_command (opcode : Nat) (payload : Bytes := []) : Lifecycle Unit := do
  let response ← channel_command opcode payload
  of (accepted response)

def clear_periodic_table : Lifecycle Unit := do
  accepted_command 0x10 [table_periodic, 0, 0, 0]
  update fun d => { d with periodics := [], periodic_untracked := false }

/-- `cCloseChannel`, which frees the wire channel. -/
def close_channel : Lifecycle Unit := do
  accepted_command 7
  update fun d => { d with wire_channel_open := false }

/-- `steady_clock::time_point::max()`. -/
def clock_max : Int := 2 ^ 63 - 1

/-- now + timeout, saturating. -/
def deadline_after (timeout_ms : UInt32) (now : Int) : Int :=
  let available := (clock_max - now).tdiv 1000000
  if (timeout_ms.toNat : Int) ≥ available then clock_max else now + milliseconds timeout_ms.toNat

/-- How long to wait for the adapter to acknowledge one message, in milliseconds. -/
def acknowledgement_budget (timeout_ms : UInt32) (remaining : Int) : Int :=
  if timeout_ms = 0 then 1000 else max 1000 (min 10000 (remaining.tdiv 1000000))

/-- Every message of a write, encoded before anything is sent. -/
def encode_write_batch (protocol : UInt32) (messages : List PASSTHRU_MSG) (timeout_ms : UInt32) :
    Except Exception (List Bytes) :=
  messages.mapM fun message =>
    if protocol = ISO15765 then isotp_transmit message timeout_ms else can_transmit message timeout_ms

/-- Reads a firmware value, by the command that asks for it. -/
def value_of (response : Bytes) (selector : Nat) : Except Exception Nat := do
  accepted response
  if response.length < 28 then throw (.Error ERR_FAILED "invalid get-value response")
  let found ← le32 response 20
  if found ≠ selector then throw (.Error ERR_FAILED "invalid get-value response")
  le32 response 24

def get_value (selector : UInt8) : Lifecycle Nat := do
  let response ← command { opcode := 0xc, payload := [selector, 0, 0, 0] }
  of (value_of response selector.toNat)

/-- The payload that removes a table entry. -/
def remove_payload (table : UInt8) (handle : Nat) : Except Exception Bytes := do
  let remove ← put16 [table, 0, 0, 0, 0, 0, 0, 0] 4 handle
  put16 remove 6 (high16 handle)

/-! ## devices and channels -/

/-- `PassThruOpen` once the transport is open, on the new device. -/
def PassThruOpen : Lifecycle Unit := do
  transport
  let response ← command { opcode := 0x103 }
  of (accepted response .AlreadyStarted)
  let response ← command { opcode := 3 }
  of (accepted response)
  tryCatch
    (do
      let response ← command { opcode := 0x109 }
      of (accepted response)
      let allocated ← allocate_handle
      room
      alter fun l =>
        { l with registry := { l.registry with devices := l.registry.devices.emplace allocated l.ref } }
      output fun o => { o with id := allocated })
    fun e => do
      let _ ← attempt (command { opcode := 5 } >>= fun _ => pure ())
      throw e

/-- `session->close()`. -/
def close : Lifecycle Unit := do
  perform [.close 0 .lock, .close 0 .mark, .close 0 .drain, .close 0 .stop, .close 0 .done]
  transport

def PassThruClose (id : UInt32) : Lifecycle Unit := do
  update fun d => { d with closed := true }
  alter fun l => { l with registry := { l.registry with devices := l.registry.devices.erase id } }
  let periodic ← retire_channel
  let l ← read
  let error ← if l.device.wire_channel_open ∧ periodic then attempt clear_periodic_table else pure none
  let l ← read
  let error' ← if l.device.wire_channel_open then attempt close_channel else pure none
  -- a failed close overwrites a failed clear, and the rest only adds an error
  let error := error'.or error
  let error' ← attempt (command { opcode := 5 } >>= fun response => of (accepted response))
  let error := error.or error'
  let error' ← attempt close
  rethrow (error.or error')

def PassThruConnect (protocol flags baud : UInt32) : Lifecycle Unit := do
  let l ← read
  throw_if (protocol < J1850VPW ∨ protocol > ISO15765)
    (.Error ERR_INVALID_PROTOCOL_ID "unknown protocol ID")
  throw_if (baud = 0) (.Error ERR_INVALID_BAUDRATE "baud rate is zero")
  throw_if (l.device.reopen_required)
    (.Error ERR_DEVICE_NOT_CONNECTED "channel state uncertain; close and reopen device")
  throw_if ((protocol = CAN ∨ protocol = ISO15765) ∧ l.device.channel ≠ 0)
    (.Error ERR_CHANNEL_IN_USE "CAN hardware is already in use")
  throw_if (protocol ≠ CAN ∧ protocol ≠ ISO15765) (unsupported "channel protocol")
  throw_if (¬ can_baud_supported baud) (.Error ERR_INVALID_BAUDRATE "unsupported CAN bit rate")
  throw_if (flagsOutside flags (if protocol = CAN then CAN_29BIT_ID else 0))
    (.Error ERR_INVALID_FLAGS
      (if protocol = CAN then "unsupported CAN flags" else "unsupported ISO15765 flags"))
  let allocated ← allocate_handle
  let receiver := receiver_ref l.device.receivers protocol
  update fun d => { d with receivers := d.receivers + 1, protocol := protocol }
  accepted_command 6 (bytes32 flags ++ bytes32 baud)
  update fun d => { d with wire_channel_open := true }
  tryCatch
    (do
      perform [.set_can_receiver (some receiver)]
      accepted_command 0x12 [1, 0, 0, 0, 6, 0, 0, 0, 14, 0, 0, 0]
      room
      alter fun l =>
        { l with registry := { l.registry with channels := l.registry.channels.emplace allocated l.ref } }
      update fun d =>
        { d with channel := allocated, channel_flags := flags, receiver := some receiver }
      output fun o => { o with id := allocated })
    fun e => do
      perform [.set_can_receiver none]
      let l ← read
      when (¬ l.device.reopen_required)
        (tryCatch close_channel fun _ => update fun d => { d with reopen_required := true })
      throw e

def PassThruDisconnect : Lifecycle Unit := do
  let periodic ← retire_channel
  let error ← if periodic then attempt clear_periodic_table else pure none
  tryCatch close_channel fun e => do
    update fun d => { d with reopen_required := true }
    throw e
  when (error.isSome) (update fun d => { d with reopen_required := true })
  rethrow error

/-! ## messages -/

/-- One pass of the read loop; true if the reader goes on to wait. -/
def read_pass (r : ReceiverRef) (requested : Nat) (timeout : UInt32) : Lifecycle Bool := do
  let l ← read
  let receiver := l.device.receiver_at r
  throw_if (receiver.stopped ≠ 0) (.Error receiver.stopped receiver.reason)
  let taken := (receiver.take (requested - l.out.count)).1
  client r (.take (requested - l.out.count))
  output fun o => { o with count := o.count + taken.length, messages := o.messages ++ taken }
  pure (decide (¬ (l.out.count + taken.length = requested ∨ timeout = 0 ∨ receiver.overflow ∨
    receiver.malformed)))

/-- The read loop.  When nothing more is reported the wait reaches its deadline. -/
def read_loop (r : ReceiverRef) (requested : Nat) (timeout : UInt32) :
    List (List Event) → Lifecycle Unit
  | [] => do
      let _ ← read_pass r requested timeout
      pure ()
  | events :: rest => do
      let more ← read_pass r requested timeout
      when (more) (do
        perform (events.map Event.label)
        let l ← read
        when ((l.device.receiver_at r).awake) (read_loop r requested timeout rest))

/-- `CanReceiver::read`. -/
def read_messages (r : ReceiverRef) (requested : Nat) (timeout : UInt32) : Lifecycle Unit := do
  let events ← waits
  read_loop r requested timeout events
  let l ← read
  let error := (l.device.receiver_at r).report.1
  client r .report
  rethrow error
  throw_if (l.out.count = 0) (.Error ERR_BUFFER_EMPTY "zero CAN messages received")
  throw_if (timeout ≠ 0 ∧ l.out.count < requested)
    (.Error ERR_TIMEOUT "CAN read returned fewer messages than requested")

def PassThruReadMsgs (requested timeout : UInt32) : Lifecycle Unit := do
  throw_if (requested = 0 ∨ requested > 10000)
    (.Error ERR_FAILED "requested message count must be 1..10000")
  session
  let l ← read
  match l.device.receiver with
  | none => refuse
  | some r => read_messages r requested.toNat timeout

/-- Sends the messages of a batch from `index` on. -/
def write_loop (r : ReceiverRef) (call : TransmitCall) (timeout : UInt32) (deadline : Int) :
    List (PASSTHRU_MSG × Bytes) → Nat → Lifecycle Unit
  | [], _ => pure ()
  | (message, payload) :: rest, index => do
      let before_send ← clock
      throw_if (timeout ≠ 0 ∧ before_send ≥ deadline) (.Error ERR_TIMEOUT "write deadline expired")
      let budget := acknowledgement_budget timeout (deadline - before_send)
      tryCatch
        (do
          let response ← channel_command 8 payload budget 1
            (some { receiver := r, message := message, call := some call })
          let status ← of (Session.status response)
          throw_if (status = 0x101) (.Error ERR_BUFFER_FULL "adapter transmit buffer full")
          of (accepted response .Queued))
        fun e => do
          let l ← read
          when (l.noted) (client r .forget_transmit)
          throw e
      when (timeout = 0) (output fun o => { o with count := index + 1 })
      write_loop r call timeout deadline rest (index + 1)

/-- What a write reports when it is timed: its confirmed messages. -/
def report_confirmed (r : ReceiverRef) (call : TransmitCall) : Lifecycle Unit := do
  let l ← read
  output fun o => { o with count := (l.device.receiver_at r).confirmed call }

/-- `CanReceiver::await_transmitted`: false when the deadline passes first. -/
def await_transmitted (r : ReceiverRef) (call : TransmitCall) (target : Nat) : Lifecycle Bool := do
  let events ← waits
  perform (events.flatten.map Event.label)
  let l ← read
  let receiver := l.device.receiver_at r
  throw_if (receiver.stopped ≠ 0) (.Error receiver.stopped receiver.reason)
  pure (decide (receiver.confirmed call ≥ target))

def PassThruWriteMsgs (messages : List PASSTHRU_MSG) (requested timeout : UInt32) :
    Lifecycle Unit := do
  session
  let l ← read
  throw_if (requested = 0 ∨ requested > 10000) (.Error ERR_FAILED "message count must be 1..10000")
  throw_if (l.device.protocol = ISO15765 ∧ l.device.filters = [])
    (.Error ERR_NO_FLOW_CONTROL "ISO15765 channel has no flow-control filter")
  let now ← clock
  let deadline := deadline_after timeout now
  when (messages.length < requested.toNat) refuse
  let batch := messages.take requested.toNat
  let payloads ← of (encode_write_batch l.device.protocol batch timeout)
  match l.device.receiver with
  | none => throw (.Error ERR_DEVICE_NOT_CONNECTED "channel has no receiver")
  | some r => do
      let call := l.device.writes
      update fun d => { d with writes := d.writes + 1 }
      tryCatch
        (do
          write_loop r call timeout deadline (batch.zip payloads) 0
          when (timeout ≠ 0) (do
            let confirmed ← await_transmitted r call requested.toNat
            throw_if (¬ confirmed)
              (.Error ERR_TIMEOUT "adapter did not confirm transmission of every message")))
        fun e => do
          when (timeout ≠ 0) (report_confirmed r call)
          throw e
      when (timeout ≠ 0) (report_confirmed r call)

/-! ## periodic messages and filters -/

/-- A table entry the host cannot hold is removed again. -/
def remove_entry (table : UInt8) (handle : Nat) : Lifecycle Unit := do
  let payload ← of (remove_payload table handle)
  accepted_command 0x0e payload

def PassThruStartPeriodicMsg (message : PASSTHRU_MSG) (interval : UInt32) : Lifecycle Unit := do
  session
  let l ← read
  throw_if (l.device.protocol ≠ CAN)
    (unsupported "periodic messages are implemented for CAN channels only")
  let payload ← of (can_periodic message interval)
  throw_if (l.device.periodics.length ≥ 10)
    (.Error ERR_EXCEEDED_LIMIT "at most 10 periodic messages per channel")
  let allocated ← allocate_handle
  let was_untracked := l.device.periodic_untracked
  update fun d => { d with periodic_untracked := true }
  let response ← channel_command 0x0d payload
  tryCatch (of (accepted response)) fun e => do
    update fun d => { d with periodic_untracked := was_untracked }
    throw e
  when (response.length < 24) (do
    uncertain_channel
    throw (.Error ERR_FAILED "periodic response missing firmware handle; reopen device"))
  let handle ← of (le32 response 20)
  tryCatch
    (do
      room
      update fun d => { d with periodics := d.periodics.emplace allocated handle })
    fun e => do
      tryCatch
        (do
          remove_entry table_periodic handle
          update fun d => { d with periodic_untracked := was_untracked })
        fun _ => uncertain_channel
      throw e
  update fun d => { d with periodic_untracked := was_untracked }
  output fun o => { o with id := allocated }

def PassThruStopPeriodicMsg (id : UInt32) : Lifecycle Unit := do
  session
  let l ← read
  match l.device.periodics.lookup id with
  | none => throw (.Error ERR_INVALID_MSG_ID "invalid periodic message ID for channel")
  | some handle => do
      remove_entry table_periodic handle
      update fun d => { d with periodics := d.periodics.erase id }

/-- The payload of a filter, by the protocol of the channel. -/
def filter_payload (d : Device) (type : UInt32) (mask pattern : PASSTHRU_MSG)
    (flow : Option PASSTHRU_MSG) : Except Exception Bytes :=
  if d.protocol = ISO15765 then
    if type ≠ FLOW_CONTROL_FILTER then
      throw (unsupported "only ISO15765 FLOW_CONTROL_FILTER is implemented")
    else
      match flow with
      | none => throw (.Error ERR_NULL_PARAMETER "FLOW_CONTROL_FILTER requires a flow-control message")
      | some flow =>
          if d.filters.countP (fun e => e.2.table = table_flow_control) ≥ 64 then
            throw (.Error ERR_EXCEEDED_LIMIT "at most 64 flow-control filters per channel")
          else isotp_flow_control_filter mask pattern flow
  else if type ≠ PASS_FILTER ∧ type ≠ BLOCK_FILTER then
    throw (unsupported "only CAN PASS_FILTER and BLOCK_FILTER are implemented")
  else if flow.isSome then
    throw (.Error ERR_INVALID_MSG "PASS_FILTER and BLOCK_FILTER require no flow-control message")
  else if type = PASS_FILTER then can_pass_filter mask pattern d.channel_flags
  else can_block_filter mask pattern d.channel_flags

/-- The wire table of a filter. -/
def filter_table (d : Device) (type : UInt32) : UInt8 :=
  if d.protocol = ISO15765 then table_flow_control
  else if type = BLOCK_FILTER then table_block else table_pass

def PassThruStartMsgFilter (type : UInt32) (mask pattern : PASSTHRU_MSG) (flow : Option PASSTHRU_MSG) :
    Lifecycle Unit := do
  session
  let l ← read
  let payload ← of (filter_payload l.device type mask pattern flow)
  let table := filter_table l.device type
  let allocated ← allocate_handle
  let response ← channel_command 0x0d payload
  of (accepted response)
  when (response.length < 24) (do
    uncertain_channel
    throw (.Error ERR_FAILED "filter response missing firmware handle; reopen device"))
  let handle ← of (le32 response 20)
  tryCatch
    (do
      room
      update fun d =>
        { d with filters := d.filters.emplace allocated { handle := handle, table := table } })
    fun e => do
      tryCatch (remove_entry table handle) fun _ => uncertain_channel
      throw e
  output fun o => { o with id := allocated }

def PassThruStopMsgFilter (id : UInt32) : Lifecycle Unit := do
  session
  let l ← read
  match l.device.filters.lookup id with
  | none => throw (.Error ERR_INVALID_FILTER_ID "invalid filter ID for channel")
  | some filter => do
      remove_entry filter.table filter.handle
      update fun d => { d with filters := d.filters.erase id }

/-! ## versions and IOCTLs -/

def PassThruReadVersion : Lifecycle Unit := do
  session
  let version ← get_value 0x2b
  output fun o =>
    { o with
      firmware := ".".intercalate
        [toString (version / 2 ^ 24), toString (version / 2 ^ 16 % 256),
          toString (version / 256 % 256), toString (version % 256)] }

/-- Clear each wire table that the channel filled, then forget its handles. -/
def clear_filters : List UInt8 → Lifecycle Unit
  | [] => pure ()
  | table :: tables => do
      let l ← read
      when (l.device.filters.any fun e => e.2.table = table) (do
        accepted_command 0x10 [table, 0, 0, 0]
        update fun d => { d with filters := d.filters.filter fun e => e.2.table ≠ table })
      clear_filters tables

/-- A buffer is cleared by the adapter, then on the channel's receiver. -/
def clear_buffer (selector : UInt8) (op : ReceiverOp) : Lifecycle Unit := do
  let l ← read
  accepted_command 0x11 [selector, 0, 0, 0]
  match l.device.receiver with
  | none => pure ()
  | some r => client r op

def channel_ioctl (ioctl_id : UInt32) : Lifecycle Unit := do
  session
  if ioctl_id = CLEAR_TX_BUFFER then clear_buffer 2 .forget_transmits
  else if ioctl_id = CLEAR_RX_BUFFER then clear_buffer 3 .flush_receive
  else if ioctl_id = CLEAR_MSG_FILTERS then clear_filters [table_pass, table_block, table_flow_control]
  else if ioctl_id = CLEAR_PERIODIC_MSGS then do
    let l ← read
    when (l.device.periodic_untracked ∨ l.device.periodics ≠ []) clear_periodic_table
  else throw (.Error ERR_INVALID_IOCTL_ID "not a channel IOCTL")

structure SCONFIG where
  Parameter : UInt32
  Value : UInt32
  deriving DecidableEq, Repr

structure SCONFIG_LIST where
  NumOfParams : UInt32
  ConfigPtr : Option (List SCONFIG)
  deriving DecidableEq, Repr

/-- The payload that sets a firmware value. -/
def set_payload (selector value : UInt32) : Except Exception Bytes := do
  let payload ← put16 (List.replicate 8 0) 0 selector.toNat
  let payload ← put16 payload 4 value.toNat
  put16 payload 6 (high16 value.toNat)

/-- One entry of a configuration list. -/
def config_item (ioctl_id : UInt32) (item : SCONFIG) : Lifecycle Unit := do
  let l ← read
  let route ← of (config_route l.device.protocol item.Parameter)
  match route.location with
  | .HostLoopback =>
      match l.device.receiver with
      | none => throw (.Error ERR_DEVICE_NOT_CONNECTED "channel has no receiver")
      | some r =>
          if ioctl_id = GET_CONFIG then
            output fun o =>
              { o with values := o.values ++ [if (l.device.receiver_at r).loopback then 1 else 0] }
          else client r (.set_loopback (decide (item.Value ≠ 0)))
  | .Firmware =>
      if ioctl_id = GET_CONFIG then do
        let response ← channel_command 0xc [UInt8.ofNat route.selector.toNat, 0, 0, 0]
        let value ← of (value_of response route.selector.toNat)
        output fun o => { o with values := o.values ++ [UInt32.ofNat value] }
      else do
        let payload ← of (set_payload route.selector item.Value)
        accepted_command 0xb payload

def config_items (ioctl_id : UInt32) : List SCONFIG → Lifecycle Unit
  | [] => pure ()
  | item :: items => do
      config_item ioctl_id item
      config_items ioctl_id items

/-- GET_CONFIG and SET_CONFIG: a set validates every entry before it writes any. -/
def config_ioctl (ioctl_id : UInt32) (input : Option SCONFIG_LIST) (output : Bool) :
    Lifecycle Unit := do
  session
  match input with
  | none => of (required false)
  | some list =>
      match list.ConfigPtr with
      | none => of (required false)
      | some items => do
          throw_if (list.NumOfParams = 0 ∨ list.NumOfParams > 50)
            (.Error ERR_FAILED "NumOfParams is unreasonable; is the input a bogus pointer?")
          throw_if (output) (.Error ERR_FAILED "the output parameter must be NULL")
          when (items.length < list.NumOfParams.toNat) refuse
          let items := items.take list.NumOfParams.toNat
          let l ← read
          when (ioctl_id = SET_CONFIG)
            (of (items.forM fun item => config_validate_set l.device.protocol item.Parameter item.Value))
          config_items ioctl_id items

/-- READ_VBATT and READ_PROG_VOLTAGE, rounded to the nearest 100 mV, ties upward. -/
def read_voltage (ioctl_id : UInt32) (output : Bool) : Lifecycle Unit := do
  of (required output)
  session
  let raw ← get_value (if ioctl_id = READ_VBATT then 3 else 2)
  let rounded := (raw + 50) / 100 * 100
  throw_if (rounded > 0xffffffff) (.Error ERR_FAILED "voltage response overflow")
  Lifecycle.output fun o => { o with value := UInt32.ofNat rounded }

/-! ## the process -/

/-- The calls of the C interface.  A flag or an `Option` is a pointer. -/
inductive ApiCall
  | PassThruOpen (id : Bool)
  | PassThruClose (id : UInt32)
  | PassThruConnect (id protocol flags baud : UInt32) (channel : Bool)
  | PassThruDisconnect (id : UInt32)
  | PassThruReadMsgs (channel : UInt32) (messages : Bool) (count : Option UInt32) (timeout : UInt32)
  | PassThruWriteMsgs (channel : UInt32) (messages : Option (List PASSTHRU_MSG))
      (count : Option UInt32) (timeout : UInt32)
  | PassThruStartPeriodicMsg (channel : UInt32) (message : Option PASSTHRU_MSG) (id : Bool)
      (interval : UInt32)
  | PassThruStopPeriodicMsg (channel id : UInt32)
  | PassThruStartMsgFilter (channel type : UInt32) (mask pattern flow : Option PASSTHRU_MSG) (id : Bool)
  | PassThruStopMsgFilter (channel id : UInt32)
  | PassThruSetProgrammingVoltage (id : UInt32)
  | PassThruReadVersion (id : UInt32) (firmware dll api : Bool)
  | PassThruIoctl (id ioctl_id : UInt32) (input : Option SCONFIG_LIST) (output : Bool)

/-- The registry, and the devices that have been made. -/
structure Process where
  registry : Registry := {}
  objects : DeviceRef → Device := fun _ => {}
  made : Nat := 0

namespace Process

/-- How a call ends: its exception if it throws, its output, and the process after it. -/
abbrev End := Except Exception Unit × Out × Process

/-- A program under the lifecycle lock of a device. -/
def locked (p : Process) (ref : DeviceRef) (script : List Turn) (m : Lifecycle Unit) : Option End :=
  (m.exec { ref := ref, device := p.objects ref, registry := p.registry, script := script }).map
    fun r => (r.1, r.2.out,
      { p with registry := r.2.registry, objects := Function.update p.objects ref r.2.device })

/-- `lookup`, and the check once the lifecycle lock is held. -/
def lookup (p : Process) (id : UInt32) (channel : Bool) : Except Exception DeviceRef :=
  match (if channel then p.registry.channels else p.registry.devices).lookup id with
  | none =>
      throw (if channel then .Error ERR_INVALID_CHANNEL_ID "invalid channel ID"
        else .Error ERR_INVALID_DEVICE_ID "invalid device ID")
  | some ref =>
      let channel_id := if channel then id else 0
      if (p.objects ref).closed ∨ (channel_id ≠ 0 ∧ (p.objects ref).channel ≠ channel_id) then
        throw (.Error (if channel_id ≠ 0 then ERR_INVALID_CHANNEL_ID else ERR_INVALID_DEVICE_ID)
          "invalid or closed handle")
      else pure ref

/-- Checks, a look-up, and the program on the device found. -/
def on (p : Process) (checks : Except Exception Unit) (id : UInt32) (channel : Bool)
    (script : List Turn) (m : Lifecycle Unit) : Option End :=
  match checks, p.lookup id channel with
  | .error e, _ => some (.error e, {}, p)
  | .ok _, .error e => some (.error e, {}, p)
  | .ok _, .ok ref => p.locked ref script m

/-- One call, given its script. -/
def call (p : Process) (script : List Turn) : ApiCall → Option End
  | .PassThruOpen id =>
      match required id with
      | .error e => some (.error e, {}, p)
      | .ok _ => { p with made := p.made + 1 }.locked p.made script Mongoose.PassThruOpen
  | .PassThruClose id => p.on (pure ()) id false script (Mongoose.PassThruClose id)
  | .PassThruConnect id protocol flags baud channel =>
      p.on (required channel) id false script (Mongoose.PassThruConnect protocol flags baud)
  | .PassThruDisconnect id => p.on (pure ()) id true script Mongoose.PassThruDisconnect
  | .PassThruReadMsgs channel messages count timeout =>
      p.on (do required count.isSome; required messages) channel true script
        (Mongoose.PassThruReadMsgs (count.getD 0) timeout)
  | .PassThruWriteMsgs channel messages count timeout =>
      p.on (do required count.isSome; required messages.isSome) channel true script
        (Mongoose.PassThruWriteMsgs (messages.getD []) (count.getD 0) timeout)
  | .PassThruStartPeriodicMsg channel message id interval =>
      p.on (do required id; required message.isSome) channel true script
        (Mongoose.PassThruStartPeriodicMsg (message.getD {}) interval)
  | .PassThruStopPeriodicMsg channel id =>
      p.on (pure ()) channel true script (Mongoose.PassThruStopPeriodicMsg id)
  | .PassThruStartMsgFilter channel type mask pattern flow id =>
      p.on (do required id; required mask.isSome; required pattern.isSome) channel true script
        (Mongoose.PassThruStartMsgFilter type (mask.getD {}) (pattern.getD {}) flow)
  | .PassThruStopMsgFilter channel id =>
      p.on (pure ()) channel true script (Mongoose.PassThruStopMsgFilter id)
  | .PassThruSetProgrammingVoltage id =>
      p.on (pure ()) id false script (throw (unsupported "programming voltage"))
  | .PassThruReadVersion id firmware dll api =>
      p.on (do required firmware; required dll; required api) id false script
        Mongoose.PassThruReadVersion
  | .PassThruIoctl id ioctl_id input output =>
      if ioctl_id = GET_CONFIG ∨ ioctl_id = SET_CONFIG then
        p.on (pure ()) id true script (config_ioctl ioctl_id input output)
      else if ioctl_id = CLEAR_TX_BUFFER ∨ ioctl_id = CLEAR_RX_BUFFER ∨
          ioctl_id = CLEAR_MSG_FILTERS ∨ ioctl_id = CLEAR_PERIODIC_MSGS then
        p.on (pure ()) id true script (channel_ioctl ioctl_id)
      else
        p.on (if ioctl_id ≠ READ_VBATT ∧ ioctl_id ≠ READ_PROG_VOLTAGE then
            throw (.Error ERR_INVALID_IOCTL_ID "IoctlID unrecognized, or not valid for this protocol")
          else pure ()) id false script (read_voltage ioctl_id output)

/-- A call with its script, or a report of a device's transport between calls. -/
inductive Label
  | call (c : ApiCall) (script : List Turn)
  | event (ref : DeviceRef) (e : Event)

def step (p : Process) : Label → Option Process
  | .call c script => (p.call script c).map fun r => r.2.2
  | .event ref e =>
      if ref < p.made then
        ((p.objects ref).session.run [e.label]).map fun session =>
          { p with objects := Function.update p.objects ref { p.objects ref with session := session } }
      else none

end Process

end Mongoose
