import Mongoose.Can
import Mongoose.Codec
import Mongoose.Lib.Run

/-!
# Mongoose.Session

One `Session`, the threads that call it and the transport's callbacks.

A `World` is the session and where each caller stands.  A label is what one
thread does between two lock operations, together with what it reads from
outside: the clock, and the exceptions of the callback and the transport.
`step` performs it, or refuses it when a lock is held or the thread is
elsewhere, so the runs of `step` are the interleavings of all callers.

A call releases `transaction_` in the step that ends it: nothing in between
reads what the caller still holds.
-/

namespace Mongoose

/-! ## calls -/

/-- Milliseconds in the nanoseconds of the steady clock; `time_point{}` is 0. -/
def milliseconds (n : Int) : Int := n * 1000000

/-- Which receiver a `shared_ptr<CanReceiver>` points to. -/
abbrev ReceiverRef := Nat

/-- A thread inside `Session::command`; every call has an ID of its own. -/
abbrev CallId := Nat

/-- A thread inside `Session::close`. -/
abbrev CloserId := Nat

/-- The types the vendor dispatcher admits before routing and sequence matching. -/
def response_opcode (op : Nat) : Prop :=
  op = 1 ∨ (0x8003 ≤ op ∧ op ≤ 0x8008 ∧ op ≠ 0x8004) ∨ (0x800b ≤ op ∧ op ≤ 0x800e) ∨
    (0x8010 ≤ op ∧ op ≤ 0x8015) ∨ op = 0x8100 ∨ op = 0x8102 ∨ op = 0x8103 ∨
    (0x8109 ≤ op ∧ op ≤ 0x810c) ∨ op = 0x8111 ∨ op = 0x8112

instance (op : Nat) : Decidable (response_opcode op) := by unfold response_opcode; infer_instance

/-- The only `sequence_known` the driver passes: record a write with its receiver. -/
structure Recording where
  receiver : ReceiverRef
  message : PASSTHRU_MSG
  call : Option TransmitCall

/-- The arguments of `Session::command`; the timeout is in milliseconds. -/
structure Command where
  opcode : Nat
  payload : Bytes := []
  timeout : Int := 10000
  destination : Nat := board_node
  chan : Nat := 0
  sequence_known : Option Recording := none

/-- The length below which a body cannot answer. -/
def Command.minimum (cmd : Command) : Nat := if cmd.opcode = 0x100 then 12 else 20

/-- Where a call stands. -/
inductive Phase
  /-- Waiting for `transaction_`. -/
  | slot
  /-- Holds `transaction_`, about to check the state. -/
  | started
  /-- Holds a sequence number, about to make it known. -/
  | allocated
  /-- About to compare the deadline with the clock. -/
  | known
  /-- About to call the transport with this many milliseconds left. -/
  | sending (remaining : Int)
  /-- Inside the transport's send. -/
  | sent
  /-- About to lock the state and give the sequence back, then throw. -/
  | undo (error : Exception)
  /-- The send threw; about to lock the state and poison the session. -/
  | abandon (error : Exception)
  /-- Waiting for the response. -/
  | waiting
  | returned (response : Bytes)
  | threw (error : Exception)
  deriving DecidableEq, Repr

namespace Phase

/-- The call holds `transaction_`. -/
def Holds : Phase → Prop
  | .slot | .returned _ | .threw _ => False
  | _ => True

/-- The call holds a sequence number. -/
def Active : Phase → Prop
  | .slot | .started | .returned _ | .threw _ => False
  | _ => True

/-- The call is over. -/
def Ended : Phase → Prop
  | .returned _ | .threw _ => True
  | _ => False

end Phase

/-- A call and its locals.  `allocated` is 0 until it has a sequence number. -/
structure Call where
  command : Command
  deadline : Int
  allocated : Nat := 0
  wire : Bytes := []
  phase : Phase := .slot

/-- Who holds `transaction_`. -/
inductive Holder
  | command (c : CallId)
  | close (k : CloserId)
  deriving DecidableEq, Repr

/-! ## the session -/

/-- The members of the class, a mutex being the thread that holds it, and the
receivers `can_receiver_` may point to. -/
structure Session where
  receivers : ReceiverRef → CanReceiver
  decoder : Decoder := {}
  can_receiver : Option ReceiverRef := none
  transaction : Option Holder := none
  close_mutex : Option CloserId := none
  response : Option Bytes := none
  failure : String := ""
  sequence : Nat := 0
  pending : Nat := 0
  pending_source : Nat := board_node
  minimum : Nat := 20
  closing : Bool := false
  stopped : Bool := false
  used : Nat → Int := fun _ => 0

namespace Session

/-- `Session::usable`. -/
def usable (s : Session) : Prop := s.closing = false ∧ s.failure = ""

instance (s : Session) : Decidable s.usable := inferInstanceAs (Decidable (_ ∧ _))

/-- The receiver a pointer names, after one of its functions has run. -/
def update_receiver (s : Session) (r : ReceiverRef) (receiver : CanReceiver) : Session :=
  { s with receivers := Function.update s.receivers r receiver }

/-- `can_receiver_->stop`, if there is a receiver. -/
def stop_receiver (s : Session) (code : Int) (reason : String) : Session :=
  { s with
    receivers := match s.can_receiver with
      | none => s.receivers
      | some r => Function.update s.receivers r ((s.receivers r).stop code reason) }

/-- `failure_` is set, and the receiver stops with it. -/
def fail (s : Session) (failure : String) : Session :=
  { s with failure := failure }.stop_receiver ERR_DEVICE_NOT_CONNECTED failure

/-- `Session::failed`: the first reason stays. -/
def failed (s : Session) (reason : String) : Session :=
  s.fail (if s.failure = "" then reason else s.failure)

/-- The condition under which `receive` hands a body to the waiting command, its
conjuncts read in order. -/
def accepts (s : Session) (body : Bytes) : Except Exception Bool :=
  if s.pending = 0 ∨ s.response.isSome ∨ body.length < s.minimum then pure false
  else do
    let opcode ← le16 body 4
    if ¬ response_opcode opcode then pure false
    else
      let destination ← le16 body 0
      if destination ≠ 0 then pure false
      else
        let source ← le16 body 2
        if source ≠ s.pending_source then pure false
        else
          let sequence ← le16 body 6
          pure (sequence = s.pending)

/-- The installed receiver sees a body. -/
def deliver (s : Session) (body : Bytes) : Except Exception Session :=
  match s.can_receiver with
  | none => pure s
  | some r => do
      let receiver ← (s.receivers r).receive body
      pure (s.update_receiver r receiver)

/-- The receiver sees a body, then a waiting command may take it. -/
def dispatch (s : Session) (body : Bytes) : Except Exception Session := do
  let s ← s.deliver body
  let accepted ← s.accepts body
  pure (if accepted then { s with response := some body } else s)

/-- `Session::receive`. -/
def receive (s : Session) (bytes : Bytes) : Except Exception Session := do
  let (bodies, decoder) ← s.decoder.feed bytes
  bodies.foldlM dispatch { s with decoder := decoder }

/-- `Session::set_can_receiver`. -/
def set_can_receiver (s : Session) (receiver : Option ReceiverRef) : Session :=
  let s := s.stop_receiver ERR_INVALID_CHANNEL_ID "CAN channel retired"
  let s := { s with can_receiver := receiver }
  if s.usable then s else s.stop_receiver ERR_DEVICE_NOT_CONNECTED "device connection lost"

/-! ### the sections of `command` -/

/-- A sequence is available if it is free or its ten-second quarantine is over. -/
def available (s : Session) (now : Int) (sequence : Nat) : Prop :=
  s.used sequence = 0 ∨ now - s.used sequence ≥ milliseconds 10000

instance (s : Session) (now : Int) (sequence : Nat) : Decidable (s.available now sequence) :=
  inferInstanceAs (Decidable (_ ∨ _))

/-- The allocation loop with `n` turns left: whether a sequence is available,
and where `sequence_` stops. -/
def allocate (s : Session) (now : Int) : Nat → Nat → Bool × Nat
  | 0, sequence => (false, sequence)
  | n + 1, sequence =>
      let next := sequence % 255 + 1
      if s.available now next then (true, next) else allocate s now n next

/-- The checks, the sequence and the request.  The sequence stays taken from the
counter even when the request is refused. -/
def start (s : Session) (cmd : Command) (now : Int) : Except Exception Bytes × Session :=
  if s.closing then (.error (.Error ERR_DEVICE_NOT_CONNECTED "session is closing"), s)
  else if s.failure ≠ "" then (.error (.Error ERR_DEVICE_NOT_CONNECTED s.failure), s)
  else
    let (available, sequence) := s.allocate now 255 s.sequence
    let s := { s with sequence := sequence }
    if available = false then
      (.error (.Error ERR_EXCEEDED_LIMIT
        "all sequence numbers are in the 10-second reuse quarantine"), s)
    else
      match request cmd.opcode sequence cmd.payload cmd.destination cmd.chan >>= encode with
      | .error e => (.error e, s)
      | .ok wire =>
          (.ok wire,
            { s with
              pending_source := cmd.destination
              pending := sequence
              minimum := cmd.minimum
              response := none
              used := Function.update s.used sequence now })

/-- Nothing was sent: the sequence is free again. -/
def undo (s : Session) (allocated : Nat) : Session :=
  { s with pending := 0, used := Function.update s.used allocated 0 }

/-- The send threw: a root cause the transport has reported stays. -/
def abandon (s : Session) : Session :=
  { s with pending := 0 }.failed "write failed; reopen before retrying"

/-- What the wait for a response waits for. -/
def ready (s : Session) : Prop := s.response.isSome ∨ s.closing ∨ s.failure ≠ ""

instance (s : Session) : Decidable s.ready := inferInstanceAs (Decidable (_ ∨ _ ∨ _))

/-- The wait ended because it was ready. -/
def finish (s : Session) (allocated : Nat) : Except Exception Bytes × Session :=
  let s := { s with
    pending := 0
    used := if s.response.isSome then Function.update s.used allocated 0 else s.used }
  if s.closing then
    (.error (.Error ERR_DEVICE_NOT_CONNECTED "session closed while waiting"), s)
  else if s.failure ≠ "" then (.error (.Error ERR_DEVICE_NOT_CONNECTED s.failure), s)
  else (.ok (s.response.getD []), { s with response := s.response.map fun _ => [] })

def timeout_reason : String := "response timed out; reopen to avoid accepting a late response"

/-- The wait reached the deadline. -/
def expire (s : Session) : Session := { s with pending := 0 }.fail timeout_reason

end Session

/-! ## one call -/

/-- What the thread of a call does next.  `now` is its reading of the clock. -/
inductive Action
  /-- It gets `transaction_`, or its deadline passes first. -/
  | slot
  | slotTimeout (now : Int)
  /-- The state check, the allocation and the request. -/
  | start (now : Int)
  /-- `sequence_known` returns, or throws. -/
  | known
  | knownThrows (error : Exception)
  /-- The deadline is compared with the clock. -/
  | budget (now : Int)
  /-- The transport's send is called, returns, or throws. -/
  | send
  | sendReturns
  | sendThrows (error : Exception)
  /-- The section after a failure before the send, and after one of the send. -/
  | undo
  | abandon
  /-- The wait ends because it is ready, or at the deadline. -/
  | wake
  | expire (now : Int)

namespace Call

/-- A call is made: a bad timeout is refused before anything else. -/
def enter (cmd : Command) (now : Int) : Call :=
  if cmd.timeout ≤ 0 ∨ cmd.timeout > 60000 then
    { command := cmd, deadline := now,
      phase := .threw (.invalid_argument "command timeout must be 1..60000 ms") }
  else { command := cmd, deadline := now + milliseconds cmd.timeout }

/-- The call continues at a phase. -/
def goto (call : Call) (phase : Phase) : Call := { call with phase := phase }

/-- The session without the holder of `transaction_`. -/
def release (s : Session) : Session := { s with transaction := none }

/-- The first section of a call that holds `transaction_`. -/
def start (call : Call) (s : Session) (now : Int) : Session × Call :=
  match s.start call.command now with
  | (.error e, s) => (release s, call.goto (.threw e))
  | (.ok wire, s) => (s, { call with allocated := s.pending, wire := wire, phase := .allocated })

/-- `sequence_known(allocated)`. -/
def known (call : Call) (s : Session) : Session :=
  match call.command.sequence_known with
  | none => s
  | some record =>
      s.update_receiver record.receiver
        ((s.receivers record.receiver).note_transmit record.message call.allocated record.call)

/-- The deadline check; a remainder below a millisecond is sent as one. -/
def budget (call : Call) (now : Int) : Phase :=
  let left := call.deadline - now
  if left ≤ 0 then .undo (.Error ERR_TIMEOUT "command deadline expired before write")
  else .sending ((left + 999999) / 1000000)

def wake (call : Call) (s : Session) : Session × Call :=
  match s.finish call.allocated with
  | (.error e, s) => (release s, call.goto (.threw e))
  | (.ok body, s) => (release s, call.goto (.returned body))

/-- One step of call `c`.  Whoever ends a transaction, answers it or stops the session
notifies, so a wait for the slot or for the answer goes on as soon as there is what it is for. -/
def step (c : CallId) (s : Session) (call : Call) : Action → Option (Session × Call)
  | .slot =>
      if call.phase = .slot ∧ s.transaction = none then
        some ({ s with transaction := some (.command c) }, call.goto .started)
      else none
  | .slotTimeout now =>
      if call.phase = .slot ∧ call.deadline ≤ now then
        some (s, call.goto (.threw (.Error ERR_TIMEOUT "waiting for command slot timed out")))
      else none
  | .start now => if call.phase = .started then some (call.start s now) else none
  | .known => if call.phase = .allocated then some (call.known s, call.goto .known) else none
  | .knownThrows error =>
      if call.phase = .allocated then
        -- a `note_transmit` that runs out of memory has already dropped the oldest record
        call.command.sequence_known.map fun record =>
          (s.update_receiver record.receiver (s.receivers record.receiver).make_room,
            call.goto (.undo error))
      else none
  | .budget now => if call.phase = .known then some (s, call.goto (call.budget now)) else none
  | .send =>
      match call.phase with
      | .sending _ => some (s, call.goto .sent)
      | _ => none
  | .sendReturns => if call.phase = .sent then some (s, call.goto .waiting) else none
  | .sendThrows error => if call.phase = .sent then some (s, call.goto (.abandon error)) else none
  | .undo =>
      match call.phase with
      | .undo error => some (release (s.undo call.allocated), call.goto (.threw error))
      | _ => none
  | .abandon =>
      match call.phase with
      | .abandon error => some (release s.abandon, call.goto (.threw error))
      | _ => none
  | .wake => if call.phase = .waiting ∧ s.ready then some (call.wake s) else none
  | .expire now =>
      if call.phase = .waiting ∧ ¬ s.ready ∧ call.deadline ≤ now then
        some (release s.expire, call.goto (.threw (.Error ERR_TIMEOUT Session.timeout_reason)))
      else none

end Call

/-! ## closing -/

/-- Where a closer stands. -/
inductive ClosePhase
  /-- Holds `close_mutex_`, about to lock the state. -/
  | locked
  /-- Has set `closing_`, waiting for `transaction_`. -/
  | draining
  /-- Holds `transaction_` too, about to set `stopped_`. -/
  | drained
  /-- Inside the transport's stop. -/
  | stopping
  | done
  deriving DecidableEq, Repr

/-- The sections of `Session::close`. -/
inductive CloseAction
  | lock
  | mark
  | drain
  | stop
  | done
  deriving DecidableEq, Repr

/-- The section of `close` that sets `closing_`, unless the session is stopped. -/
def Session.mark_closing (s : Session) : Session × ClosePhase :=
  if s.stopped then ({ s with close_mutex := none }, .done)
  else ({ s with closing := true }.stop_receiver ERR_DEVICE_NOT_CONNECTED "device closed", .draining)

/-- One step of closer `k`; `phase` is none before it calls. -/
def Session.close (k : CloserId) (s : Session) (phase : Option ClosePhase) :
    CloseAction → Option (Session × ClosePhase)
  | .lock =>
      if phase = none ∧ s.close_mutex = none then some ({ s with close_mutex := some k }, .locked)
      else none
  | .mark => if phase = some .locked then some s.mark_closing else none
  | .drain =>
      if phase = some .draining ∧ s.transaction = none then
        some ({ s with transaction := some (.close k) }, .drained)
      else none
  | .stop => if phase = some .drained then some ({ s with stopped := true }, .stopping) else none
  | .done =>
      if phase = some .stopping then
        some ({ s with transaction := none, close_mutex := none }, .done)
      else none

/-! ## the system -/

structure World where
  session : Session
  calls : CallId → Option Call := fun _ => none
  closers : CloserId → Option ClosePhase := fun _ => none

/-- What a channel does with its receiver while commands run. -/
inductive ReceiverOp
  | forget_transmit
  | forget_transmits
  | flush_receive
  | set_loopback (enabled : Bool)
  | stop (code : Int) (reason : String)
  /-- One pass of the read loop, and the report after it. -/
  | take (left : Nat)
  | report

def ReceiverOp.apply : ReceiverOp → CanReceiver → CanReceiver
  | .forget_transmit, r => r.forget_transmit
  | .forget_transmits, r => r.forget_transmits
  | .flush_receive, r => r.flush_receive
  | .set_loopback enabled, r => r.set_loopback enabled
  | .stop code reason, r => r.stop code reason
  | .take left, r => (r.take left).2
  | .report, r => r.report.2

/-- One step of one thread. -/
inductive Label
  /-- `command` is called. -/
  | enter (c : CallId) (cmd : Command) (now : Int)
  | act (c : CallId) (a : Action)
  /-- The transport delivers bytes, or reports a failure. -/
  | receive (bytes : Bytes)
  | failed (reason : String)
  | set_can_receiver (receiver : Option ReceiverRef)
  | client (receiver : ReceiverRef) (op : ReceiverOp)
  | close (k : CloserId) (a : CloseAction)

/-- The call whose thread takes the step. -/
def Label.call : Label → Option CallId
  | .enter c _ _ | .act c _ => some c
  | _ => none

namespace World

/-- What the threads other than calls and closers do. -/
def environment (s : Session) : Label → Option Session
  | .receive bytes => (s.receive bytes).toOption
  | .failed reason => some (s.failed reason)
  | .set_can_receiver receiver => some (s.set_can_receiver receiver)
  | .client receiver op => some (s.update_receiver receiver (op.apply (s.receivers receiver)))
  | _ => none

/-- The session and one call after a step. -/
def put (w : World) (s : Session) (c : CallId) (call : Call) : World :=
  { w with session := s, calls := Function.update w.calls c (some call) }

@[simp] theorem put_session (w : World) (s : Session) (c : CallId) (call : Call) :
    (w.put s c call).session = s := rfl

@[simp] theorem put_closers (w : World) (s : Session) (c : CallId) (call : Call) :
    (w.put s c call).closers = w.closers := rfl

@[simp] theorem put_calls_self (w : World) (s : Session) (c : CallId) (call : Call) :
    (w.put s c call).calls c = some call :=
  Function.update_self ..

theorem put_calls_of_ne (w : World) (s : Session) (call : Call) {c d : CallId} (h : d ≠ c) :
    (w.put s c call).calls d = w.calls d :=
  Function.update_of_ne h ..

/-- One step of the system. -/
def step (w : World) : Label → Option World
  | .enter c cmd now =>
      if (w.calls c).isNone then some (w.put w.session c (Call.enter cmd now)) else none
  | .act c a =>
      (w.calls c).bind fun call => (call.step c w.session a).map fun r => w.put r.1 c r.2
  | .close k a =>
      (w.session.close k (w.closers k) a).map fun r =>
        { w with session := r.1, closers := Function.update w.closers k (some r.2) }
  | l => (environment w.session l).map fun s => { w with session := s }

/-- A new session over a started transport; its channels' receivers are still new. -/
def opened (protocol : ReceiverRef → UInt32) : World :=
  { session := { receivers := fun r => { protocol := protocol r } } }

end World

end Mongoose
