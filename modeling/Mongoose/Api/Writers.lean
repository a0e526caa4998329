import Mongoose.Api
import Mongoose.Session.Books
import Mongoose.Session.Codes
import Mongoose.Session.Waits

/-!
# Mongoose.Api.Writers

The threads inside `PassThruWriteMsgs`, one locked section at a time.

A `Writer` is a call that has encoded its batch.  A step of it is what its thread does
between two lock operations, so that the other threads of the session act anywhere in
between.  A `Desk` is a session's world with any number of writers; only writers note
writes, and only they forget them again.
-/

namespace Mongoose

/-! ## a call -/

/-- The result that `guarded` makes of an exception. -/
def guarded : Option Exception → Int
  | none => STATUS_NOERROR
  | some (.Error code _) => code
  | some _ => ERR_FAILED

/-- What a write finds of its channel. -/
structure Channel where
  protocol : UInt32
  receiver : Option ReceiverRef
  /-- It has a flow-control filter. -/
  filtered : Bool := true
  reopen_required : Bool := false

/-- Where a write stands. -/
inductive WritePhase
  /-- About to read the clock for the next message. -/
  | turn
  /-- Inside `Session::command` for a message. -/
  | commanding (d : CallId)
  /-- The command threw; about to ask the session whether it is usable. -/
  | threw (error : Exception)
  /-- It is not; about to stop the receiver. -/
  | uncertain (error : Exception)
  /-- The message failed; about to forget its record. -/
  | failing (error : Exception)
  /-- Inside `CanReceiver::await_transmitted`. -/
  | awaiting (w : Waiter)
  /-- About to read how many messages were confirmed, then to return or to throw. -/
  | counting (error : Option Exception)
  | done (error : Option Exception)

/-- A call of `PassThruWriteMsgs` and its locals, once its batch is encoded. -/
structure Writer where
  receiver : ReceiverRef
  protocol : UInt32
  /-- Every message with its payload. -/
  batch : List (PASSTHRU_MSG × Bytes)
  timeout : UInt32
  deadline : Int
  index : Nat := 0
  /-- The commands it has made, one for each message so far. -/
  commands : List CallId := []
  noted : Bool := false
  count : Nat := 0
  phase : WritePhase := .turn

/-- The checks of a write, all before anything is sent. -/
def Channel.write (ch : Channel) (messages : List PASSTHRU_MSG) (timeout : UInt32) (now : Int) :
    Except Exception Writer := do
  if ch.reopen_required then
    throw (.Error ERR_DEVICE_NOT_CONNECTED "channel state uncertain; close and reopen device")
  if messages.length = 0 ∨ messages.length > 10000 then
    throw (.Error ERR_FAILED "message count must be 1..10000")
  if ch.protocol = ISO15765 ∧ ch.filtered = false then
    throw (.Error ERR_NO_FLOW_CONTROL "ISO15765 channel has no flow-control filter")
  let payloads ← encode_write_batch ch.protocol messages timeout
  match ch.receiver with
  | none => throw (.Error ERR_DEVICE_NOT_CONNECTED "channel has no receiver")
  | some r =>
      pure { receiver := r, protocol := ch.protocol, batch := messages.zip payloads, timeout := timeout
             deadline := deadline_after timeout now }

/-- The payload of one message of a batch. -/
def encode_write (protocol : UInt32) (message : PASSTHRU_MSG) (timeout : UInt32) : Except Exception Bytes :=
  if protocol = ISO15765 then isotp_transmit message timeout else can_transmit message timeout

/-- A batch is encoded message by message. -/
theorem encode_write_batch_ok {protocol timeout : UInt32} {messages : List PASSTHRU_MSG} {payloads : List Bytes} :
    encode_write_batch protocol messages timeout = .ok payloads ↔
      List.Forall₂ (fun m payload => encode_write protocol m timeout = .ok payload) messages payloads := by
  induction messages generalizing payloads with
  | nil =>
      rw [List.forall₂_nil_left_iff]
      exact ⟨fun h => (Except.ok.inj h).symm, fun h => h ▸ rfl⟩
  | cons m messages ih =>
      rw [encode_write_batch, List.mapM_cons]
      constructor
      · intro h
        obtain ⟨payload, hpayload, h⟩ := bind_ok h
        obtain ⟨rest, hrest, h⟩ := bind_ok h
        obtain rfl := Except.ok.inj h
        exact .cons hpayload (ih.mp hrest)
      · intro h
        cases h with
        | cons hpayload hrest =>
            have hrest := ih.mpr hrest
            rw [encode_write_batch] at hrest
            rw [encode_write] at hpayload
            rw [hpayload, hrest]
            rfl

/-- What a write that goes on has passed. -/
theorem Channel.write_ok {ch : Channel} {messages : List PASSTHRU_MSG} {timeout : UInt32} {now : Int} {wr : Writer}
    (h : ch.write messages timeout now = .ok wr) :
    ∃ r payloads, ch.receiver = some r ∧ 0 < messages.length ∧ messages.length ≤ 10000 ∧
      encode_write_batch ch.protocol messages timeout = .ok payloads ∧
      wr = { receiver := r, protocol := ch.protocol, batch := messages.zip payloads, timeout := timeout
             deadline := deadline_after timeout now } := by
  unfold Channel.write at h
  obtain ⟨-, h⟩ := check_ok h
  obtain ⟨hcount, h⟩ := check_ok h
  obtain ⟨-, h⟩ := check_ok h
  obtain ⟨payloads, hpayloads, h⟩ := bind_ok h
  cases hr : ch.receiver with
  | none =>
      rw [hr] at h
      cases h
  | some r =>
      rw [hr] at h
      exact ⟨r, payloads, rfl, by omega, by omega, hpayloads, (Except.ok.inj h).symm⟩

/-- The adapter has taken a message, or it has not. -/
def queued (response : Bytes) : Except Exception Unit := do
  let status ← Session.status response
  if status = 0x101 then throw (.Error ERR_BUFFER_FULL "adapter transmit buffer full")
  accepted response .Queued

/-- What a thread that writes does next.  `now` and `before_send` are its readings of the clock. -/
inductive WriteAction
  /-- The deadline has passed before a message. -/
  | late (before_send : Int)
  /-- It has not: the command is called, and takes its steps. -/
  | command (before_send : Int) (d : CallId) (now : Int)
  | act (a : Action)
  /-- The command is over. -/
  | resume
  /-- The sections after a command that threw: `usable`, `stop` and `forget_transmit`. -/
  | usable
  | stop
  | forget
  /-- A step of the wait for confirmations. -/
  | wait (a : ReadAction)
  /-- `confirmed`. -/
  | report

namespace Writer

/-- The command for a message. -/
def command (wr : Writer) (c : TransmitCall) (message : PASSTHRU_MSG) (payload : Bytes) (before_send : Int) :
    Command :=
  { opcode := 8, payload := payload
    timeout := acknowledgement_budget wr.timeout (wr.deadline - before_send)
    destination := channel_node wr.protocol.toNat, chan := 1
    sequence_known := some { receiver := wr.receiver, message := message, call := some c } }

/-- The call is over, but for the count of a timed one. -/
def conclude (wr : Writer) (error : Option Exception) : Writer :=
  { wr with phase := if wr.timeout = 0 then .done error else .counting error }

/-- The message failed: a record of it is forgotten. -/
def fail (wr : Writer) (error : Exception) : Writer :=
  if wr.noted then { wr with phase := .failing error } else wr.conclude (some error)

/-- The adapter has taken the message. -/
def proceed (wr : Writer) (c : TransmitCall) : Writer :=
  { wr with
    index := wr.index + 1
    noted := false
    count := if wr.timeout = 0 then wr.index + 1 else wr.count
    phase :=
      if wr.index + 1 < wr.batch.length then .turn
      else if wr.timeout = 0 then .done none
      else .awaiting { call := c, target := wr.batch.length, deadline := wr.deadline } }

/-- The wait for confirmations has taken a step. -/
def awaited (wr : Writer) (w : Waiter) : Writer :=
  { wr with
    phase := match w.phase with
      | .returned true => .counting none
      | .returned false =>
          .counting (some (.Error ERR_TIMEOUT "adapter did not confirm transmission of every message"))
      | .threw error => .counting (some error)
      | _ => .awaiting w }

/-- What a step of a writer does to the session's world. -/
def label (wr : Writer) (c : TransmitCall) : WriteAction → Option Label
  | .command before_send d now =>
      wr.batch[wr.index]?.map fun x => .enter d (wr.command c x.1 x.2 before_send) now
  | .act a =>
      match wr.phase with
      | .commanding d => some (.act d a)
      | _ => none
  | .stop =>
      some (.client wr.receiver (.stop ERR_DEVICE_NOT_CONNECTED "channel state uncertain; reopen device"))
  | .forget => some (.client wr.receiver .forget_transmit)
  | _ => none

/-- What it does to the writer, in the world before. -/
def act (wr : Writer) (c : TransmitCall) (w : World) : WriteAction → Option Writer
  | .late before_send =>
      match wr.phase with
      | .turn =>
          if wr.timeout ≠ 0 ∧ before_send ≥ wr.deadline then
            some (wr.conclude (some (.Error ERR_TIMEOUT "write deadline expired")))
          else none
      | _ => none
  | .command before_send d _ =>
      match wr.phase with
      | .turn =>
          if (wr.timeout ≠ 0 ∧ before_send ≥ wr.deadline) ∨ wr.batch.length ≤ wr.index then none
          else some { wr with commands := wr.commands ++ [d], phase := .commanding d }
      | _ => none
  | .act a =>
      match wr.phase with
      | .commanding _ => some { wr with noted := wr.noted || (Step.act a).knows }
      | _ => none
  | .resume =>
      match wr.phase with
      | .commanding d =>
          match (w.calls d).map Call.phase with
          | some (.returned response) =>
              match queued response with
              | .ok _ => some (wr.proceed c)
              | .error error => some (wr.fail error)
          | some (.threw error) => some { wr with phase := .threw error }
          | _ => none
      | _ => none
  | .usable =>
      match wr.phase with
      | .threw error =>
          some (if w.session.usable then wr.fail error else { wr with phase := .uncertain error })
      | _ => none
  | .stop =>
      match wr.phase with
      | .uncertain error => some (wr.fail error)
      | _ => none
  | .forget =>
      match wr.phase with
      | .failing error => some (wr.conclude (some error))
      | _ => none
  | .wait a =>
      match wr.phase with
      | .awaiting wt => (wt.step (w.session.receivers wr.receiver) a).map wr.awaited
      | _ => none
  | .report =>
      match wr.phase with
      | .counting error =>
          some { wr with
            count := (w.session.receivers wr.receiver).confirmed c
            phase := .done error }
      | _ => none

end Writer

/-! ## the system -/

/-- A session, and the calls that write through it.  A call that was refused has an error, and its
count is 0. -/
structure Desk where
  world : World
  writers : TransmitCall → Option (Except Exception Writer) := fun _ => none

namespace Desk

/-- One step of one thread. -/
inductive Label
  /-- Any other thread of the session. -/
  | world (l : Mongoose.Label)
  /-- A write is called. -/
  | write (c : TransmitCall) (ch : Channel) (messages : List PASSTHRU_MSG) (timeout : UInt32) (now : Int)
  | act (c : TransmitCall) (a : WriteAction)

/-- What the other threads do: their commands note no write, and they forget none but all.
A receiver is stopped with one of two codes. -/
def foreign (w : World) : Mongoose.Label → Bool
  | .enter _ cmd _ => cmd.sequence_known.isNone
  | .act d _ => ((w.calls d).bind fun call => call.command.sequence_known).isNone
  | .client _ .forget_transmit => false
  | .client _ (.stop code _) => code = ERR_INVALID_CHANNEL_ID ∨ code = ERR_DEVICE_NOT_CONNECTED
  | _ => true

/-- What a step does to the session's world. -/
def on (s : Desk) : Label → Option Mongoose.Label
  | .world l => some l
  | .write .. => none
  | .act c a =>
      match s.writers c with
      | some (.ok wr) => wr.label c a
      | _ => none

/-- The writers after a step, if it can be taken. -/
def written (s : Desk) : Label → Option (TransmitCall → Option (Except Exception Writer))
  | .world l => if foreign s.world l then some s.writers else none
  | .write c ch messages timeout now =>
      if (s.writers c).isNone then
        some (Function.update s.writers c (some (ch.write messages timeout now)))
      else none
  | .act c a =>
      match s.writers c with
      | some (.ok wr) =>
          (wr.act c s.world a).map fun wr => Function.update s.writers c (some (.ok wr))
      | _ => none

/-- One step of the system. -/
def step (s : Desk) (l : Label) : Option Desk :=
  (s.written l).bind fun writers =>
    match s.on l with
    | some k => (s.world.step k).map fun w => { world := w, writers := writers }
    | none => some { s with writers := writers }

/-- A new session that nobody writes through. -/
def opened (protocol : ReceiverRef → UInt32) : Desk := { world := World.opened protocol }

/-- The books of its receivers. -/
def book (s : Desk) (l : Label) (s' : Desk) (g : Books) : Books :=
  match s.on l with
  | some k => s.world.book k s'.world g
  | none => g

end Desk

/-! ## what a step can do -/

namespace Writer

/-- The steps of a writer. -/
inductive Went (c : TransmitCall) (w : World) (wr : Writer) : WriteAction → Writer → Prop
  | late (before_send : Int) (hp : wr.phase = .turn) (ht : wr.timeout ≠ 0) :
      Went c w wr (.late before_send) (wr.conclude (some (.Error ERR_TIMEOUT "write deadline expired")))
  | command (before_send : Int) (d : CallId) (now : Int) (hp : wr.phase = .turn)
      (hi : wr.index < wr.batch.length) :
      Went c w wr (.command before_send d now)
        { wr with commands := wr.commands ++ [d], phase := .commanding d }
  | act (a : Action) (d : CallId) (hp : wr.phase = .commanding d) :
      Went c w wr (.act a) { wr with noted := wr.noted || (Step.act a).knows, phase := .commanding d }
  | accepted (d : CallId) (call : Call) (response : Bytes) (hp : wr.phase = .commanding d)
      (hc : w.calls d = some call) (hr : call.phase = .returned response)
      (hq : queued response = .ok ()) : Went c w wr .resume (wr.proceed c)
  | refused (d : CallId) (call : Call) (response : Bytes) (error : Exception)
      (hp : wr.phase = .commanding d) (hc : w.calls d = some call) (hr : call.phase = .returned response)
      (hq : queued response = .error error) : Went c w wr .resume (wr.fail error)
  | threw (d : CallId) (call : Call) (error : Exception) (hp : wr.phase = .commanding d)
      (hc : w.calls d = some call) (ht : call.phase = .threw error) :
      Went c w wr .resume { wr with phase := .threw error }
  | usable (error : Exception) (hp : wr.phase = .threw error) : Went c w wr .usable (wr.fail error)
  | unusable (error : Exception) (hp : wr.phase = .threw error) :
      Went c w wr .usable { wr with phase := .uncertain error }
  | stop (error : Exception) (hp : wr.phase = .uncertain error) : Went c w wr .stop (wr.fail error)
  | forget (error : Exception) (hp : wr.phase = .failing error) :
      Went c w wr .forget (wr.conclude (some error))
  | wait (a : ReadAction) (wt wt' : Waiter) (hp : wr.phase = .awaiting wt)
      (hs : wt.step (w.session.receivers wr.receiver) a = some wt') : Went c w wr (.wait a) (wr.awaited wt')
  | report (error : Option Exception) (hp : wr.phase = .counting error) :
      Went c w wr .report { wr with
        count := (w.session.receivers wr.receiver).confirmed c
        phase := .done error }

variable {c : TransmitCall} {w : World} {wr wr' : Writer} {a : WriteAction}

theorem went_of_resume (h : wr.act c w .resume = some wr') : Went c w wr .resume wr' := by
  cases hp : wr.phase with
  | commanding d =>
      simp only [act, hp] at h
      cases hc : w.calls d with
      | none => simp [hc] at h
      | some call =>
          simp only [hc, Option.map_some] at h
          cases hr : call.phase with
          | returned response =>
              simp only [hr] at h
              cases hq : queued response with
              | ok u =>
                  simp only [hq, Option.some.injEq] at h
                  exact h ▸ .accepted d call response hp hc hr hq
              | error error =>
                  simp only [hq, Option.some.injEq] at h
                  exact h ▸ .refused d call response error hp hc hr hq
          | threw error =>
              simp only [hr, Option.some.injEq] at h
              exact h ▸ .threw d call error hp hc hr
          | _ => simp [hr] at h
  | _ => simp [act, hp] at h

theorem went_of_act (h : wr.act c w a = some wr') : Went c w wr a wr' := by
  cases a with
  | resume => exact went_of_resume h
  | late before_send =>
      cases hp : wr.phase with
      | turn =>
          simp only [act, hp, Option.ite_none_right_eq_some, Option.some.injEq] at h
          exact h.2 ▸ .late before_send hp h.1.1
      | _ => simp [act, hp] at h
  | command before_send d now =>
      cases hp : wr.phase with
      | turn =>
          simp only [act, hp, Option.ite_none_left_eq_some, Option.some.injEq] at h
          obtain ⟨hgo, rfl⟩ := h
          exact .command before_send d now hp (by omega)
      | _ => simp [act, hp] at h
  | act a =>
      cases hp : wr.phase with
      | commanding d =>
          simp only [act, hp, Option.some.injEq] at h
          exact h ▸ .act a d hp
      | _ => simp [act, hp] at h
  | usable =>
      cases hp : wr.phase with
      | threw error =>
          simp only [act, hp, Option.some.injEq] at h
          by_cases hu : w.session.usable
          · rw [if_pos hu] at h
            exact h ▸ .usable error hp
          · rw [if_neg hu] at h
            exact h ▸ .unusable error hp
      | _ => simp [act, hp] at h
  | stop =>
      cases hp : wr.phase with
      | uncertain error =>
          simp only [act, hp, Option.some.injEq] at h
          exact h ▸ .stop error hp
      | _ => simp [act, hp] at h
  | forget =>
      cases hp : wr.phase with
      | failing error =>
          simp only [act, hp, Option.some.injEq] at h
          exact h ▸ .forget error hp
      | _ => simp [act, hp] at h
  | wait a =>
      cases hp : wr.phase with
      | awaiting wt =>
          simp only [act, hp, Option.map_eq_some_iff] at h
          obtain ⟨wt', hs, rfl⟩ := h
          exact .wait a wt wt' hp hs
      | _ => simp [act, hp] at h
  | report =>
      cases hp : wr.phase with
      | counting error =>
          simp only [act, hp, Option.some.injEq] at h
          exact h ▸ .report error hp
      | _ => simp [act, hp] at h

/-- What a step of a writer does to the world is a command, a step of one, or a function
of the receiver. -/
theorem Went.label_cases (h : wr.Went c w a wr') {k : Label} (hk : wr.label c a = some k) :
    (∃ before_send d now x, wr.batch[wr.index]? = some x ∧
      k = .enter d (wr.command c x.1 x.2 before_send) now ∧
      wr' = { wr with commands := wr.commands ++ [d], phase := .commanding d }) ∨
    (∃ d b, wr.phase = .commanding d ∧ k = .act d b ∧
      wr' = { wr with noted := wr.noted || (Step.act b).knows, phase := .commanding d }) ∨
    (∃ reason, k = .client wr.receiver (.stop ERR_DEVICE_NOT_CONNECTED reason)) ∨
    k = .client wr.receiver .forget_transmit := by
  cases h with
  | command before_send d now hp hi =>
      simp only [label, List.getElem?_eq_getElem hi, Option.map_some, Option.some.injEq] at hk
      exact .inl ⟨before_send, d, now, _, List.getElem?_eq_getElem hi, hk.symm, rfl⟩
  | act b d hp =>
      simp only [label, hp, Option.some.injEq] at hk
      exact .inr (.inl ⟨d, b, hp, hk.symm, rfl⟩)
  | stop error hp => exact .inr (.inr (.inl ⟨_, (Option.some.inj hk).symm⟩))
  | forget error hp => exact .inr (.inr (.inr (Option.some.inj hk).symm))
  | _ => cases hk

end Writer

namespace Desk

variable {s s' : Desk} {l : Label} {g : Books}

/-- Who takes a step. -/
theorem step_cases (h : s.step l = some s') :
    (∃ k, l = .world k ∧ foreign s.world k = true ∧ s.world.step k = some s'.world ∧
      s'.writers = s.writers) ∨
    (∃ c ch messages timeout now, l = .write c ch messages timeout now ∧ s.writers c = none ∧
      s' = { s with writers := Function.update s.writers c (some (ch.write messages timeout now)) }) ∨
    (∃ c a wr wr', l = .act c a ∧ s.writers c = some (.ok wr) ∧ wr.Went c s.world a wr' ∧
      s'.writers = Function.update s.writers c (some (.ok wr')) ∧
      ((∃ k, wr.label c a = some k ∧ s.world.step k = some s'.world) ∨
        wr.label c a = none ∧ s'.world = s.world)) := by
  obtain ⟨writers, hw, h⟩ := Option.bind_eq_some_iff.mp h
  cases l with
  | world k =>
      obtain ⟨hf, hw⟩ := Option.ite_none_right_eq_some.mp hw
      obtain ⟨w, hk, rfl⟩ := Option.map_eq_some_iff.mp h
      exact .inl ⟨k, rfl, hf, hk, (Option.some.inj hw).symm⟩
  | write c ch messages timeout now =>
      obtain ⟨hc, hw⟩ := Option.ite_none_right_eq_some.mp hw
      obtain rfl := Option.some.inj hw
      exact .inr (.inl ⟨c, ch, messages, timeout, now, rfl, Option.isNone_iff_eq_none.mp hc,
        (Option.some.inj h).symm⟩)
  | act c a =>
      cases hc : s.writers c with
      | none => simp [written, hc] at hw
      | some x =>
          cases x with
          | error e => simp [written, hc] at hw
          | ok wr =>
              simp only [written, hc] at hw
              obtain ⟨wr', hgo, rfl⟩ := Option.map_eq_some_iff.mp hw
              refine .inr (.inr ⟨c, a, wr, wr', rfl, hc, Writer.went_of_act hgo, ?_⟩)
              simp only [on, hc] at h
              cases hk : wr.label c a with
              | none =>
                  simp only [hk, Option.some.injEq] at h
                  subst h
                  exact ⟨rfl, .inr ⟨rfl, rfl⟩⟩
              | some k =>
                  simp only [hk, Option.map_eq_some_iff] at h
                  obtain ⟨w, hstep, rfl⟩ := h
                  exact ⟨rfl, .inl ⟨k, rfl, hstep⟩⟩

/-- Who takes a step of the session. -/
theorem on_cases (h : s.step l = some s') {k : Mongoose.Label} (hon : s.on l = some k) :
    (l = .world k ∧ foreign s.world k = true ∧ s'.writers = s.writers) ∨
      ∃ c a wr wr', l = .act c a ∧ s.writers c = some (.ok wr) ∧ wr.Went c s.world a wr' ∧
        s'.writers = Function.update s.writers c (some (.ok wr')) ∧ wr.label c a = some k := by
  obtain ⟨k', rfl, hf, -, hw⟩ | ⟨c, ch, messages, timeout, now, rfl, -⟩ |
    ⟨c, a, wr, wr', rfl, hc, hgo, hw, -⟩ := step_cases h
  · obtain rfl := Option.some.inj hon
    exact .inl ⟨rfl, hf, hw⟩
  · cases hon
  · simp only [on, hc] at hon
    exact .inr ⟨c, a, wr, wr', rfl, hc, hgo, hw, hon⟩

/-- A step of the system is one of the session's, or leaves the session alone. -/
theorem on_of_step (h : s.step l = some s') :
    (∃ k, s.on l = some k ∧ s.world.step k = some s'.world ∧ s.book l s' g = s.world.book k s'.world g) ∨
      s.on l = none ∧ s'.world = s.world ∧ s.book l s' g = g := by
  obtain ⟨writers, -, h⟩ := Option.bind_eq_some_iff.mp h
  cases hk : s.on l with
  | none =>
      simp only [hk, Option.some.injEq] at h
      subst h
      exact .inr ⟨rfl, rfl, by rw [book, hk]⟩
  | some k =>
      simp only [hk, Option.map_eq_some_iff] at h
      obtain ⟨w, hstep, rfl⟩ := h
      exact .inl ⟨k, rfl, hstep, by rw [book, hk]⟩

/-- So a run of the system is a run of the session. -/
theorem world_run {protocol : ReceiverRef → UInt32} {ls : List Label}
    (h : Run.run (Run.recording step book) (opened protocol, fun _ => {}) ls = some (s, g)) :
    ∃ ks, Run.run (Run.recording World.step World.book) (World.opened protocol, fun _ => {}) ks =
      some (s.world, g) := by
  refine Run.invariant (I := fun t : Desk × Books => ∃ ks, Run.run (Run.recording World.step World.book)
    (World.opened protocol, fun _ => {}) ks = some (t.1.world, t.2)) ?_ ⟨[], rfl⟩ h
  intro (m, i) l (t, j) ⟨ks, hks⟩ hstep
  obtain ⟨ht, rfl⟩ := Run.recording_eq_some_iff.mp hstep
  obtain ⟨k, -, hk, hb⟩ | ⟨-, hw, hb⟩ := on_of_step (g := i) ht
  · rw [hb]
    exact ⟨ks ++ [k], Run.run_concat hks (Run.recording_eq_some_iff.mpr ⟨hk, rfl⟩)⟩
  · rw [hb, hw]
    exact ⟨ks, hks⟩

end Desk

end Mongoose
