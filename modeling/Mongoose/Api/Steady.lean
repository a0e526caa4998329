import Mongoose.Api.Calls
import Mongoose.Session.Bounds
import Mongoose.Session.Loopback

/-!
# Mongoose.Api.Steady

Invariants that a call cannot break but where it opens or closes a channel.

All a call does to a session is to take steps of it, and these note no write but one that
was encoded, and set LOOPBACK only where SET_CONFIG says so.  A `Steady` invariant is one
that such steps keep and that looks at little else; every primitive keeps it, and so does
every call made of them.
-/

namespace Mongoose

open Prog Lifecycle

/-! ## writes -/

/-- A write that is encoded may be sent. -/
theorem records_of_transmit {m : PASSTHRU_MSG} {timeout : UInt32} {payload : Bytes}
    (h : isotp_transmit m timeout = .ok payload ∨ can_transmit m timeout = .ok payload) :
    CanReceiver.Records 4 4099 m := by
  obtain h | h := h
  · obtain ⟨hlo, hhi, -⟩ := isotp_transmit_ok h
    exact CanReceiver.records_whole (Nat.le_of_succ_le hlo) hhi
  · obtain ⟨hlo, hhi, -⟩ := can_transmit_ok h
    exact CanReceiver.records_whole hlo (Nat.le_trans hhi (by decide))

/-- A batch that can be encoded has messages that a record can hold. -/
theorem records_of_batch {protocol timeout : UInt32} {messages : List PASSTHRU_MSG}
    {payloads : List Bytes} (h : encode_write_batch protocol messages timeout = .ok payloads) :
    ∀ m ∈ messages, CanReceiver.Records 4 4099 m := by
  induction messages generalizing payloads with
  | nil => simp
  | cons m messages ih =>
      rw [encode_write_batch, List.mapM_cons] at h
      obtain ⟨payload, hpayload, h⟩ := bind_ok h
      obtain ⟨payloads, hrest, -⟩ := bind_ok h
      intro x hx
      obtain rfl | hx := List.mem_cons.mp hx
      · split at hpayload
        · exact records_of_transmit (.inl hpayload)
        · exact records_of_transmit (.inr hpayload)
      · exact ih hrest x hx

/-! ## steady invariants -/

/-- A step of a session that notes no write but one that was encoded, and sets nothing. -/
def Label.Plain (l : Label) : Prop :=
  l.Records 4 4099 ∧ ∀ r enabled, l ≠ .client r (.set_loopback enabled)

/-- Looks at the session, the receivers and the messages handed out, and is kept by the
session's plain steps. -/
structure Locked.Steady (I : Locked → Prop) : Prop where
  congr : ∀ {l t : Locked}, I l → t.device.session = l.device.session →
    t.device.receivers = l.device.receivers → t.device.receiver = l.device.receiver →
    t.device.channel = l.device.channel → t.out.messages = l.out.messages → I t
  run : ∀ {l : Locked} {ls : List Label} {s : Live}, I l → (∀ x ∈ ls, x.Plain) →
    l.device.session.run ls = some s → I { l with device := { l.device with session := s } }

/-- A read hands out what a receiver has queued. -/
structure Locked.Reading (I : Locked → Prop) : Prop extends Locked.Steady I where
  taken : ∀ {l t : Locked} (r : ReceiverRef) (left count : Nat), I l → I t →
    I { t with out := { t.out with count := count
                                   messages := t.out.messages ++ ((l.device.receiver_at r).take left).1 } }

/-- A channel is opened on a receiver made for it, and closed. -/
structure Locked.Enduring (I : Locked → Prop) : Prop extends Locked.Reading I where
  made : ∀ {l : Locked}, I l → I { l with device := { l.device with receivers := l.device.receivers + 1 } }
  published : ∀ {l : Locked} (id : UInt32) (r : ReceiverRef), r / 2 < l.device.receivers → I l →
    I { l with device := { l.device with channel := id, receiver := some r } }
  retired : ∀ {l : Locked}, I l → I { l with device := { l.device with receiver := none, channel := 0 } }

/-- Receivers are numbered as they are made. -/
theorem receiver_ref_div (n : Nat) (protocol : UInt32) : receiver_ref n protocol / 2 = n := by
  rw [receiver_ref]
  split
  · exact Nat.mul_div_cancel_left n (by decide)
  · show (2 * n + 1) / 2 = n
    omega

/-- What happens beside a call is plain. -/
theorem Label.plain_event (e : Event) : e.label.Plain := by
  cases e <;> exact ⟨trivial, fun _ _ => Label.noConfusion⟩

/-- So is a step of a command. -/
theorem Label.plain_act (c : CallId) (a : Action) : (Label.act c a).Plain :=
  ⟨trivial, fun _ _ => Label.noConfusion⟩

/-- What runs a session's steps one by one. -/
theorem Locked.Steady.and_receivers {I : Locked → Prop} (hI : Locked.Steady I) (n : Nat) :
    Locked.Steady fun l => I l ∧ l.device.receivers = n where
  congr h hs hrs hr hc hm := ⟨hI.congr h.1 hs hrs hr hc hm, hrs.trans h.2⟩
  run h hls hs := ⟨hI.run h.1 hls hs, h.2⟩

/-! ## the primitives -/

namespace Locked.Steady

variable {I : Locked → Prop} (hI : Locked.Steady I)

include hI

/-- A change of fields that the invariant does not read keeps it. -/
theorem keeps_update {f : Device → Device} (h : ∀ d, (f d).session = d.session ∧
      (f d).receivers = d.receivers ∧ (f d).receiver = d.receiver ∧ (f d).channel = d.channel) :
    Keeps I (update f) := by
  intro l hl
  obtain ⟨hs, hrs, hr, hc⟩ := h l.device
  exact (wp_update f).mpr (hI.congr hl hs hrs hr hc rfl)

/-- So does what is handed out but for messages. -/
theorem keeps_output {f : Out → Out} (h : ∀ o, (f o).messages = o.messages) :
    Keeps I (output f) :=
  fun _ hl => (wp_output f).mpr (hI.congr hl rfl rfl rfl rfl (h _))

theorem keeps_registry (f : Locked → Registry) :
    Keeps I (alter fun l => { l with registry := f l } : Lifecycle Unit) :=
  .alter fun _ hl => hI.congr hl rfl rfl rfl rfl rfl

/-- Plain steps of the session keep it. -/
theorem keeps_perform {ls : List Label} (h : ∀ l ∈ ls, l.Plain) : Keeps I (perform ls) :=
  fun _ hl => wp_perform fun _ hs => hI.run hl h hs

/-- So does what happens beside the call. -/
theorem keeps_events (events : List Event) : Keeps I (perform (events.map Event.label)) := by
  refine hI.keeps_perform fun l hl => ?_
  obtain ⟨e, -, rfl⟩ := List.mem_map.mp hl
  exact Label.plain_event e

/-- And whatever the call does to a receiver short of setting LOOPBACK. -/
theorem keeps_client (r : ReceiverRef) {op : ReceiverOp} (h : ∀ enabled, op ≠ .set_loopback enabled) :
    Keeps I (client r op) := by
  refine hI.keeps_perform fun l hl => ?_
  cases List.mem_singleton.mp hl
  exact ⟨trivial, fun _ enabled heq => h enabled (Label.client.inj heq).2⟩

theorem keeps_turn : Keeps I turn :=
  fun _ hl => wp_turn fun _ _ _ => hI.congr hl rfl rfl rfl rfl rfl

theorem keeps_clock : Keeps I clock :=
  hI.keeps_turn.bind fun t => by cases t <;> first | exact .pure _ | exact .refuse

theorem keeps_waits : Keeps I waits :=
  hI.keeps_turn.bind fun t => by cases t <;> first | exact .pure _ | exact .refuse

theorem keeps_room : Keeps I room :=
  hI.keeps_turn.bind fun t => by cases t <;> first | exact .rethrow _ | exact .refuse

theorem keeps_transport : Keeps I transport :=
  hI.keeps_turn.bind fun t => by cases t <;> first | exact .rethrow _ | exact .refuse

omit hI in
theorem keeps_session : Keeps I session := Keeps.read.bind fun _ => .throw_if _ _

theorem keeps_allocate_handle : Keeps I allocate_handle :=
  Keeps.read.bind fun _ => (Keeps.throw_if _ _).bind fun _ => (hI.keeps_registry _).bind fun _ => .pure _

/-- The flag is none of its concern. -/
theorem keeps_reopen : Keeps I (update fun d => { d with reopen_required := true }) :=
  (hI.keeps_update (by simp))

theorem keeps_uncertain_channel : Keeps I uncertain_channel := by
  refine hI.keeps_reopen.bind fun _ => Keeps.read.bind fun l => ?_
  split
  · exact .pure _
  · exact hI.keeps_client _ (by simp)

/-- A command, whose write was encoded if it notes one. -/
theorem keeps_command {cmd : Command}
    (h : ∀ record, cmd.sequence_known = some record → CanReceiver.Records 4 4099 record.message) :
    Keeps I (command cmd) := by
  refine hI.keeps_turn.bind fun turn => ?_
  cases turn with
  | command now steps =>
      refine Keeps.read_bind fun l hl => ?_
      cases hd : l.device.command cmd now steps with
      | none => exact wp_refuse
      | some x =>
          obtain ⟨result, device⟩ := x
          have hplain : ∀ x ∈ Label.enter l.device.commands cmd now ::
              steps.map (Step.label l.device.commands), x.Plain := by
            intro x hx
            obtain rfl | hx := List.mem_cons.mp hx
            · exact ⟨h, fun _ _ => Label.noConfusion⟩
            · obtain ⟨s, -, rfl⟩ := List.mem_map.mp hx
              cases s with
              | act a => exact Label.plain_act _ a
              | event e => exact Label.plain_event e
          rw [Device.command] at hd
          obtain ⟨session, hrun, hd⟩ := Option.bind_eq_some_iff.mp hd
          obtain ⟨call, -, hd⟩ := Option.bind_eq_some_iff.mp hd
          have hrun := hI.run hl hplain hrun
          have hdevice : ∃ es us, device = { l.device with
              session := session, commands := l.device.commands + 1, log := es, uncertain := us } := by
            cases hphase : call.phase with
            | returned | threw =>
                simp only [hphase, Option.some.injEq, Prod.mk.injEq] at hd
                exact ⟨_, _, hd.2.symm⟩
            | _ => simp [hphase] at hd
          obtain ⟨es, us, rfl⟩ := hdevice
          simp only [wp_bind, wp_alter, wp_of]
          have hend : I _ := hI.congr (t := { l with
            device := { l.device with
              session := session, commands := l.device.commands + 1, log := es, uncertain := us }
            noted := steps.any Step.knows }) hrun rfl rfl rfl rfl rfl
          exact ⟨fun _ _ => hend, fun _ _ => hend⟩
  | clock | waits | emplace | transport => exact .refuse

/-- A command of the channel is plain if what it records fits a record. -/
theorem keeps_channel_command {opcode : Nat} {payload : Bytes} {timeout : Int} {chan : Nat}
    {known : Option Recording}
    (h : ∀ record, known = some record → CanReceiver.Records 4 4099 record.message) :
    Keeps I (channel_command opcode payload timeout chan known) :=
  Keeps.read.bind fun _ => Keeps.tryCatch (hI.keeps_command h) fun _ => Keeps.read.bind fun _ =>
    (Keeps.when hI.keeps_uncertain_channel).bind fun _ => .throw _

/-- A command that records nothing is plain. -/
theorem keeps_accepted_command {opcode : Nat} {payload : Bytes} : Keeps I (accepted_command opcode payload) :=
  (hI.keeps_channel_command (by simp)).bind fun _ => .of _

/-! ## the calls -/

/-- So is one to the board. -/
theorem keeps_board {opcode : Nat} {payload : Bytes} :
    Keeps I (command { opcode := opcode, payload := payload }) :=
  hI.keeps_command (by simp)

theorem keeps_get_value (selector : UInt8) : Keeps I (get_value selector) :=
  hI.keeps_board.bind fun _ => .of _

theorem keeps_clear_periodic_table : Keeps I clear_periodic_table :=
  hI.keeps_accepted_command.bind fun _ => (hI.keeps_update (by simp))

/-- A close is such a command. -/
theorem keeps_close_channel : Keeps I close_channel :=
  hI.keeps_accepted_command.bind fun _ => (hI.keeps_update (by simp))

theorem keeps_PassThruOpen : Keeps I PassThruOpen := by
  refine hI.keeps_transport.bind fun _ => hI.keeps_board.bind fun _ => (Keeps.of _).bind fun _ =>
    hI.keeps_board.bind fun _ => (Keeps.of _).bind fun _ => Keeps.tryCatch ?_ fun _ => ?_
  · exact hI.keeps_board.bind fun _ => (Keeps.of _).bind fun _ => hI.keeps_allocate_handle.bind fun _ =>
      hI.keeps_room.bind fun _ => (hI.keeps_registry _).bind fun _ => (hI.keeps_output (by simp))
  · exact (Keeps.attempt (hI.keeps_board.bind fun _ => .pure _)).bind fun _ => .throw _

/-- The end of a session stops receivers, and that alone. -/
theorem keeps_close : Keeps I close :=
  (hI.keeps_perform (by simp [Label.Plain, Label.Records])).bind fun _ => hI.keeps_transport

/-- The writes of a batch record messages of the batch. -/
theorem keeps_write_loop (r : ReceiverRef) (call : TransmitCall) (timeout : UInt32) (deadline : Int)
    {batch : List (PASSTHRU_MSG × Bytes)} (h : ∀ m ∈ batch, CanReceiver.Records 4 4099 m.1)
    (index : Nat) : Keeps I (write_loop r call timeout deadline batch index) := by
  induction batch generalizing index with
  | nil => exact .pure _
  | cons item batch ih =>
      refine hI.keeps_clock.bind fun _ => (Keeps.throw_if _ _).bind fun _ => Keeps.bind ?_ fun _ =>
        (Keeps.when (hI.keeps_output (by simp))).bind fun _ =>
          ih (fun m hm => h m (List.mem_cons_of_mem _ hm)) _
      refine Keeps.tryCatch ?_ fun _ => Keeps.read.bind fun _ =>
        (Keeps.when (hI.keeps_client _ (by simp))).bind fun _ => .throw _
      refine (hI.keeps_channel_command fun record hrecord => ?_).bind fun _ => (Keeps.of _).bind fun _ =>
        (Keeps.throw_if _ _).bind fun _ => .of _
      cases hrecord
      exact h item List.mem_cons_self

theorem keeps_report_confirmed (r : ReceiverRef) (call : TransmitCall) :
    Keeps I (report_confirmed r call) :=
  Keeps.read.bind fun _ => (hI.keeps_output (by simp))

theorem keeps_await_transmitted (r : ReceiverRef) (call : TransmitCall) (target : Nat) :
    Keeps I (await_transmitted r call target) :=
  hI.keeps_waits.bind fun _ => (hI.keeps_events _).bind fun _ => Keeps.read.bind fun _ =>
    (Keeps.throw_if _ _).bind fun _ => .pure _

/-- A write encodes every message before it sends any. -/
theorem keeps_PassThruWriteMsgs (messages : List PASSTHRU_MSG) (requested timeout : UInt32) :
    Keeps I (PassThruWriteMsgs messages requested timeout) := by
  refine keeps_session.bind fun _ => Keeps.read.bind fun l => (Keeps.throw_if _ _).bind fun _ =>
    (Keeps.throw_if _ _).bind fun _ => hI.keeps_clock.bind fun _ => (Keeps.when .refuse).bind fun _ =>
      fun t ht => ?_
  rw [wp_bind, wp_of]
  refine ⟨fun payloads hpayloads => ?_, fun _ _ => ht⟩
  have hbatch (m : PASSTHRU_MSG × Bytes)
      (hm : m ∈ (messages.take requested.toNat).zip payloads) : CanReceiver.Records 4 4099 m.1 :=
    records_of_batch hpayloads m.1 (List.of_mem_zip hm).1
  split
  · exact (wp_throw _).mpr ht
  · refine Keeps.bind (hI.keeps_update (by simp))
      (fun _ => Keeps.bind (Keeps.tryCatch ?_ fun _ => ?_) fun _ => ?_) t ht
    · refine (hI.keeps_write_loop _ _ _ _ hbatch _).bind fun _ => Keeps.when ?_
      exact (hI.keeps_await_transmitted _ _ _).bind fun _ => .throw_if _ _
    · exact (Keeps.when (hI.keeps_report_confirmed _ _)).bind fun _ => .throw _
    · exact Keeps.when (hI.keeps_report_confirmed _ _)

theorem keeps_remove_entry (table : UInt8) (handle : Nat) : Keeps I (remove_entry table handle) :=
  (Keeps.of _).bind fun _ => hI.keeps_accepted_command

theorem keeps_PassThruStartPeriodicMsg (message : PASSTHRU_MSG) (interval : UInt32) :
    Keeps I (PassThruStartPeriodicMsg message interval) := by
  refine keeps_session.bind fun _ => Keeps.read.bind fun _ => (Keeps.throw_if _ _).bind fun _ =>
    (Keeps.of _).bind fun _ => (Keeps.throw_if _ _).bind fun _ => hI.keeps_allocate_handle.bind fun _ =>
      (hI.keeps_update (by simp)).bind fun _ => (hI.keeps_channel_command (by simp)).bind fun _ =>
        Keeps.bind (Keeps.tryCatch (.of _) fun _ => (hI.keeps_update (by simp)).bind fun _ => .throw _)
          fun _ => (Keeps.when (hI.keeps_uncertain_channel.bind fun _ => .throw _)).bind fun _ =>
            (Keeps.of _).bind fun _ => Keeps.bind (Keeps.tryCatch ?_ fun _ => ?_) fun _ =>
              (hI.keeps_update (by simp)).bind fun _ => (hI.keeps_output (by simp))
  · exact hI.keeps_room.bind fun _ => (hI.keeps_update (by simp))
  · refine Keeps.bind (Keeps.tryCatch ?_ fun _ => hI.keeps_uncertain_channel) fun _ => .throw _
    exact (hI.keeps_remove_entry _ _).bind fun _ => (hI.keeps_update (by simp))

theorem keeps_PassThruStopPeriodicMsg (id : UInt32) :
    Keeps I (PassThruStopPeriodicMsg id) := by
  refine keeps_session.bind fun _ => Keeps.read.bind fun _ => ?_
  split
  · exact .throw _
  · exact (hI.keeps_remove_entry _ _).bind fun _ => (hI.keeps_update (by simp))

theorem keeps_PassThruStartMsgFilter (type : UInt32) (mask pattern : PASSTHRU_MSG)
    (flow : Option PASSTHRU_MSG) : Keeps I (PassThruStartMsgFilter type mask pattern flow) := by
  refine keeps_session.bind fun _ => Keeps.read.bind fun _ => (Keeps.of _).bind fun _ =>
    hI.keeps_allocate_handle.bind fun _ => (hI.keeps_channel_command (by simp)).bind fun _ =>
      (Keeps.of _).bind fun _ => (Keeps.when (hI.keeps_uncertain_channel.bind fun _ => .throw _)).bind
        fun _ => (Keeps.of _).bind fun _ => Keeps.bind (Keeps.tryCatch ?_ fun _ => ?_) fun _ =>
          (hI.keeps_output (by simp))
  · exact hI.keeps_room.bind fun _ => (hI.keeps_update (by simp))
  · exact (Keeps.tryCatch (hI.keeps_remove_entry _ _) fun _ => hI.keeps_uncertain_channel).bind
      fun _ => .throw _

theorem keeps_PassThruStopMsgFilter (id : UInt32) : Keeps I (PassThruStopMsgFilter id) := by
  refine keeps_session.bind fun _ => Keeps.read.bind fun _ => ?_
  split
  · exact .throw _
  · exact (hI.keeps_remove_entry _ _).bind fun _ => (hI.keeps_update (by simp))

theorem keeps_PassThruReadVersion : Keeps I PassThruReadVersion :=
  keeps_session.bind fun _ => (hI.keeps_get_value _).bind fun _ => (hI.keeps_output (by simp))

theorem keeps_read_voltage (ioctl_id : UInt32) (pointer : Bool) :
    Keeps I (read_voltage ioctl_id pointer) :=
  (Keeps.of _).bind fun _ => keeps_session.bind fun _ => (hI.keeps_get_value _).bind fun _ =>
    (Keeps.throw_if _ _).bind fun _ => (hI.keeps_output (by simp))

theorem keeps_clear_filters (tables : List UInt8) : Keeps I (clear_filters tables) := by
  induction tables with
  | nil => exact .pure _
  | cons table tables ih =>
      exact Keeps.read.bind fun _ => (Keeps.when (hI.keeps_accepted_command.bind fun _ =>
        (hI.keeps_update (by simp)))).bind fun _ => ih

theorem keeps_clear_buffer (selector : UInt8) {op : ReceiverOp} (h : ∀ enabled, op ≠ .set_loopback enabled) :
    Keeps I (clear_buffer selector op) := by
  refine Keeps.read.bind fun _ => hI.keeps_accepted_command.bind fun _ => ?_
  split
  · exact .pure _
  · exact hI.keeps_client _ h

theorem keeps_channel_ioctl (ioctl_id : UInt32) : Keeps I (channel_ioctl ioctl_id) :=
  keeps_session.bind fun _ => Keeps.ite _ (hI.keeps_clear_buffer _ (by simp))
    (Keeps.ite _ (hI.keeps_clear_buffer _ (by simp)) (Keeps.ite _ (hI.keeps_clear_filters _) (Keeps.ite _
      (Keeps.read.bind fun _ => Keeps.when hI.keeps_clear_periodic_table) (.throw _))))

end Locked.Steady

/-! ### configuration -/

/-- The call that sets parameters. -/
def ApiCall.configures : ApiCall → Bool
  | .PassThruIoctl _ ioctl_id _ _ => ioctl_id = SET_CONFIG
  | _ => false

/-- Setting LOOPBACK of the channel's receiver keeps it too. -/
def Locked.Settable (I : Locked → Prop) : Prop :=
  ∀ {l : Locked} {r : ReceiverRef} {enabled : Bool} {s : Live}, l.device.receiver = some r → I l →
    l.device.session.run [.client r (.set_loopback enabled)] = some s →
      I { l with device := { l.device with session := s } }

namespace Locked.Steady

variable {I : Locked → Prop} (hI : Locked.Steady I)

include hI

/-- Only a set of LOOPBACK needs more of the invariant than that it endures. -/
theorem keeps_config_item {ioctl_id : UInt32} (hset : ioctl_id ≠ GET_CONFIG → Locked.Settable I)
    (item : SCONFIG) : Keeps I (config_item ioctl_id item) := by
  refine Keeps.read_bind fun l hl => ?_
  rw [wp_bind, wp_of]
  refine ⟨fun route _ => ?_, fun _ _ => hl⟩
  cases route.location with
  | HostLoopback =>
      cases hr : l.device.receiver with
      | none => exact (wp_throw _).mpr hl
      | some r =>
          by_cases hget : ioctl_id = GET_CONFIG
          · simp only [if_pos hget]
            exact (wp_output _).mpr (hI.congr hl rfl rfl rfl rfl rfl)
          · simp only [if_neg hget]
            exact wp_perform fun s hs => hset hget hr hl hs
  | Firmware =>
      refine Keeps.ite _ ?_ ((Keeps.of _).bind fun _ => hI.keeps_accepted_command) l hl
      exact (hI.keeps_channel_command (by simp)).bind fun _ => (Keeps.of _).bind fun _ =>
        hI.keeps_output (by simp)

/-- So for all entries of a list. -/
theorem keeps_config_items {ioctl_id : UInt32} (hset : ioctl_id ≠ GET_CONFIG → Locked.Settable I)
    (items : List SCONFIG) : Keeps I (config_items ioctl_id items) := by
  induction items with
  | nil => exact .pure _
  | cons item items ih => exact (hI.keeps_config_item hset item).bind fun _ => ih

/-- And for the call. -/
theorem keeps_config_ioctl {ioctl_id : UInt32} (hset : ioctl_id ≠ GET_CONFIG → Locked.Settable I)
    (input : Option SCONFIG_LIST) (pointer : Bool) : Keeps I (config_ioctl ioctl_id input pointer) := by
  refine keeps_session.bind fun _ => ?_
  split
  · exact .of _
  · split
    · exact .of _
    · exact (Keeps.throw_if _ _).bind fun _ => (Keeps.throw_if _ _).bind fun _ =>
        (Keeps.when .refuse).bind fun _ => Keeps.read.bind fun _ => (Keeps.when (.of _)).bind
          fun _ => hI.keeps_config_items hset _

end Locked.Steady

/-! ### reading -/

namespace Locked.Reading

variable {I : Locked → Prop} (hI : Locked.Reading I)

include hI

/-- One pass of the read loop hands out what a receiver has queued. -/
theorem keeps_read_pass (r : ReceiverRef) (requested : Nat) (timeout : UInt32) :
    Keeps I (read_pass r requested timeout) := by
  refine Keeps.read_bind fun l hl => ?_
  have htake : Keeps I (client r (.take (requested - l.out.count))) := hI.keeps_client r (by simp)
  refine Keeps.bind (.throw_if _ _) (fun _ => htake.bind fun _ => Keeps.bind (fun t ht => ?_)
    fun _ => .pure _) l hl
  rw [wp_output]
  exact hI.taken r (requested - l.out.count) _ hl ht

/-- The passes of a read take what is there, one after the other. -/
theorem keeps_read_loop (r : ReceiverRef) (requested : Nat) (timeout : UInt32)
    (events : List (List Event)) : Keeps I (read_loop r requested timeout events) := by
  induction events with
  | nil => exact (hI.keeps_read_pass _ _ _).bind fun _ => .pure _
  | cons e events ih =>
      exact (hI.keeps_read_pass _ _ _).bind fun _ => Keeps.when ((hI.keeps_events _).bind fun _ =>
        Keeps.read.bind fun _ => Keeps.when ih)

theorem keeps_read_messages (r : ReceiverRef) (requested : Nat) (timeout : UInt32) :
    Keeps I (read_messages r requested timeout) :=
  hI.keeps_waits.bind fun _ => (hI.keeps_read_loop _ _ _ _).bind fun _ => Keeps.read.bind fun _ =>
    (hI.keeps_client _ (by simp)).bind fun _ => (Keeps.rethrow _).bind fun _ =>
      (Keeps.throw_if _ _).bind fun _ => .throw_if _ _

theorem keeps_PassThruReadMsgs (requested timeout : UInt32) :
    Keeps I (PassThruReadMsgs requested timeout) := by
  refine (Keeps.throw_if _ _).bind fun _ => Steady.keeps_session.bind fun _ => Keeps.read.bind fun _ => ?_
  split
  · exact .refuse
  · exact hI.keeps_read_messages _ _ _

/-- **Every call that opens and closes nothing keeps it**; one that sets LOOPBACK, if that does. -/
theorem keeps_program {c : ApiCall} (hc : c.lifecycle = false) (hset : c.configures → Locked.Settable I) :
    Keeps I c.program := by
  cases c with
  | PassThruOpen | PassThruClose | PassThruConnect | PassThruDisconnect => cases hc
  | PassThruReadMsgs channel messages count timeout => exact hI.keeps_PassThruReadMsgs _ _
  | PassThruWriteMsgs channel messages count timeout => exact hI.keeps_PassThruWriteMsgs _ _ _
  | PassThruStartPeriodicMsg channel message id interval => exact hI.keeps_PassThruStartPeriodicMsg _ _
  | PassThruStopPeriodicMsg channel id => exact hI.keeps_PassThruStopPeriodicMsg _
  | PassThruStartMsgFilter channel type mask pattern flow id =>
      exact hI.keeps_PassThruStartMsgFilter _ _ _ _
  | PassThruStopMsgFilter channel id => exact hI.keeps_PassThruStopMsgFilter _
  | PassThruSetProgrammingVoltage id => exact .throw _
  | PassThruReadVersion id firmware dll api => exact hI.keeps_PassThruReadVersion
  | PassThruIoctl id ioctl_id input output =>
      rw [ApiCall.program]
      split
      · next hid =>
          refine hI.keeps_config_ioctl (fun hne => hset ?_) _ _
          exact decide_eq_true (hid.resolve_left hne)
      · exact Keeps.ite _ (hI.keeps_channel_ioctl _) (hI.keeps_read_voltage _ _)

end Locked.Reading

/-! ### opening and closing -/

namespace Locked.Enduring

variable {I : Locked → Prop} (hI : Locked.Enduring I)

include hI

/-- A retired channel has no receiver. -/
theorem keeps_retire_channel : Keeps I retire_channel := by
  refine Keeps.read_bind fun l hl => ?_
  rw [wp_bind]
  refine wp_perform fun s hs => ?_
  simp only [wp_bind, wp_update, wp_alter, wp_pure]
  have hplain : ∀ x ∈ [Label.set_can_receiver none], x.Plain := by simp [Label.Plain, Label.Records]
  exact hI.congr (hI.retired (hI.run hl hplain hs)) rfl rfl rfl rfl rfl

theorem keeps_PassThruClose (id : UInt32) : Keeps I (PassThruClose id) := by
  rw [PassThruClose_eq]
  exact (hI.keeps_update (by simp)).bind fun _ => (hI.keeps_registry _).bind fun _ =>
    hI.keeps_retire_channel.bind fun _ => Keeps.read.bind fun _ =>
      keeps_clear_if hI.keeps_clear_periodic_table
        (keeps_end_wire hI.keeps_close_channel hI.keeps_board hI.keeps_close)

/-- The receiver of a new channel is made before the channel is opened on the wire. -/
theorem keeps_PassThruConnect (protocol flags baud : UInt32) :
    Keeps I (PassThruConnect protocol flags baud) := by
  refine Keeps.read_bind fun l hl => ?_
  have hmade := hI.and_receivers (l.device.receivers + 1)
  have hpublish (id : UInt32) : Keeps (fun t => I t ∧ t.device.receivers = l.device.receivers + 1)
      (update fun d => { d with
        channel := id, channel_flags := flags
        receiver := some (receiver_ref l.device.receivers protocol) }) := by
    rintro t ⟨ht, hn⟩
    have hlt : receiver_ref l.device.receivers protocol / 2 < t.device.receivers := by
      rw [receiver_ref_div, hn]
      exact Nat.lt_succ_self _
    exact (wp_update _).mpr ⟨hI.congr (hI.published id _ hlt ht) rfl rfl rfl rfl rfl, hn⟩
  iterate 7
    rw [wp_bind, wp_throw_if]
    refine ⟨fun _ => hl, fun _ => ?_⟩
  rw [wp_bind]
  refine wp_allocate_handle (fun _ => ?_) fun _ => hl
  rw [wp_bind, wp_update]
  refine Triple.call (Q := fun _ t => I t ∧ t.device.receivers = l.device.receivers + 1)
    (hmade.keeps_accepted_command.bind fun _ => (hmade.keeps_update (by simp)).bind fun _ =>
      Keeps.tryCatch ?_ fun _ => ?_)
    ⟨hI.congr (hI.made hl) rfl rfl rfl rfl rfl, rfl⟩ (fun _ _ ht => ht.1) fun _ _ ht => ht.1
  · exact (hmade.keeps_perform (by simp [Label.Plain, Label.Records])).bind fun _ =>
      hmade.keeps_accepted_command.bind fun _ => hmade.keeps_room.bind fun _ =>
        (hmade.keeps_registry _).bind fun _ => (hpublish _).bind fun _ => hmade.keeps_output (by simp)
  · exact (hmade.keeps_perform (by simp [Label.Plain, Label.Records])).bind fun _ => Keeps.read.bind fun _ =>
      (Keeps.when (Keeps.tryCatch hmade.keeps_close_channel fun _ => hmade.keeps_reopen)).bind
        fun _ => .throw _

theorem keeps_PassThruDisconnect : Keeps I PassThruDisconnect := by
  rw [PassThruDisconnect_eq]
  exact hI.keeps_retire_channel.bind fun _ => keeps_clear_if hI.keeps_clear_periodic_table
    (keeps_end_channel hI.keeps_close_channel hI.keeps_reopen)

/-- **Every call keeps it**; one that sets LOOPBACK, if that does. -/
theorem keeps_program {c : ApiCall} (hset : c.configures → Locked.Settable I) : Keeps I c.program := by
  cases c with
  | PassThruOpen id => exact hI.keeps_PassThruOpen
  | PassThruClose id => exact hI.keeps_PassThruClose id
  | PassThruConnect id protocol flags baud channel => exact hI.keeps_PassThruConnect _ _ _
  | PassThruDisconnect id => exact hI.keeps_PassThruDisconnect
  | _ => exact hI.toReading.keeps_program rfl hset

end Locked.Enduring

/-! ### devices -/

namespace Process

variable {p p' : Process} {script : List Turn} {c : ApiCall} {r : Except Exception Unit} {out : Out}
  {D : Device → Prop}

/-- A property of all devices after one of them was put back. -/
theorem devices_put {ref : DeviceRef} {t : Locked} (h : ∀ ref, D (p.objects ref)) (ht : D t.device) :
    ∀ ref', D ((p.put ref t).objects ref') := by
  intro ref'
  by_cases href : ref' = ref
  · subst href
    rw [put_objects_self]
    exact ht
  · rw [put_objects_of_ne href]
    exact h ref'

/-- An enduring property of the devices is kept by every step of the process. -/
theorem devices_step (hI : Locked.Enduring fun l => D l.device) (hset : Locked.Settable fun l => D l.device)
    {l : Label} (h : ∀ ref, D (p.objects ref)) (hs : p.step l = some p') : ∀ ref, D (p'.objects ref) := by
  cases l with
  | call c script =>
      obtain ⟨⟨r, out, t⟩, hc, rfl⟩ := Option.map_eq_some_iff.mp hs
      have hend {q : Process} {ref : DeviceRef} {t : Locked} (hq : D (q.objects ref))
          (ht : c.program.exec (q.view ref script) = some (r, t)) : D t.device :=
        wp_end (P := fun l => D l.device) (hI.keeps_program (fun _ => hset) _ hq) ht
      obtain ⟨-, -, -, rfl⟩ | ⟨-, -, hlocked⟩ | ⟨-, ref, -, hlocked⟩ := call_cases hc
      · exact h
      · obtain ⟨t, ht, -, rfl⟩ := locked_cases hlocked
        exact devices_put (p := { p with made := p.made + 1 }) h (hend (h p.made) ht)
      · obtain ⟨t, ht, -, rfl⟩ := locked_cases hlocked
        exact devices_put h (hend (h ref) ht)
  | event ref e =>
      obtain ⟨-, hs⟩ := Option.ite_none_right_eq_some.mp hs
      obtain ⟨session, hrun, rfl⟩ := Option.map_eq_some_iff.mp hs
      have hrun := hI.run (l := p.view ref []) (h ref) (by simpa using Label.plain_event e) hrun
      let t : Locked := { p.view ref [] with device := { p.objects ref with session := session } }
      exact devices_put (t := t) h hrun

/-- **What every call keeps of its device holds of every device a run makes.** -/
theorem devices_run (hI : Locked.Enduring fun l => D l.device) (hset : Locked.Settable fun l => D l.device)
    (hnew : D {}) {ls : List Label} (h : Run.run step {} ls = some p) (ref : DeviceRef) :
    D (p.objects ref) :=
  Run.invariant (I := fun p => ∀ ref, D (p.objects ref)) (fun _ _ _ hm hs => devices_step hI hset hm hs)
    (fun _ => hnew) h ref

end Process

end Mongoose
