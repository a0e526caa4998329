import Mongoose.Api.Process

/-!
# Mongoose.Api.Uncertain

What is sent while the state of the channel is uncertain.

A call that finds `reopen_required` set throws before it sends.  A call can also set the
flag itself, when a command of its own fails, and then go on to undo what it did.
`Prudent` says of a program that it sends nothing once the flag is set, and returns only
while it is not; every call but Disconnect and Close is prudent, and what these two send
with the flag set takes the channel and the device down, `wp_takes_down`.
-/

namespace Mongoose

open Prog Lifecycle

/-- Takes a channel or a device down. -/
def Command.TearsDown (cmd : Command) : Prop :=
  (cmd.opcode = 0x10 ∧ cmd.payload = [table_periodic, 0, 0, 0]) ∨ cmd.opcode = 7 ∨ cmd.opcode = 5

/-! ## the flag, and what was sent with it -/

/-- A property of the flag and of what was sent with it. -/
def Locked.Marked (D : Bool → List Exchange → Prop) (l : Locked) : Prop :=
  D l.device.reopen_required l.device.uncertain

namespace Locked.Marked

variable {D : Bool → List Exchange → Prop} {l t : Locked}

/-- A mark stays where neither of its two fields changes. -/
theorem congr (h : l.Marked D) (hr : t.device.reopen_required = l.device.reopen_required)
    (hu : t.device.uncertain = l.device.uncertain) : t.Marked D := by
  rw [Marked, hr, hu]
  exact h

/-! ### what leaves it alone -/

/-- A change of other fields keeps the mark. -/
theorem keeps_update {f : Device → Device} (h : ∀ d, (f d).reopen_required = d.reopen_required ∧
    (f d).uncertain = d.uncertain) : Keeps (Marked D) (update f) :=
  fun l hl => (wp_update f).mpr (hl.congr (h l.device).1 (h l.device).2)

/-- So does what is handed out. -/
theorem keeps_output (f : Out → Out) : Keeps (Marked D) (output f) :=
  fun _ hl => (wp_output f).mpr (hl.congr rfl rfl)

/-- And a change of the registry. -/
theorem keeps_registry (f : Locked → Registry) :
    Keeps (Marked D) (alter fun l => { l with registry := f l } : Lifecycle Unit) :=
  .alter fun _ hl => hl.congr rfl rfl

/-- Steps of the session leave the flag alone. -/
theorem keeps_perform (ls : List Label) : Keeps (Marked D) (perform ls) :=
  fun _ hl => wp_perform fun _ _ => hl.congr rfl rfl

theorem keeps_client (r : ReceiverRef) (op : ReceiverOp) : Keeps (Marked D) (client r op) := keeps_perform _

/-- Taking a turn of the script sends nothing. -/
theorem keeps_turn : Keeps (Marked D) turn := fun _ hl => wp_turn fun _ _ _ => hl.congr rfl rfl

theorem keeps_clock : Keeps (Marked D) clock :=
  keeps_turn.bind fun t => by cases t <;> first | exact .pure _ | exact .refuse

theorem keeps_waits : Keeps (Marked D) waits :=
  keeps_turn.bind fun t => by cases t <;> first | exact .pure _ | exact .refuse

theorem keeps_room : Keeps (Marked D) room :=
  keeps_turn.bind fun t => by cases t <;> first | exact Keeps.rethrow _ | exact .refuse

theorem keeps_transport : Keeps (Marked D) transport :=
  keeps_turn.bind fun t => by cases t <;> first | exact Keeps.rethrow _ | exact .refuse

/-- A look at the flag leaves it. -/
theorem keeps_session : Keeps (Marked D) session := Keeps.read.bind fun _ => .throw_if _ _

theorem keeps_allocate_handle : Keeps (Marked D) allocate_handle :=
  Keeps.read.bind fun _ => (Keeps.throw_if _ _).bind fun _ =>
    Keeps.bind (.alter fun _ hl => hl.congr rfl rfl) fun _ => .pure _

/-- A channel that is retired keeps its mark. -/
theorem keeps_retire_channel : Keeps (Marked D) retire_channel :=
  Keeps.read.bind fun _ => (keeps_perform _).bind fun _ => (keeps_update (by simp)).bind fun _ =>
    (keeps_registry _).bind fun _ => (keeps_update (by simp)).bind fun _ => .pure _

/-! ### reading and waiting -/

/-- A pass of a read sends nothing. -/
theorem keeps_read_pass (r : ReceiverRef) (requested : Nat) (timeout : UInt32) :
    Keeps (Marked D) (read_pass r requested timeout) :=
  Keeps.read.bind fun _ => (Keeps.throw_if _ _).bind fun _ => (keeps_client _ _).bind fun _ =>
    (keeps_output _).bind fun _ => .pure _

/-- Nor do all its passes. -/
theorem keeps_read_loop (r : ReceiverRef) (requested : Nat) (timeout : UInt32)
    (events : List (List Event)) : Keeps (Marked D) (read_loop r requested timeout events) := by
  induction events with
  | nil => exact (keeps_read_pass _ _ _).bind fun _ => .pure _
  | cons e events ih =>
      exact (keeps_read_pass _ _ _).bind fun _ => Keeps.when ((keeps_perform _).bind fun _ =>
        Keeps.read.bind fun _ => Keeps.when ih)

/-- A read sends nothing. -/
theorem keeps_PassThruReadMsgs (requested timeout : UInt32) :
    Keeps (Marked D) (PassThruReadMsgs requested timeout) := by
  refine (Keeps.throw_if _ _).bind fun _ => keeps_session.bind fun _ => Keeps.read.bind fun _ => ?_
  split
  · exact .refuse
  · exact keeps_waits.bind fun _ => (keeps_read_loop _ _ _ _).bind fun _ => Keeps.read.bind fun _ =>
      (keeps_client _ _).bind fun _ => (Keeps.rethrow _).bind fun _ => (Keeps.throw_if _ _).bind
        fun _ => .throw_if _ _

theorem keeps_report_confirmed (r : ReceiverRef) (call : TransmitCall) :
    Keeps (Marked D) (report_confirmed r call) := Keeps.read.bind fun _ => keeps_output _

/-- Nor does a wait for confirmations. -/
theorem keeps_await_transmitted (r : ReceiverRef) (call : TransmitCall) (target : Nat) :
    Keeps (Marked D) (await_transmitted r call target) :=
  keeps_waits.bind fun _ => (keeps_perform _).bind fun _ => Keeps.read.bind fun _ =>
    (Keeps.throw_if _ _).bind fun _ => .pure _

/-! ### commands -/

/-- A command may be sent where one that is sent with the flag set may be. -/
theorem keeps_command {cmd : Command}
    (h : ∀ us es, D true us → (∀ e ∈ es, e.command = cmd) → D true (us ++ es)) :
    Keeps (Marked D) (command cmd) := by
  refine keeps_turn.bind fun turn => ?_
  cases turn with
  | command now steps =>
      refine Keeps.read_bind fun l hl => ?_
      cases hd : l.device.command cmd now steps with
      | none => exact wp_refuse
      | some x =>
          obtain ⟨result, device⟩ := x
          obtain ⟨hreopen, es, hes, huncertain⟩ := Device.command_uncertain hd
          have hdevice : D device.reopen_required device.uncertain := by
            rw [hreopen, huncertain]
            rw [Marked] at hl
            cases hflag : l.device.reopen_required with
            | true =>
                rw [hflag] at hl
                exact h _ es hl hes
            | false =>
                rw [hflag] at hl
                simpa using hl
          simp only [wp_bind, wp_alter, wp_of]
          exact ⟨fun _ _ => hdevice, fun _ _ => hdevice⟩
  | clock | waits | emplace | transport => exact .refuse

/-- Setting the flag marks a channel from then on. -/
theorem keeps_reopen (h : ∀ b us, D b us → D true us) :
    Keeps (Marked D) (update fun d => { d with reopen_required := true }) :=
  fun _ hl => (wp_update _).mpr (h _ _ hl)

/-- A channel that has become uncertain is marked from then on. -/
theorem keeps_uncertain_channel (h : ∀ b us, D b us → D true us) : Keeps (Marked D) uncertain_channel := by
  refine (keeps_reopen h).bind fun _ => Keeps.read.bind fun l => ?_
  split
  · exact .pure _
  · exact keeps_client _ _

/-- A channel command sets the flag if it leaves the session unusable. -/
theorem keeps_channel_command {opcode : Nat} {payload : Bytes} {timeout : Int} {chan : Nat}
    {known : Option Recording} (hset : ∀ b us, D b us → D true us)
    (h : ∀ us es, D true us → (∀ e ∈ es, e.command.opcode = opcode ∧ e.command.payload = payload) →
      D true (us ++ es)) :
    Keeps (Marked D) (channel_command opcode payload timeout chan known) :=
  Keeps.read.bind fun _ => Keeps.tryCatch
    (keeps_command fun us es hus hes => h us es hus fun e he => by rw [hes e he]; exact ⟨rfl, rfl⟩)
    fun _ => Keeps.read.bind fun _ => (Keeps.when (keeps_uncertain_channel hset)).bind fun _ => .throw _

end Locked.Marked

/-! ## programs that stop at the flag -/

/-- The flag is not set, and nothing more was sent with it. -/
abbrev Locked.Certain (us : List Exchange) : Locked → Prop := Locked.Marked fun b vs => b = false ∧ vs = us

/-- Nothing more was sent with the flag set, whether it is or not. -/
abbrev Locked.Silent (us : List Exchange) : Locked → Prop := Locked.Marked fun _ vs => vs = us

/-- Before the flag is set nothing was sent under it. -/
theorem Locked.Certain.silent {us : List Exchange} {l : Locked} (h : l.Certain us) : l.Silent us := h.2

/-- Started without the flag, a program sends nothing once it is set, and returns only
while it is not. -/
def Prudent {α : Type} (m : Lifecycle α) : Prop :=
  ∀ us, Triple (Locked.Certain us) m (fun _ => Locked.Certain us) fun _ => Locked.Silent us

/-- A program that throws, and sends nothing with the flag set. -/
def Throws {α : Type} (m : Lifecycle α) : Prop :=
  ∀ us, Triple (Locked.Silent us) m (fun _ _ => False) fun _ => Locked.Silent us

namespace Throws

variable {α β : Type}

theorem throw (e : Exception) : Throws (throw e : Lifecycle α) := fun _ _ hl => (wp_throw e).mpr hl

/-- After what sends nothing. -/
theorem bind {m : Lifecycle β} {f : β → Lifecycle α} (hm : ∀ us, Keeps (Locked.Silent us) m)
    (hf : ∀ b, Throws (f b)) : Throws (m >>= f) :=
  fun us _ hl => (hm us).call hl (fun _ _ => id) fun b => hf b us

end Throws

namespace Prudent

variable {α β : Type} {m : Lifecycle α}

/-- What leaves a certain channel certain is prudent. -/
theorem of_keeps (h : ∀ us, Keeps (Locked.Certain us) m) : Prudent m :=
  fun us l hl => wp_mono (h us l hl) (fun _ _ => id) fun _ _ => Locked.Certain.silent

/-- A handler that throws and sends nothing may follow any program. -/
theorem throws {h : Exception → Lifecycle α} (hm : Prudent m) (hh : ∀ e, Throws (h e)) :
    Prudent (tryCatch m h : Lifecycle α) :=
  fun us l hl => wp_tryCatch.mpr (wp_mono (hm us l hl) (fun _ _ => id) fun e _ ht =>
    (hh e us).call ht (fun _ _ => False.elim) fun _ _ => id)

/-- What sends nothing once the flag is set may come before a throw. -/
theorem before_throw {n : Lifecycle Unit} {e : Exception}
    (hn : ∀ us, Triple (Locked.Certain us) n (fun _ => Locked.Silent us) fun _ => Locked.Silent us) :
    Prudent (n >>= fun _ => throw e : Lifecycle α) :=
  fun us l hl => wp_bind.mpr (wp_mono (hn us l hl) (fun _ _ hu => (wp_throw e).mpr hu) fun _ _ => id)

theorem throw (e : Exception) : Prudent (throw e : Lifecycle α) := of_keeps fun _ => .throw e

theorem of (x : Except Exception α) : Prudent (Prog.of x : Lifecycle α) := of_keeps fun _ => .of x

theorem throw_if (c : Prop) [Decidable c] (e : Exception) : Prudent (throw_if c e) :=
  of_keeps fun _ => .throw_if c e

/-- A prudent program goes on only while the channel is certain. -/
theorem bind {m : Lifecycle β} {f : β → Lifecycle α} (hm : Prudent m) (hf : ∀ b, Prudent (f b)) :
    Prudent (m >>= f) :=
  fun us l hl => wp_bind.mpr (wp_mono (hm us l hl) (fun b => hf b us) fun _ _ => id)

theorem read_bind {f : Locked → Lifecycle α} (h : ∀ l, Prudent (f l)) : Prudent (read >>= f) :=
  bind (of_keeps fun _ => Keeps.read) h

theorem ite (c : Prop) [Decidable c] {n : Lifecycle α} (hm : Prudent m) (hn : Prudent n) :
    Prudent (if c then m else n) := by
  split
  · exact hm
  · exact hn

theorem when {c : Prop} [Decidable c] {m : Lifecycle Unit} (h : Prudent m) : Prudent (when c m) :=
  ite c h (of_keeps fun _ => .pure _)

/-- Where the program can set no flag its handler may send. -/
theorem tryCatch {h : Exception → Lifecycle α} (hm : ∀ us, Keeps (Locked.Certain us) m)
    (hh : ∀ e, Prudent (h e)) : Prudent (tryCatch m h : Lifecycle α) :=
  fun us l hl => wp_tryCatch.mpr (wp_mono (hm us l hl) (fun _ _ => id) fun e t ht => hh e us t ht)

/-! ### the calls -/

open Locked.Marked

/-- A command is sent while the flag is not set, and sets none. -/
theorem keeps_command {us : List Exchange} {cmd : Command} : Keeps (Locked.Certain us) (command cmd) :=
  Locked.Marked.keeps_command fun _ _ h => absurd h.1 (by decide)

/-- A channel that has become uncertain is marked, and nothing is sent for it. -/
theorem keeps_uncertain_channel {us : List Exchange} : Keeps (Locked.Silent us) uncertain_channel :=
  Locked.Marked.keeps_uncertain_channel fun _ _ => id

/-- Who marks the channel and throws at once is prudent. -/
theorem uncertain_channel_throw (e : Exception) :
    Prudent (uncertain_channel >>= fun _ => MonadExcept.throw e : Lifecycle α) :=
  before_throw fun _ _ hl => keeps_uncertain_channel _ hl.silent

/-- The channel's state comes to be uncertain after the command is sent, and the
command throws. -/
theorem channel_command {opcode : Nat} {payload : Bytes} {timeout : Int} {chan : Nat} {known : Option Recording} :
    Prudent (channel_command opcode payload timeout chan known) :=
  read_bind fun _ => throws (of_keeps fun _ => keeps_command) fun e =>
    Throws.bind (fun _ => Keeps.read) fun _ =>
      Throws.bind (fun _ => Keeps.when keeps_uncertain_channel) fun _ => .throw e

/-- A command that loses its answer marks the channel and throws. -/
theorem accepted_command {opcode : Nat} {payload : Bytes} : Prudent (accepted_command opcode payload) :=
  channel_command.bind fun _ => of _

/-- The clear of a teardown is such a command. -/
theorem clear_periodic_table : Prudent clear_periodic_table :=
  accepted_command.bind fun _ => of_keeps fun _ => keeps_update (by simp)

/-- So is its close. -/
theorem close_channel : Prudent close_channel :=
  accepted_command.bind fun _ => of_keeps fun _ => keeps_update (by simp)

/-- And the removal of an entry. -/
theorem remove_entry (table : UInt8) (handle : Nat) : Prudent (remove_entry table handle) :=
  (of _).bind fun _ => accepted_command

theorem get_value (selector : UInt8) : Prudent (get_value selector) :=
  of_keeps fun _ => keeps_command.bind fun _ => .of _

/-- An Open sends no command of a channel, so it sets no flag. -/
theorem PassThruOpen : Prudent PassThruOpen := by
  refine of_keeps fun us => keeps_transport.bind fun _ => keeps_command.bind fun _ => (Keeps.of _).bind fun _ =>
    keeps_command.bind fun _ => (Keeps.of _).bind fun _ => Keeps.tryCatch ?_ fun _ => ?_
  · exact keeps_command.bind fun _ => (Keeps.of _).bind fun _ => keeps_allocate_handle.bind fun _ =>
      keeps_room.bind fun _ => (keeps_registry _).bind fun _ => keeps_output _
  · exact (Keeps.attempt (keeps_command.bind fun _ => .pure _)).bind fun _ => .throw _

/-- The roll-back of a Connect closes the wire channel only while its state is certain. -/
theorem throws_roll_back (e : Exception) : Throws (α := α) (perform [.set_can_receiver none] >>= fun _ =>
    read >>= fun l => Prog.when (¬ l.device.reopen_required)
      (MonadExcept.tryCatch Mongoose.close_channel fun _ => update fun d => { d with reopen_required := true })
        >>= fun _ => MonadExcept.throw e) := by
  refine Throws.bind (fun _ => keeps_perform _) fun _ us l hl => ?_
  rw [wp_bind, wp_read, wp_bind, wp_when]
  refine ⟨fun hr => wp_tryCatch.mpr ?_, fun _ => (wp_throw e).mpr hl⟩
  have hcertain : l.Certain us := ⟨eq_false_of_ne_true hr, hl⟩
  refine wp_mono (close_channel us l hcertain) (fun _ _ ht => ?_) fun _ _ ht => ?_
  · exact (wp_throw e).mpr ht.silent
  · exact (wp_update _).mpr ((wp_throw e).mpr ht)

/-- A Connect that fails half-way closes what it opened, unless it is already uncertain what that is. -/
theorem PassThruConnect (protocol flags baud : UInt32) : Prudent (PassThruConnect protocol flags baud) := by
  refine read_bind fun _ => ?_
  iterate 7 refine (throw_if _ _).bind fun _ => ?_
  refine (of_keeps fun _ => keeps_allocate_handle).bind fun _ =>
    (of_keeps fun _ => keeps_update (by simp)).bind fun _ => accepted_command.bind fun _ =>
      (of_keeps fun _ => keeps_update (by simp)).bind fun _ => throws ?_ throws_roll_back
  exact (of_keeps fun _ => keeps_perform _).bind fun _ => accepted_command.bind fun _ =>
    of_keeps fun _ => keeps_room.bind fun _ => (keeps_registry _).bind fun _ =>
      (keeps_update (by simp)).bind fun _ => keeps_output _

theorem PassThruReadMsgs (requested timeout : UInt32) : Prudent (PassThruReadMsgs requested timeout) :=
  of_keeps fun _ => keeps_PassThruReadMsgs _ _

/-- The writes of a batch stop at the first that leaves the channel uncertain. -/
theorem write_loop (r : ReceiverRef) (call : TransmitCall) (timeout : UInt32) (deadline : Int)
    (batch : List (PASSTHRU_MSG × Bytes)) (index : Nat) :
    Prudent (write_loop r call timeout deadline batch index) := by
  induction batch generalizing index with
  | nil => exact of_keeps fun _ => .pure _
  | cons item batch ih =>
      refine (of_keeps fun _ => keeps_clock).bind fun _ => (throw_if _ _).bind fun _ => bind ?_ fun _ =>
        (when (of_keeps fun _ => keeps_output _)).bind fun _ => ih _
      refine throws ?_ fun e => Throws.bind (fun _ => Keeps.read) fun _ =>
        Throws.bind (fun _ => Keeps.when (keeps_client _ _)) fun _ => .throw e
      exact channel_command.bind fun _ => (of _).bind fun _ => (throw_if _ _).bind fun _ => of _

theorem PassThruWriteMsgs (messages : List PASSTHRU_MSG) (requested timeout : UInt32) :
    Prudent (PassThruWriteMsgs messages requested timeout) := by
  refine (of_keeps fun _ => keeps_session).bind fun _ => read_bind fun l => (throw_if _ _).bind fun _ =>
    (throw_if _ _).bind fun _ => (of_keeps fun _ => keeps_clock).bind fun _ =>
      (when (of_keeps fun _ => .refuse)).bind fun _ => (of _).bind fun _ => ?_
  split
  · exact throw _
  · refine (of_keeps fun _ => keeps_update (by simp)).bind fun _ => bind (throws ?_ fun e => ?_) fun _ => ?_
    · exact (write_loop _ _ _ _ _ _).bind fun _ => when <| of_keeps fun _ =>
        (keeps_await_transmitted _ _ _).bind fun _ => .throw_if _ _
    · exact Throws.bind (fun _ => Keeps.when (keeps_report_confirmed _ _)) fun _ => .throw e
    · exact when (of_keeps fun _ => keeps_report_confirmed _ _)

/-- What the host cannot hold is removed, and the channel left uncertain if that fails. -/
theorem removes_throw {n : Lifecycle Unit} (h : Prudent n) (e : Exception) :
    Prudent (MonadExcept.tryCatch n (fun _ => uncertain_channel) >>= fun _ => MonadExcept.throw e : Lifecycle α) := by
  refine before_throw fun us l hl => wp_tryCatch.mpr (wp_mono (h us l hl) ?_ fun _ t ht => ?_)
  · exact fun _ _ => Locked.Certain.silent
  · exact keeps_uncertain_channel t ht

/-- A periodic message whose answer holds no handle leaves the channel uncertain, and the call throws. -/
theorem PassThruStartPeriodicMsg (message : PASSTHRU_MSG) (interval : UInt32) :
    Prudent (PassThruStartPeriodicMsg message interval) := by
  refine (of_keeps fun _ => keeps_session).bind fun _ => read_bind fun _ => (throw_if _ _).bind fun _ =>
    (of _).bind fun _ => (throw_if _ _).bind fun _ => (of_keeps fun _ => keeps_allocate_handle).bind fun _ =>
      (of_keeps fun _ => keeps_update (by simp)).bind fun _ => channel_command.bind fun _ =>
        bind (tryCatch (fun _ => .of _) fun _ => (of_keeps fun _ => keeps_update (by simp)).bind fun _ => throw _)
          fun _ => (when (uncertain_channel_throw _)).bind fun _ => (of _).bind fun _ =>
            bind (tryCatch (fun _ => ?_) fun _ => removes_throw ?_ _) fun _ =>
              of_keeps fun _ => (keeps_update (by simp)).bind fun _ => keeps_output _
  · exact keeps_room.bind fun _ => keeps_update (by simp)
  · exact (remove_entry _ _).bind fun _ => of_keeps fun _ => keeps_update (by simp)

theorem PassThruStopPeriodicMsg (id : UInt32) : Prudent (PassThruStopPeriodicMsg id) := by
  refine (of_keeps fun _ => keeps_session).bind fun _ => read_bind fun _ => ?_
  split
  · exact throw _
  · exact (remove_entry _ _).bind fun _ => of_keeps fun _ => keeps_update (by simp)

/-- So for a filter. -/
theorem PassThruStartMsgFilter (type : UInt32) (mask pattern : PASSTHRU_MSG) (flow : Option PASSTHRU_MSG) :
    Prudent (PassThruStartMsgFilter type mask pattern flow) := by
  refine (of_keeps fun _ => keeps_session).bind fun _ => read_bind fun _ => (of _).bind fun _ =>
    (of_keeps fun _ => keeps_allocate_handle).bind fun _ => channel_command.bind fun _ => (of _).bind fun _ =>
      (when (uncertain_channel_throw _)).bind fun _ => (of _).bind fun _ =>
        bind (tryCatch (fun _ => ?_) fun _ => removes_throw (remove_entry _ _) _) fun _ =>
          of_keeps fun _ => keeps_output _
  exact keeps_room.bind fun _ => keeps_update (by simp)

theorem PassThruStopMsgFilter (id : UInt32) : Prudent (PassThruStopMsgFilter id) := by
  refine (of_keeps fun _ => keeps_session).bind fun _ => read_bind fun _ => ?_
  split
  · exact throw _
  · exact (remove_entry _ _).bind fun _ => of_keeps fun _ => keeps_update (by simp)

theorem PassThruReadVersion : Prudent PassThruReadVersion :=
  (of_keeps fun _ => keeps_session).bind fun _ => (get_value _).bind fun _ => of_keeps fun _ => keeps_output _

theorem read_voltage (ioctl_id : UInt32) (pointer : Bool) : Prudent (read_voltage ioctl_id pointer) :=
  (of _).bind fun _ => (of_keeps fun _ => keeps_session).bind fun _ => (get_value _).bind fun _ =>
    (throw_if _ _).bind fun _ => of_keeps fun _ => keeps_output _

/-- The clears of the filter tables stop at the first that leaves the channel uncertain. -/
theorem clear_filters (tables : List UInt8) : Prudent (clear_filters tables) := by
  induction tables with
  | nil => exact of_keeps fun _ => .pure _
  | cons table tables ih =>
      refine read_bind fun _ => (when ?_).bind fun _ => ih
      exact accepted_command.bind fun _ => of_keeps fun _ => keeps_update (by simp)

theorem clear_buffer (selector : UInt8) (op : ReceiverOp) : Prudent (clear_buffer selector op) := by
  refine read_bind fun _ => accepted_command.bind fun _ => of_keeps fun _ => ?_
  split
  · exact .pure _
  · exact keeps_client _ _

theorem channel_ioctl (ioctl_id : UInt32) : Prudent (channel_ioctl ioctl_id) :=
  (of_keeps fun _ => keeps_session).bind fun _ => ite _ (clear_buffer _ _) (ite _ (clear_buffer _ _)
    (ite _ (clear_filters _) (ite _ (read_bind fun _ => when clear_periodic_table) (throw _))))

theorem config_item (ioctl_id : UInt32) (item : SCONFIG) : Prudent (config_item ioctl_id item) := by
  refine read_bind fun l => (of _).bind fun route => ?_
  cases route.location with
  | HostLoopback =>
      cases l.device.receiver with
      | none => exact throw _
      | some r => exact ite _ (of_keeps fun _ => keeps_output _) (of_keeps fun _ => keeps_client _ _)
  | Firmware =>
      refine ite _ (channel_command.bind fun _ => (of _).bind fun _ => ?_)
        ((of _).bind fun _ => accepted_command)
      exact of_keeps fun _ => keeps_output _

/-- So do the entries of a configuration. -/
theorem config_items (ioctl_id : UInt32) (items : List SCONFIG) : Prudent (config_items ioctl_id items) := by
  induction items with
  | nil => exact of_keeps fun _ => .pure _
  | cons item items ih => exact (config_item _ _).bind fun _ => ih

theorem config_ioctl (ioctl_id : UInt32) (input : Option SCONFIG_LIST) (pointer : Bool) :
    Prudent (config_ioctl ioctl_id input pointer) := by
  refine (of_keeps fun _ => keeps_session).bind fun _ => ?_
  split
  · exact of _
  · split
    · exact of _
    · exact (throw_if _ _).bind fun _ => (throw_if _ _).bind fun _ => (when (of_keeps fun _ => .refuse)).bind
        fun _ => read_bind fun _ => (when (of _)).bind fun _ => config_items _ _

end Prudent

/-- **Every call but a Disconnect and a Close stops at the flag.** -/
theorem ApiCall.prudent_program {c : ApiCall} (hdisconnect : ∀ id, c ≠ .PassThruDisconnect id)
    (hclose : ∀ id, c ≠ .PassThruClose id) : Prudent c.program := by
  cases c with
  | PassThruOpen id => exact Prudent.PassThruOpen
  | PassThruClose id => exact absurd rfl (hclose id)
  | PassThruConnect id protocol flags baud channel => exact Prudent.PassThruConnect _ _ _
  | PassThruDisconnect id => exact absurd rfl (hdisconnect id)
  | PassThruReadMsgs channel messages count timeout => exact Prudent.PassThruReadMsgs _ _
  | PassThruWriteMsgs channel messages count timeout => exact Prudent.PassThruWriteMsgs _ _ _
  | PassThruStartPeriodicMsg channel message id interval => exact Prudent.PassThruStartPeriodicMsg _ _
  | PassThruStopPeriodicMsg channel id => exact Prudent.PassThruStopPeriodicMsg _
  | PassThruStartMsgFilter channel type mask pattern flow id => exact Prudent.PassThruStartMsgFilter _ _ _ _
  | PassThruStopMsgFilter channel id => exact Prudent.PassThruStopMsgFilter _
  | PassThruSetProgrammingVoltage id => exact Prudent.throw _
  | PassThruReadVersion id firmware dll api => exact Prudent.PassThruReadVersion
  | PassThruIoctl id ioctl_id input output =>
      exact Prudent.ite _ (Prudent.config_ioctl _ _ _)
        (Prudent.ite _ (Prudent.channel_ioctl _) (Prudent.read_voltage _ _))

/-! ## what is sent to take down -/

/-- What was sent with the flag set is what it was, and then what takes down. -/
def TakesDown (us : List Exchange) (_ : Bool) (vs : List Exchange) : Prop :=
  ∃ es, vs = us ++ es ∧ ∀ e ∈ es, e.command.TearsDown

namespace TakesDown

variable {us : List Exchange}

/-- What is sent with the flag set is a teardown if what was sent before and what comes now are. -/
theorem append {b : Bool} {vs es : List Exchange} (h : TakesDown us b vs) (hes : ∀ e ∈ es, e.command.TearsDown) :
    TakesDown us true (vs ++ es) := by
  obtain ⟨fs, rfl, hfs⟩ := h
  refine ⟨fs ++ es, List.append_assoc .., fun e he => ?_⟩
  exact (List.mem_append.mp he).elim (hfs e) (hes e)

theorem keeps_clear_periodic_table : Keeps (Locked.Marked (TakesDown us)) clear_periodic_table := by
  refine Keeps.bind (Keeps.bind (Locked.Marked.keeps_channel_command (fun _ _ h => h) ?_) fun _ => .of _)
    fun _ => Locked.Marked.keeps_update (by simp)
  exact fun _ _ h hes => h.append fun e he => .inl (hes e he)

/-- A close sends teardowns alone. -/
theorem keeps_close_channel : Keeps (Locked.Marked (TakesDown us)) close_channel := by
  refine Keeps.bind (Keeps.bind (Locked.Marked.keeps_channel_command (fun _ _ h => h) ?_) fun _ => .of _)
    fun _ => Locked.Marked.keeps_update (by simp)
  exact fun _ _ h hes => h.append fun e he => .inr (.inl (hes e he).1)


/-- So does a Disconnect, whatever it runs into. -/
theorem keeps_PassThruDisconnect : Keeps (Locked.Marked (TakesDown us)) PassThruDisconnect := by
  rw [PassThruDisconnect_eq]
  exact Locked.Marked.keeps_retire_channel.bind fun _ => keeps_clear_if keeps_clear_periodic_table
    (keeps_end_channel keeps_close_channel (Locked.Marked.keeps_reopen fun _ _ h => h))

/-- And a Close. -/
theorem keeps_PassThruClose (id : UInt32) : Keeps (Locked.Marked (TakesDown us)) (PassThruClose id) := by
  have hboard : Keeps (Locked.Marked (TakesDown us)) (command { opcode := 5 }) :=
    Locked.Marked.keeps_command fun _ _ h hes => h.append fun e he => by rw [hes e he]; exact .inr (.inr rfl)
  have hclose : Keeps (Locked.Marked (TakesDown us)) close :=
    (Locked.Marked.keeps_perform _).bind fun _ => Locked.Marked.keeps_transport
  rw [PassThruClose_eq]
  exact (Locked.Marked.keeps_update (by simp)).bind fun _ => (Locked.Marked.keeps_registry _).bind fun _ =>
    Locked.Marked.keeps_retire_channel.bind fun _ => Keeps.read.bind fun _ => keeps_clear_if keeps_clear_periodic_table
      (keeps_end_wire keeps_close_channel hboard hclose)

end TakesDown

/-- **With the flag set a Disconnect and a Close send what takes down, and no more.** -/
theorem ApiCall.wp_takes_down {c : ApiCall} (hc : (∃ id, c = .PassThruDisconnect id) ∨ ∃ id, c = .PassThruClose id)
    (l : Locked) : wp c.program (fun _ => Locked.Marked (TakesDown l.device.uncertain))
      (fun _ => Locked.Marked (TakesDown l.device.uncertain)) l := by
  have hl : l.Marked (TakesDown l.device.uncertain) := ⟨[], by simp, by simp⟩
  obtain ⟨id, rfl⟩ | ⟨id, rfl⟩ := hc
  · exact TakesDown.keeps_PassThruDisconnect l hl
  · exact TakesDown.keeps_PassThruClose id l hl

end Mongoose
