import Mongoose.Api.Command
import Mongoose.Can.Outbound

/-!
# Mongoose.Api.Within

What calls leave alone.

`Locked.Within` is what a call leaves of a device: its protocol, a flag that is
not taken back, and a log that grows by exchanges of the kinds the call makes;
and, where the call does not touch them, the channel and the registry's maps, the
filters, and the periodic messages.  Every primitive keeps it, so every call made
of them does.
-/

namespace Mongoose

open Prog Lifecycle

/-! ## exchanges -/

namespace Exchange

/-- An entry for the adapter's periodic table. -/
def AddsPeriodic (e : Exchange) : Prop :=
  e.command.opcode = 0x0d ∧ e.command.payload.head? = some table_periodic

instance (e : Exchange) : Decidable e.AddsPeriodic := inferInstanceAs (Decidable (_ ∧ _))

/-- A command of a channel that was left without an answer. -/
def Lost (e : Exchange) : Prop := e.command.destination ≠ board_node ∧ e.response = none

/-- Neither an open nor a close; a table clear goes to the node of the device's
open wire channel. -/
def Ordinary (d : Device) (e : Exchange) : Prop :=
  e.command.opcode ≠ 6 ∧ e.command.opcode ≠ 7 ∧
    (e.command.opcode = 0x10 →
      d.wire_channel_open = true ∧ e.command.destination = channel_node d.protocol.toNat)

end Exchange

/-! ## what a call leaves alone -/

/-- What a call leaves of its device.  Where `C`, `F` and `P` hold it leaves the
channel, the filters and the periodic messages alone. -/
structure Device.Within (C F P : Prop) (ok : Exchange → Prop) (d d' : Device) : Prop where
  protocol : d'.protocol = d.protocol
  reopen_required : d.reopen_required → d'.reopen_required
  usable : ¬ d.usable → ¬ d'.usable
  closed : C → d'.closed = d.closed
  wire_channel_open : C → d'.wire_channel_open = d.wire_channel_open
  channel : C → d'.channel = d.channel
  filters : F → d'.filters = d.filters
  periodics : P → d'.periodics = d.periodics ∧ d'.periodic_untracked = d.periodic_untracked
  log : ∃ es, d'.log = d.log ++ es ∧ ∀ e ∈ es, ok e
  lost : ∀ es, d'.log = d.log ++ es → ∀ e ∈ es, e.Lost → d'.reopen_required

/-- IDs are only added, and the registry keeps its maps where `C` holds. -/
structure Locked.Within (C F P : Prop) (ok : Exchange → Prop) (l t : Locked) : Prop where
  ref : t.ref = l.ref
  device : l.device.Within C F P ok t.device
  next_handle : l.registry.next_handle ≤ t.registry.next_handle
  devices : C → t.registry.devices = l.registry.devices
  channels : C → t.registry.channels = l.registry.channels

namespace Device.Within

variable {C F P C' F' P' : Prop} {ok ok' : Exchange → Prop} {d d' d'' : Device}

/-- Nothing happened to the device, -/
theorem refl (d : Device) : d.Within C F P ok d :=
  ⟨rfl, id, id, fun _ => rfl, fun _ => rfl, fun _ => rfl, fun _ => rfl, fun _ => ⟨rfl, rfl⟩,
    ⟨[], by simp, by simp⟩, by simp⟩

theorem trans (h : d.Within C F P ok d') (h' : d'.Within C F P ok d'') : d.Within C F P ok d'' where
  protocol := h'.protocol.trans h.protocol
  reopen_required := fun hr => h'.reopen_required (h.reopen_required hr)
  usable := fun hu => h'.usable (h.usable hu)
  closed := fun hc => (h'.closed hc).trans (h.closed hc)
  wire_channel_open := fun hc => (h'.wire_channel_open hc).trans (h.wire_channel_open hc)
  channel := fun hc => (h'.channel hc).trans (h.channel hc)
  filters := fun hf => (h'.filters hf).trans (h.filters hf)
  periodics := fun hp =>
    ⟨(h'.periodics hp).1.trans (h.periodics hp).1, (h'.periodics hp).2.trans (h.periodics hp).2⟩
  log := by
    obtain ⟨es, hlog, hes⟩ := h.log
    obtain ⟨es', hlog', hes'⟩ := h'.log
    refine ⟨es ++ es', by rw [hlog', hlog, List.append_assoc], fun e he => ?_⟩
    exact (List.mem_append.mp he).elim (hes e) (hes' e)
  lost := fun es hes e he hlost => by
    obtain ⟨es₁, hlog, -⟩ := h.log
    obtain ⟨es₂, hlog', -⟩ := h'.log
    have hsplit : es = es₁ ++ es₂ := by
      rw [hlog', hlog, List.append_assoc] at hes
      exact (List.append_cancel_left hes).symm
    rw [hsplit] at he
    obtain he | he := List.mem_append.mp he
    · exact h'.reopen_required (h.lost es₁ hlog e he hlost)
    · exact h'.lost es₂ hlog' e he hlost

/-- What stayed within narrow limits stayed within wider ones. -/
theorem mono (h : d.Within C F P ok d') (hC : C' → C) (hF : F' → F) (hP : P' → P)
    (hok : ∀ e, ok e → ok' e) : d.Within C' F' P' ok' d' :=
  { h with
    closed := fun hc => h.closed (hC hc)
    wire_channel_open := fun hc => h.wire_channel_open (hC hc)
    channel := fun hc => h.channel (hC hc)
    filters := fun hf => h.filters (hF hf)
    periodics := fun hp => h.periodics (hP hp)
    log := h.log.imp fun _ hes => ⟨hes.1, fun e he => hok e (hes.2 e he)⟩ }

/-- A command adds its exchanges. -/
theorem of_moved {es : List Exchange} (h : d.Moved d' es) (hes : ∀ e ∈ es, ok e)
    (hlost : ∀ e ∈ es, e.Lost → d'.reopen_required) : d.Within C F P ok d' where
  protocol := by rw [h.eq]
  reopen_required := h.reopen
  usable := h.usable
  closed := fun _ => by rw [h.eq]
  wire_channel_open := fun _ => by rw [h.eq]
  channel := fun _ => by rw [h.eq]
  filters := fun _ => by rw [h.eq]
  periodics := fun _ => by rw [h.eq]; exact ⟨rfl, rfl⟩
  log := ⟨es, by rw [h.eq], hes⟩
  lost := fun es' hlog => by
    rw [h.eq] at hlog
    rwa [← List.append_cancel_left hlog]

/-- A change of the filters. -/
theorem of_filters (d : Device) (m : IdMap Filter) : d.Within C False P ok { d with filters := m } :=
  ⟨rfl, id, id, fun _ => rfl, fun _ => rfl, fun _ => rfl, False.elim, fun _ => ⟨rfl, rfl⟩,
    ⟨[], by simp, by simp⟩, by simp⟩

/-- A change of the periodic messages, or of what is known of them. -/
theorem of_periodics (d : Device) (m : IdMap Nat) (u : Bool) :
    d.Within C F False ok { d with periodics := m, periodic_untracked := u } :=
  ⟨rfl, id, id, fun _ => rfl, fun _ => rfl, fun _ => rfl, fun _ => rfl, False.elim,
    ⟨[], by simp, by simp⟩, by simp⟩

end Device.Within

namespace Locked.Within

variable {C F P C' F' P' : Prop} {ok ok' : Exchange → Prop} {l t u : Locked}

/-- nor to what is locked. -/
theorem refl (l : Locked) : l.Within C F P ok l :=
  ⟨rfl, .refl _, Nat.le_refl _, fun _ => rfl, fun _ => rfl⟩

/-- So for what is locked. -/
theorem mono (h : l.Within C F P ok t) (hC : C' → C) (hF : F' → F) (hP : P' → P)
    (hok : ∀ e, ok e → ok' e) : l.Within C' F' P' ok' t :=
  { h with
    device := h.device.mono hC hF hP hok
    devices := fun hc => h.devices (hC hc)
    channels := fun hc => h.channels (hC hc) }

/-- The device moves on, and the registry stays. -/
theorem step (h : l.Within C F P ok t) (href : u.ref = t.ref) (hregistry : u.registry = t.registry)
    (hd : t.device.Within C F P ok u.device) : l.Within C F P ok u :=
  ⟨href.trans h.ref, h.device.trans hd, hregistry ▸ h.next_handle, hregistry ▸ h.devices,
    hregistry ▸ h.channels⟩

/-- One more command stays within the limits that admit its exchange. -/
theorem commanded {es : List Exchange} (h : l.Within C F P ok t) (hc : t.Commanded u es)
    (hes : ∀ e ∈ es, ok e) (hlost : ∀ e ∈ es, e.Lost → u.device.reopen_required) :
    l.Within C F P ok u :=
  h.step hc.kept.ref hc.kept.registry (.of_moved hc.moved hes hlost)

end Locked.Within

/-! ## the primitives -/

section primitives

variable {C F P : Prop} {ok : Exchange → Prop} {l₀ : Locked}

/-- A change of the device within its limits keeps the limits of the call. -/
theorem keeps_update {f : Device → Device} (h : ∀ d : Device, d.Within C F P ok (f d)) :
    Keeps (l₀.Within C F P ok) (update f) :=
  fun _ hl => (wp_update f).mpr (hl.step rfl rfl (h _))

theorem keeps_output (f : Out → Out) : Keeps (l₀.Within C F P ok) (output f) :=
  fun _ hl => (wp_output f).mpr (hl.step rfl rfl (.refl _))

/-- Steps of the session send nothing for the channel. -/
theorem keeps_perform (ls : List Label) : Keeps (l₀.Within C F P ok) (perform ls) :=
  fun _ hl => wp_perform fun _ hs =>
    hl.step rfl rfl (.of_moved (.of_run hs) (by simp) (by simp))

theorem keeps_turn : Keeps (l₀.Within C F P ok) turn :=
  fun _ hl => wp_turn fun _ _ _ => hl.step rfl rfl (.refl _)

theorem keeps_clock : Keeps (l₀.Within C F P ok) clock :=
  keeps_turn.bind fun t => by cases t <;> first | exact .pure _ | exact .refuse

theorem keeps_waits : Keeps (l₀.Within C F P ok) waits :=
  keeps_turn.bind fun t => by cases t <;> first | exact .pure _ | exact .refuse

theorem keeps_room : Keeps (l₀.Within C F P ok) room :=
  keeps_turn.bind fun t => by cases t <;> first | exact Keeps.rethrow _ | exact .refuse

theorem keeps_transport : Keeps (l₀.Within C F P ok) transport :=
  keeps_turn.bind fun t => by cases t <;> first | exact Keeps.rethrow _ | exact .refuse

theorem keeps_session : Keeps (l₀.Within C F P ok) session :=
  Keeps.read_bind fun l hl => Keeps.throw_if _ _ l hl

theorem keeps_allocate_handle : Keeps (l₀.Within C F P ok) allocate_handle :=
  Keeps.read_bind fun l hl => by
    simp only [wp_bind, wp_throw_if, wp_alter, wp_pure]
    exact ⟨fun _ => hl, fun _ =>
      ⟨hl.ref, hl.device, Nat.le_succ_of_le hl.next_handle, hl.devices, hl.channels⟩⟩

/-- A channel that becomes uncertain is only marked. -/
theorem keeps_uncertain_channel : Keeps (l₀.Within C F P ok) uncertain_channel :=
  fun _ hl => wp_uncertain_channel fun _ hkept _ hmoved _ =>
    hl.step hkept.ref hkept.registry (.of_moved hmoved (by simp) (by simp))

/-- A command to the board. -/
theorem keeps_command {cmd : Command} (h : ∀ q response, ok ⟨cmd, q, response⟩)
    (hboard : cmd.destination = board_node := by rfl) : Keeps (l₀.Within C F P ok) (command cmd) := by
  intro l hl
  have hlost (q : Nat) (response : Option Bytes) : ¬ (⟨cmd, q, response⟩ : Exchange).Lost :=
    fun h => h.1 hboard
  refine wp_command (fun _ q _ hc _ _ => hl.commanded hc (by simpa using h q _) ?_)
    (fun _ _ hc _ => hl.commanded hc (by simp) (by simp))
    fun _ _ q hc _ _ => hl.commanded hc (by simpa using h q _) ?_
  · simp [hlost]
  · simp [hlost]

/-- The command of a channel is that of the channel the call began on. -/
theorem keeps_channel_command {opcode : Nat} {payload : Bytes} {timeout : Int} {chan : Nat}
    {known : Option Recording}
    (h : ∀ q response, ok ⟨l₀.device.channelCommand opcode payload timeout chan known, q, response⟩) :
    Keeps (l₀.Within C F P ok) (channel_command opcode payload timeout chan known) := by
  intro l hl
  have hcmd : l.device.channelCommand opcode payload timeout chan known =
      l₀.device.channelCommand opcode payload timeout chan known := by
    rw [Device.channelCommand, Device.channelCommand, hl.device.protocol]
  refine wp_channel_command (fun _ q _ hc _ _ => hl.commanded hc ?_ (by simp [Exchange.Lost]))
    (fun _ _ hc => hl.commanded hc (by simp) (by simp))
    fun _ _ q hc _ hreopen => hl.commanded hc ?_ fun _ _ _ => hreopen
  · rw [hcmd]; simpa using h q _
  · rw [hcmd]; simpa using h q _

/-- A command of the channel is within limits that admit its exchange, however it ends. -/
theorem keeps_accepted_command {opcode : Nat} {payload : Bytes}
    (h : ∀ q response, ok ⟨l₀.device.channelCommand opcode payload 10000 0 none, q, response⟩) :
    Keeps (l₀.Within C F P ok) (accepted_command opcode payload) :=
  (keeps_channel_command h).bind fun _ => .of _

end primitives

/-! ## payloads -/

/-- A filter goes to the table of its protocol and type. -/
theorem filter_payload_head? {d : Device} {type : UInt32} {mask pattern : PASSTHRU_MSG}
    {flow : Option PASSTHRU_MSG} {payload : Bytes}
    (h : filter_payload d type mask pattern flow = .ok payload) :
    payload.head? = some (filter_table d type) := by
  unfold filter_payload at h
  rw [filter_table]
  split at h
  · next hiso =>
      rw [if_pos hiso]
      split at h
      · cases h
      · split at h
        · cases h
        · split at h
          · cases h
          · obtain ⟨-, -, rfl⟩ := isotp_flow_control_filter_ok h
            rfl
  · next hcan =>
      rw [if_neg hcan]
      split at h
      · cases h
      · next htype =>
          split at h
          · cases h
          · split at h
            · next hpass =>
                rw [if_neg (by rw [hpass]; decide)]
                obtain ⟨-, -, -, -, -, rfl⟩ := can_table_filter_ok h
                rfl
            · next hpass =>
                rw [if_pos (by tauto)]
                obtain ⟨-, -, -, -, -, rfl⟩ := can_table_filter_ok h
                rfl

/-- No filter goes to the table of periodic messages. -/
theorem filter_table_ne (d : Device) (type : UInt32) : filter_table d type ≠ table_periodic := by
  rw [filter_table]
  split
  · decide
  · split <;> decide

/-! ## the calls -/

section calls

variable {C F P : Prop} {ok : Exchange → Prop} {l₀ : Locked}

/-- A command that neither opens, closes nor clears is ordinary. -/
theorem ordinary_of_opcode {d : Device} {e : Exchange} (opcode : Nat)
    (he : e.command.opcode = opcode) (h : opcode ∉ [6, 7, 0x10]) : e.Ordinary d := by
  simp only [List.mem_cons, List.not_mem_nil, or_false, not_or, ← he] at h
  exact ⟨h.1, h.2.1, fun h' => absurd h' h.2.2⟩

theorem keeps_client (r : ReceiverRef) (op : ReceiverOp) :
    Keeps (l₀.Within C F P ok) (client r op) := keeps_perform _

/-- So is a read from the board. -/
theorem keeps_get_value {selector : UInt8}
    (h : ∀ q response,
      ok ⟨{ opcode := 0xc, payload := [selector, 0, 0, 0] }, q, response⟩) :
    Keeps (l₀.Within C F P ok) (get_value selector) :=
  (keeps_command h).bind fun _ => .of _

theorem keeps_read_pass (r : ReceiverRef) (requested : Nat) (timeout : UInt32) :
    Keeps (l₀.Within C F P ok) (read_pass r requested timeout) :=
  Keeps.read_bind fun l hl =>
    ((Keeps.throw_if _ _).bind fun _ => (keeps_client _ _).bind fun _ =>
      (keeps_output _).bind fun _ => .pure _) l hl

theorem keeps_read_loop (r : ReceiverRef) (requested : Nat) (timeout : UInt32)
    (events : List (List Event)) :
    Keeps (l₀.Within C F P ok) (read_loop r requested timeout events) := by
  induction events with
  | nil => exact (keeps_read_pass _ _ _).bind fun _ => .pure _
  | cons e events ih =>
      refine (keeps_read_pass _ _ _).bind fun _ => Keeps.when ((keeps_perform _).bind fun _ => ?_)
      exact Keeps.read_bind fun l hl => Keeps.when ih l hl

/-- A read takes messages and sends nothing. -/
theorem keeps_read_messages (r : ReceiverRef) (requested : Nat) (timeout : UInt32) :
    Keeps (l₀.Within C F P ok) (read_messages r requested timeout) :=
  keeps_waits.bind fun _ => (keeps_read_loop _ _ _ _).bind fun _ => Keeps.read_bind fun l hl =>
    ((keeps_client _ _).bind fun _ => (Keeps.rethrow _).bind fun _ =>
      (Keeps.throw_if _ _).bind fun _ => .throw_if _ _) l hl

theorem keeps_PassThruReadMsgs (requested timeout : UInt32) :
    Keeps (l₀.Within C F P ok) (PassThruReadMsgs requested timeout) := by
  refine (Keeps.throw_if _ _).bind fun _ => keeps_session.bind fun _ => Keeps.read_bind fun l hl => ?_
  split
  · exact wp_refuse
  · exact keeps_read_messages _ _ _ l hl

section write

variable (h : ∀ payload budget known q response,
  ok ⟨l₀.device.channelCommand 8 payload budget 1 (some known), q, response⟩)
include h

/-- The writes of a batch are within limits that admit their commands. -/
theorem keeps_write_loop (r : ReceiverRef) (call : TransmitCall) (timeout : UInt32) (deadline : Int)
    (batch : List (PASSTHRU_MSG × Bytes)) (index : Nat) :
    Keeps (l₀.Within C F P ok) (write_loop r call timeout deadline batch index) := by
  induction batch generalizing index with
  | nil => exact .pure _
  | cons item batch ih =>
      refine keeps_clock.bind fun _ => (Keeps.throw_if _ _).bind fun _ => Keeps.bind ?_ fun _ =>
        (Keeps.when (keeps_output _)).bind fun _ => ih _
      refine Keeps.tryCatch ?_ fun _ => Keeps.read_bind fun l hl =>
        ((Keeps.when (keeps_client _ _)).bind fun _ => .throw _) l hl
      exact (keeps_channel_command (h _ _ _)).bind fun _ => (Keeps.of _).bind fun _ =>
        (Keeps.throw_if _ _).bind fun _ => .of _

omit h in
theorem keeps_report_confirmed (r : ReceiverRef) (call : TransmitCall) :
    Keeps (l₀.Within C F P ok) (report_confirmed r call) :=
  Keeps.read_bind fun l hl => keeps_output _ l hl

omit h in
/-- A wait for confirmations sends nothing. -/
theorem keeps_await_transmitted (r : ReceiverRef) (call : TransmitCall) (target : Nat) :
    Keeps (l₀.Within C F P ok) (await_transmitted r call target) :=
  keeps_waits.bind fun _ => (keeps_perform _).bind fun _ => Keeps.read_bind fun l hl =>
    ((Keeps.throw_if _ _).bind fun _ => .pure _) l hl

theorem keeps_PassThruWriteMsgs (messages : List PASSTHRU_MSG) (requested timeout : UInt32) :
    Keeps (l₀.Within C F P ok) (PassThruWriteMsgs messages requested timeout) := by
  refine keeps_session.bind fun _ => Keeps.read_bind fun l hl => ?_
  refine Keeps.bind (.throw_if _ _) (fun _ => Keeps.bind (.throw_if _ _) fun _ =>
    keeps_clock.bind fun _ => (Keeps.when .refuse).bind fun _ => (Keeps.of _).bind fun _ => ?_) l hl
  split
  · exact .throw _
  · have hwrites : Keeps (l₀.Within C F P ok) (update fun d => { d with writes := d.writes + 1 }) :=
      keeps_update fun d => ⟨rfl, id, id, fun _ => rfl, fun _ => rfl, fun _ => rfl, fun _ => rfl,
        fun _ => ⟨rfl, rfl⟩, ⟨[], by simp, by simp⟩, by simp⟩
    refine hwrites.bind fun _ => Keeps.bind (Keeps.tryCatch ?_ fun _ => ?_) fun _ => ?_
    · refine (keeps_write_loop h _ _ _ _ _ _).bind fun _ => Keeps.when ?_
      exact (keeps_await_transmitted _ _ _).bind fun _ => .throw_if _ _
    · exact (Keeps.when (keeps_report_confirmed _ _)).bind fun _ => .throw _
    · exact Keeps.when (keeps_report_confirmed _ _)

end write

/-- A removal is within limits that admit its exchange. -/
theorem keeps_remove_entry {table : UInt8} {handle : Nat}
    (h : ∀ payload q response, remove_payload table handle = .ok payload →
      ok ⟨l₀.device.channelCommand 0x0e payload 10000 0 none, q, response⟩) :
    Keeps (l₀.Within C F P ok) (remove_entry table handle) := by
  intro l hl
  rw [remove_entry, wp_bind, wp_of]
  exact ⟨fun payload hp => keeps_accepted_command (fun q r => h payload q r hp) l hl, fun _ _ => hl⟩

/-- A new filter is added to its table, and perhaps removed from it again. -/
theorem keeps_PassThruStartMsgFilter {type : UInt32} {mask pattern : PASSTHRU_MSG}
    {flow : Option PASSTHRU_MSG}
    (hadd : ∀ payload q response, payload.head? ≠ some table_periodic →
      ok ⟨l₀.device.channelCommand 0x0d payload 10000 0 none, q, response⟩)
    (hremove : ∀ table handle payload q response, remove_payload table handle = .ok payload →
      ok ⟨l₀.device.channelCommand 0x0e payload 10000 0 none, q, response⟩) :
    Keeps (l₀.Within C False P ok) (PassThruStartMsgFilter type mask pattern flow) := by
  refine keeps_session.bind fun _ => Keeps.read_bind fun l hl => ?_
  rw [wp_bind, wp_of]
  refine ⟨fun payload hpayload => ?_, fun _ _ => hl⟩
  have hhead : payload.head? ≠ some table_periodic := by
    rw [filter_payload_head? hpayload]
    exact fun h => filter_table_ne _ _ (Option.some.inj h)
  refine Keeps.bind keeps_allocate_handle (fun _ =>
    (keeps_channel_command fun q r => hadd payload q r hhead).bind fun _ =>
      (Keeps.of _).bind fun _ => ?_) l hl
  refine (Keeps.when (keeps_uncertain_channel.bind fun _ => .throw _)).bind fun _ =>
    (Keeps.of _).bind fun _ => Keeps.bind (Keeps.tryCatch ?_ fun _ => ?_) fun _ => keeps_output _
  · exact keeps_room.bind fun _ => keeps_update fun d => .of_filters d _
  · exact (Keeps.tryCatch (keeps_remove_entry (hremove _ _)) fun _ => keeps_uncertain_channel).bind
      fun _ => .throw _

theorem keeps_PassThruStopMsgFilter {id : UInt32}
    (hremove : ∀ table handle payload q response, remove_payload table handle = .ok payload →
      ok ⟨l₀.device.channelCommand 0x0e payload 10000 0 none, q, response⟩) :
    Keeps (l₀.Within C False P ok) (PassThruStopMsgFilter id) := by
  refine keeps_session.bind fun _ => Keeps.read_bind fun l hl => ?_
  split
  · exact (wp_throw _).mpr hl
  · exact Keeps.bind (keeps_remove_entry (hremove _ _))
      (fun _ => keeps_update fun d => .of_filters d _) l hl

theorem keeps_PassThruReadVersion
    (h : ∀ q response, ok ⟨{ opcode := 0xc, payload := [0x2b, 0, 0, 0] }, q, response⟩) :
    Keeps (l₀.Within C F P ok) PassThruReadVersion :=
  keeps_session.bind fun _ => (keeps_get_value h).bind fun _ => keeps_output _

theorem keeps_read_voltage {ioctl_id : UInt32} {pointer : Bool}
    (h : ∀ selector q response,
      ok ⟨{ opcode := 0xc, payload := [selector, 0, 0, 0] }, q, response⟩) :
    Keeps (l₀.Within C F P ok) (read_voltage ioctl_id pointer) :=
  (Keeps.of _).bind fun _ => keeps_session.bind fun _ => (keeps_get_value (h _)).bind fun _ =>
    (Keeps.throw_if _ _).bind fun _ => keeps_output _

/-- The clears of filter tables are within limits that admit theirs and let filters go. -/
theorem keeps_clear_filters {tables : List UInt8}
    (h : ∀ table ∈ tables, ∀ q response,
      ok ⟨l₀.device.channelCommand 0x10 [table, 0, 0, 0] 10000 0 none, q, response⟩) :
    Keeps (l₀.Within C False P ok) (clear_filters tables) := by
  induction tables with
  | nil => exact .pure _
  | cons table tables ih =>
      have ih := ih fun table' htable => h table' (List.mem_cons_of_mem _ htable)
      refine Keeps.read_bind fun l hl => Keeps.bind (Keeps.when ?_) (fun _ => ih) l hl
      exact (keeps_accepted_command (h table List.mem_cons_self)).bind fun _ =>
        keeps_update fun d => .of_filters d _

/-- The clear of a buffer is within limits that admit its exchange. -/
theorem keeps_clear_buffer {selector : UInt8} {op : ReceiverOp}
    (h : ∀ q response,
      ok ⟨l₀.device.channelCommand 0x11 [selector, 0, 0, 0] 10000 0 none, q, response⟩) :
    Keeps (l₀.Within C F P ok) (clear_buffer selector op) := by
  refine Keeps.read_bind fun l hl => Keeps.bind (keeps_accepted_command h) (fun _ => ?_) l hl
  split
  · exact .pure _
  · exact keeps_client _ _

/-- A clear of the periodic table is within limits that admit its exchange and let the messages go. -/
theorem keeps_clear_periodic_table
    (h : ∀ q response,
      ok ⟨l₀.device.channelCommand 0x10 [table_periodic, 0, 0, 0] 10000 0 none, q, response⟩) :
    Keeps (l₀.Within C F False ok) clear_periodic_table :=
  (keeps_accepted_command h).bind fun _ => keeps_update fun d => .of_periodics d _ _

/-- The IOCTLs of a channel: one clears the filters, one the periodic messages. -/
theorem keeps_channel_ioctl {ioctl_id : UInt32} (hF : F → ioctl_id ≠ CLEAR_MSG_FILTERS)
    (hP : P → ioctl_id ≠ CLEAR_PERIODIC_MSGS)
    (hclear : ∀ table q response,
      ok ⟨l₀.device.channelCommand 0x10 [table, 0, 0, 0] 10000 0 none, q, response⟩)
    (hbuffer : ∀ selector q response,
      ok ⟨l₀.device.channelCommand 0x11 [selector, 0, 0, 0] 10000 0 none, q, response⟩) :
    Keeps (l₀.Within C F P ok) (channel_ioctl ioctl_id) := by
  refine keeps_session.bind fun _ => Keeps.ite _ (keeps_clear_buffer (hbuffer _)) (Keeps.ite _
    (keeps_clear_buffer (hbuffer _)) ?_)
  split
  · next hid =>
      obtain rfl : F = False := eq_false fun h => hF h hid
      exact keeps_clear_filters fun table _ => hclear table
  · split
    · next hid =>
        obtain rfl : P = False := eq_false fun h => hP h hid
        exact Keeps.read_bind fun l hl => Keeps.when (keeps_clear_periodic_table (hclear _)) l hl
    · exact .throw _

/-- An entry is within limits that admit its get, or its set if the value is valid. -/
theorem keeps_config_item {ioctl_id : UInt32} {item : SCONFIG}
    (hget : ∀ selector q response,
      ok ⟨l₀.device.channelCommand 0xc [selector, 0, 0, 0] 10000 0 none, q, response⟩)
    (hset : ioctl_id ≠ GET_CONFIG → ∀ route payload q response,
      config_route l₀.device.protocol item.Parameter = .ok route → route.location = .Firmware →
      set_payload route.selector item.Value = .ok payload →
      ok ⟨l₀.device.channelCommand 0xb payload 10000 0 none, q, response⟩) :
    Keeps (l₀.Within C F P ok) (config_item ioctl_id item) := by
  refine Keeps.read_bind fun l hl => ?_
  rw [wp_bind, wp_of]
  refine ⟨fun route hroute => ?_, fun _ _ => hl⟩
  rw [hl.device.protocol] at hroute
  split
  · split
    · exact (wp_throw _).mpr hl
    · exact Keeps.ite _ (keeps_output _) (keeps_client _ _) l hl
  · next hlocation =>
      refine (wp_ite _ _ _).mpr ⟨fun _ => ?_, fun hid => ?_⟩
      · exact ((keeps_channel_command (hget _)).bind fun _ => (Keeps.of _).bind fun _ =>
          keeps_output _) l hl
      · rw [wp_bind, wp_of]
        refine ⟨fun payload hpayload => ?_, fun _ _ => hl⟩
        exact keeps_accepted_command
          (fun q r => hset hid route payload q r hroute hlocation hpayload) l hl

/-- So are the entries of a list. -/
theorem keeps_config_items {ioctl_id : UInt32} {items : List SCONFIG}
    (hget : ∀ selector q response,
      ok ⟨l₀.device.channelCommand 0xc [selector, 0, 0, 0] 10000 0 none, q, response⟩)
    (hset : ioctl_id ≠ GET_CONFIG → ∀ item ∈ items, ∀ route payload q response,
      config_route l₀.device.protocol item.Parameter = .ok route → route.location = .Firmware →
      set_payload route.selector item.Value = .ok payload →
      ok ⟨l₀.device.channelCommand 0xb payload 10000 0 none, q, response⟩) :
    Keeps (l₀.Within C F P ok) (config_items ioctl_id items) := by
  induction items with
  | nil => exact .pure _
  | cons item items ih =>
      refine (keeps_config_item hget fun hid => hset hid item List.mem_cons_self).bind fun _ => ?_
      exact ih fun hid item' hitem => hset hid item' (List.mem_cons_of_mem _ hitem)

/-- A check of every element was passed by each. -/
theorem forM_ok {α : Type} {f : α → Except Exception Unit} {xs : List α}
    (h : xs.forM f = .ok ()) : ∀ x ∈ xs, f x = .ok () := by
  induction xs with
  | nil => simp
  | cons x xs ih =>
      obtain ⟨u, hu, h⟩ := bind_ok (show (f x >>= fun _ => xs.forM f) = .ok () from h)
      intro y hy
      obtain rfl | hy := List.mem_cons.mp hy
      · exact hu
      · exact ih h y hy

/-- A set writes an entry only once every entry of its list was found valid. -/
theorem keeps_config_ioctl {ioctl_id : UInt32} {input : Option SCONFIG_LIST} {pointer : Bool}
    (hid : ioctl_id = GET_CONFIG ∨ ioctl_id = SET_CONFIG)
    (hget : ∀ selector q response,
      ok ⟨l₀.device.channelCommand 0xc [selector, 0, 0, 0] 10000 0 none, q, response⟩)
    (hset : ∀ list items, input = some list → list.ConfigPtr = some items →
      ioctl_id = SET_CONFIG →
      (∀ item ∈ items.take list.NumOfParams.toNat,
        config_validate_set l₀.device.protocol item.Parameter item.Value = .ok ()) →
      ∀ item ∈ items.take list.NumOfParams.toNat, ∀ route payload q response,
        config_route l₀.device.protocol item.Parameter = .ok route → route.location = .Firmware →
        set_payload route.selector item.Value = .ok payload →
        ok ⟨l₀.device.channelCommand 0xb payload 10000 0 none, q, response⟩) :
    Keeps (l₀.Within C F P ok) (config_ioctl ioctl_id input pointer) := by
  refine keeps_session.bind fun _ => ?_
  split
  · exact .of _
  · next list =>
      split
      · exact .of _
      · next items hitems =>
          refine (Keeps.throw_if _ _).bind fun _ => (Keeps.throw_if _ _).bind fun _ =>
            (Keeps.when .refuse).bind fun _ => Keeps.read_bind fun l hl => ?_
          simp only [wp_bind, wp_when, wp_of]
          rw [hl.device.protocol]
          refine ⟨fun hset' => ⟨fun _ hvalid => ?_, fun _ _ => hl⟩, fun hne => ?_⟩
          · refine keeps_config_items hget (fun _ => ?_) l hl
            exact hset list items rfl hitems hset' (forM_ok hvalid)
          · refine keeps_config_items hget (fun hne' => ?_) l hl
            exact absurd (hid.resolve_right hne) hne'

/-- A new periodic message is added, and perhaps removed again. -/
theorem keeps_PassThruStartPeriodicMsg {message : PASSTHRU_MSG} {interval : UInt32}
    (hadd : ∀ payload q response,
      ok ⟨l₀.device.channelCommand 0x0d payload 10000 0 none, q, response⟩)
    (hremove : ∀ table handle payload q response, remove_payload table handle = .ok payload →
      ok ⟨l₀.device.channelCommand 0x0e payload 10000 0 none, q, response⟩) :
    Keeps (l₀.Within C F False ok) (PassThruStartPeriodicMsg message interval) := by
  refine keeps_session.bind fun _ => Keeps.read_bind fun l hl => Keeps.bind (.throw_if _ _)
    (fun _ => (Keeps.of _).bind fun _ => (Keeps.throw_if _ _).bind fun _ =>
      keeps_allocate_handle.bind fun _ => (keeps_update fun d => .of_periodics d _ _).bind fun _ =>
        (keeps_channel_command (hadd _)).bind fun _ => ?_) l hl
  refine Keeps.bind (Keeps.tryCatch (.of _) fun _ => (keeps_update fun d => .of_periodics d _ _).bind
    fun _ => .throw _) fun _ => (Keeps.when (keeps_uncertain_channel.bind fun _ => .throw _)).bind
      fun _ => (Keeps.of _).bind fun _ => Keeps.bind (Keeps.tryCatch ?_ fun _ => ?_) fun _ =>
        (keeps_update fun d => .of_periodics d _ _).bind fun _ => keeps_output _
  · exact keeps_room.bind fun _ => keeps_update fun d => .of_periodics d _ _
  · refine Keeps.bind (Keeps.tryCatch ?_ fun _ => keeps_uncertain_channel) fun _ => .throw _
    exact (keeps_remove_entry (hremove _ _)).bind fun _ => keeps_update fun d => .of_periodics d _ _

theorem keeps_PassThruStopPeriodicMsg {id : UInt32}
    (hremove : ∀ table handle payload q response, remove_payload table handle = .ok payload →
      ok ⟨l₀.device.channelCommand 0x0e payload 10000 0 none, q, response⟩) :
    Keeps (l₀.Within C F False ok) (PassThruStopPeriodicMsg id) := by
  refine keeps_session.bind fun _ => Keeps.read_bind fun l hl => ?_
  split
  · exact (wp_throw _).mpr hl
  · exact Keeps.bind (keeps_remove_entry (hremove _ _))
      (fun _ => keeps_update fun d => .of_periodics d _ _) l hl

/-! ## the calls that open and close -/

/-- A change of the registry's channels. -/
theorem keeps_channels (f : Locked → IdMap Nat) : Keeps (l₀.Within False F P ok)
    (alter fun l => { l with registry := { l.registry with channels := f l } } : Lifecycle Unit) :=
  .alter fun _ hl => ⟨hl.ref, hl.device, hl.next_handle, False.elim, False.elim⟩

/-- A change of its devices. -/
theorem keeps_devices (f : Locked → IdMap Nat) : Keeps (l₀.Within False F P ok)
    (alter fun l => { l with registry := { l.registry with devices := f l } } : Lifecycle Unit) :=
  .alter fun _ hl => ⟨hl.ref, hl.device, hl.next_handle, False.elim, False.elim⟩

/-- A retired channel forgets its filters and messages. -/
theorem keeps_retire_channel : Keeps (l₀.Within False False False ok) retire_channel := by
  intro l hl
  refine wp_retire_channel fun s ls hs =>
    ⟨hl.ref, hl.device.trans ?_, hl.next_handle, False.elim, False.elim⟩
  exact ⟨rfl, id, Live.not_usable_of_run hs, False.elim, False.elim, False.elim, False.elim,
    False.elim, ⟨[], by simp, by simp⟩, by simp⟩

/-- A close of the channel is within limits that admit its exchange. -/
theorem keeps_close_channel
    (h : ∀ q response, ok ⟨l₀.device.channelCommand 7 [] 10000 0 none, q, response⟩) :
    Keeps (l₀.Within False F P ok) close_channel :=
  (keeps_accepted_command h).bind fun _ => keeps_update fun d =>
    ⟨rfl, id, id, False.elim, False.elim, False.elim, fun _ => rfl, fun _ => ⟨rfl, rfl⟩, ⟨[], by simp, by simp⟩,
      by simp⟩

/-- A device that must be reopened. -/
theorem keeps_reopen {C : Prop} :
    Keeps (l₀.Within C F P ok) (update fun d => { d with reopen_required := true }) :=
  keeps_update fun d => ⟨rfl, fun _ => rfl, id, fun _ => rfl, fun _ => rfl, fun _ => rfl, fun _ => rfl,
    fun _ => ⟨rfl, rfl⟩, ⟨[], by simp, by simp⟩, by simp⟩

/-- A Disconnect is within limits that admit a clear and a close. -/
theorem keeps_PassThruDisconnect
    (hclear : ∀ q response,
      ok ⟨l₀.device.channelCommand 0x10 [table_periodic, 0, 0, 0] 10000 0 none, q, response⟩)
    (hclose : ∀ q response, ok ⟨l₀.device.channelCommand 7 [] 10000 0 none, q, response⟩) :
    Keeps (l₀.Within False False False ok) PassThruDisconnect := by
  rw [PassThruDisconnect_eq]
  exact keeps_retire_channel.bind fun _ => keeps_clear_if (keeps_clear_periodic_table hclear)
    (keeps_end_channel (keeps_close_channel hclose) keeps_reopen)

/-- The end of a session is within the limits of a closed channel. -/
theorem keeps_close : Keeps (l₀.Within False F P ok) close :=
  (keeps_perform _).bind fun _ => keeps_transport

/-- A Close is within limits that admit a clear, a close and the command that closes the device. -/
theorem keeps_PassThruClose {id : UInt32}
    (hclear : ∀ q response,
      ok ⟨l₀.device.channelCommand 0x10 [table_periodic, 0, 0, 0] 10000 0 none, q, response⟩)
    (hclose : ∀ q response, ok ⟨l₀.device.channelCommand 7 [] 10000 0 none, q, response⟩)
    (hdevice : ∀ q response, ok ⟨{ opcode := 5 }, q, response⟩) :
    Keeps (l₀.Within False False False ok) (PassThruClose id) := by
  rw [PassThruClose_eq]
  refine Keeps.bind (keeps_update fun d => ?_) fun _ => Keeps.bind
    (keeps_devices fun l => l.registry.devices.erase id) fun _ =>
      keeps_retire_channel.bind fun _ => Keeps.read.bind fun _ =>
        keeps_clear_if (keeps_clear_periodic_table hclear)
          (keeps_end_wire (keeps_close_channel hclose) (keeps_command hdevice) keeps_close)
  exact ⟨rfl, fun h => h, fun h => h, False.elim, False.elim, False.elim, False.elim, False.elim,
    ⟨[], by simp, by simp⟩, by simp⟩

/-- The handler of a failed Connect. -/
theorem keeps_connect_failed
    (hclose : ∀ q response, ok ⟨l₀.device.channelCommand 7 [] 10000 0 none, q, response⟩)
    (e : Exception) :
    Keeps (l₀.Within False F P ok) (do
      perform [.set_can_receiver none]
      let l ← read
      when (¬ l.device.reopen_required)
        (tryCatch close_channel fun _ => update fun d => { d with reopen_required := true })
      throw e : Lifecycle Unit) := by
  refine (keeps_perform _).bind fun _ => Keeps.read_bind fun l hl => ?_
  exact ((Keeps.when (Keeps.tryCatch (keeps_close_channel hclose) fun _ => keeps_reopen)).bind
    fun _ => .throw _) l hl

/-- The second half of a Connect is within limits that admit the command that sets the channel up. -/
theorem keeps_connect_setup {id flags : UInt32} {r : ReceiverRef}
    (hsetup : ∀ q response, ok ⟨l₀.device.channelCommand 0x12
      [1, 0, 0, 0, 6, 0, 0, 0, 14, 0, 0, 0] 10000 0 none, q, response⟩) :
    Keeps (l₀.Within False F P ok) (do
      perform [.set_can_receiver (some r)]
      accepted_command 0x12 [1, 0, 0, 0, 6, 0, 0, 0, 14, 0, 0, 0]
      room
      alter fun l =>
        { l with registry := { l.registry with channels := l.registry.channels.emplace id l.ref } }
      update fun d => { d with channel := id, channel_flags := flags, receiver := some r }
      output fun o => { o with id := id }) := by
  refine (keeps_perform _).bind fun _ => (keeps_accepted_command hsetup).bind fun _ =>
    keeps_room.bind fun _ => (keeps_channels fun l => l.registry.channels.emplace id l.ref).bind
      fun _ => Keeps.bind (keeps_update fun d => ?_) fun _ => keeps_output _
  exact ⟨rfl, fun h => h, fun h => h, False.elim, False.elim, False.elim, fun _ => rfl,
    fun _ => ⟨rfl, rfl⟩, ⟨[], by simp, by simp⟩, by simp⟩

/-- A Connect writes the protocol, and its commands are those of a channel with it. -/
theorem wp_PassThruConnect_within {l b : Locked} {protocol flags baud : UInt32} {R : Locked → Prop}
    (hb : b = { l with device := { l.device with protocol := protocol } })
    (h : ∀ q response, protocol = CAN ∨ protocol = ISO15765 → can_baud_supported baud = true →
      ¬ flagsOutside flags (if protocol = CAN then CAN_29BIT_ID else 0) →
      ok ⟨b.device.channelCommand 6 (bytes32 flags ++ bytes32 baud) 10000 0 none, q, response⟩)
    (hsetup : ∀ q response, protocol = CAN ∨ protocol = ISO15765 → ok ⟨b.device.channelCommand 0x12
      [1, 0, 0, 0, 6, 0, 0, 0, 14, 0, 0, 0] 10000 0 none, q, response⟩)
    (hclose : ∀ q response, protocol = CAN ∨ protocol = ISO15765 →
      ok ⟨b.device.channelCommand 7 [] 10000 0 none, q, response⟩)
    (hsame : R l)
    (hR : ∀ t, l.device.reopen_required = false → l.device.channel = 0 → b.Within False F P ok t → R t) :
    wp (PassThruConnect protocol flags baud) (fun _ => R) (fun _ => R) l := by
  rw [PassThruConnect]
  simp only [wp_bind, wp_read, wp_throw_if]
  refine ⟨fun _ => hsame, fun _ => ⟨fun _ => hsame, fun _ => ⟨fun _ => hsame, fun hreopen =>
    ⟨fun _ => hsame, fun huse => ⟨fun _ => hsame, fun hproto => ⟨fun _ => hsame, fun hbaud =>
      ⟨fun _ => hsame, fun hflags => ?_⟩⟩⟩⟩⟩⟩⟩
  have hproto : protocol = CAN ∨ protocol = ISO15765 := by simpa [or_iff_not_imp_left] using hproto
  have hchannel : l.device.channel = 0 := by
    by_contra hne
    exact huse ⟨hproto, hne⟩
  have hR {t : Locked} (ht : b.Within False F P ok t) : R t :=
    hR t (by simpa using hreopen) hchannel ht
  refine wp_allocate_handle (fun hle => ?_) fun _ => hsame
  rw [wp_update]
  have hopen : Keeps (b.Within False F P ok) (accepted_command 6 (bytes32 flags ++ bytes32 baud)) :=
    keeps_accepted_command fun q r => h q r hproto (not_not.mp hbaud) hflags
  refine Triple.call hopen ⟨by rw [hb], ?_, by rw [hb]; exact Nat.le_succ _, False.elim, False.elim⟩
    (fun _ t ht => ?_) fun _ _ => hR
  · rw [hb]
    exact ⟨rfl, fun h => h, fun h => h, False.elim, False.elim, False.elim, fun _ => rfl,
      fun _ => ⟨rfl, rfl⟩, ⟨[], by simp, by simp⟩, by simp⟩
  · rw [wp_update]
    refine Triple.call (Keeps.tryCatch (keeps_connect_setup fun q r => hsetup q r hproto)
      (keeps_connect_failed fun q r => hclose q r hproto)) ?_ (fun _ _ => hR) fun _ _ => hR
    exact ht.step rfl rfl ⟨rfl, fun h => h, fun h => h, False.elim, False.elim, False.elim, fun _ => rfl,
      fun _ => ⟨rfl, rfl⟩, ⟨[], by simp, by simp⟩, by simp⟩

/-- An Open makes four kinds of command, and publishes a new ID or none. -/
theorem wp_PassThruOpen_within {l : Locked} {Q : Unit → Locked → Prop} {E : Exception → Locked → Prop}
    (h : ∀ opcode ∈ [0x103, 3, 0x109, 5], ∀ q response, ok ⟨{ opcode := opcode }, q, response⟩)
    (hok : ∀ t id, l.Within True True True ok t → l.registry.next_handle ≤ id.toNat →
      id.toNat < t.registry.next_handle → Q () { t with
        registry := { t.registry with devices := t.registry.devices.emplace id t.ref }
        out := { t.out with id := id } })
    (herr : ∀ e t, l.Within True True True ok t → E e t) : wp PassThruOpen Q E l := by
  have hcommand (opcode : Nat) (hop : opcode ∈ [0x103, 3, 0x109, 5]) :
      Keeps (l.Within True True True ok) (command { opcode := opcode }) :=
    keeps_command (h opcode hop)
  rw [PassThruOpen]
  refine keeps_transport.call (.refl l) herr fun _ t ht => ?_
  refine (hcommand _ (by decide)).call ht herr fun _ t ht => ?_
  refine (Keeps.of _).call ht herr fun _ t ht => ?_
  refine (hcommand _ (by decide)).call ht herr fun _ t ht => ?_
  refine (Keeps.of _).call ht herr fun _ t ht => ?_
  have hfailed (e : Exception) (t : Locked) (ht : l.Within True True True ok t) : wp (do
      let _ ← attempt (command { opcode := 5 } >>= fun _ => pure ())
      throw e : Lifecycle Unit) Q E t := by
    have hclose := (hcommand 5 (by decide)).bind fun _ => Keeps.pure ()
    exact (Keeps.attempt hclose).call ht herr fun _ u hu => (wp_throw _).mpr (herr e u hu)
  rw [wp_tryCatch]
  refine (hcommand _ (by decide)).call ht hfailed fun _ t ht => ?_
  refine (Keeps.of _).call ht hfailed fun _ t ht => ?_
  rw [wp_bind]
  refine wp_allocate_handle (fun hle => ?_) fun e => hfailed e t ht
  have hid : (UInt32.ofNat t.registry.next_handle).toNat = t.registry.next_handle := by
    rw [UInt32.toNat_ofNat', Nat.mod_eq_of_lt (by omega)]
  have hnext := ht.next_handle
  have ht : l.Within True True True ok
      { t with registry := { t.registry with next_handle := t.registry.next_handle + 1 } } :=
    ⟨ht.ref, ht.device, Nat.le_succ_of_le hnext, ht.devices, ht.channels⟩
  rw [wp_bind]
  refine wp_room (fun u hkept hu => ?_) fun e u hkept hu => ?_
  · have hu' := ht.step hkept.ref hkept.registry (hu ▸ .refl _)
    simp only [wp_bind, wp_alter, wp_output]
    refine hok u _ hu' (by omega) ?_
    rw [hkept.registry, hid]
    exact Nat.lt_succ_self _
  · exact hfailed e u (ht.step hkept.ref hkept.registry (hu ▸ .refl _))

end calls

end Mongoose
