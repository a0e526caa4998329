import Mongoose.Api.Process
import Mongoose.Api.Within

/-!
# Mongoose.Api.Calls

What each call may send, and what it leaves alone.

`ApiCall.Issues` lists the commands of every entry point, from the device it finds
and its arguments.  `ApiCall.keeps_program` says of each call that is no Open,
Close, Connect or Disconnect which maps it leaves alone, and `ApiCall.wp_after` of
every call that it sends nothing else.
-/

namespace Mongoose

open Prog Lifecycle

/-! ## commands -/

namespace Device

variable (d : Device) (cmd : Command)

/-- Clears the adapter's table of periodic messages. -/
def ClearsPeriodic : Prop := cmd = d.channelCommand 0x10 [table_periodic, 0, 0, 0] 10000 0 none

/-- Closes the adapter's channel. -/
def ClosesChannel : Prop := cmd = d.channelCommand 7 [] 10000 0 none

/-- Adds a table entry. -/
def AddsEntry (payload : Bytes) : Prop := cmd = d.channelCommand 0x0d payload 10000 0 none

/-- Removes a table entry. -/
def RemovesEntry : Prop :=
  ∃ table handle payload, remove_payload table handle = .ok payload ∧
    cmd = d.channelCommand 0x0e payload 10000 0 none

/-- Reads a firmware value of the channel. -/
def ReadsConfig : Prop :=
  ∃ selector, cmd = d.channelCommand 0xc [selector, 0, 0, 0] 10000 0 none

/-- Writes an entry of a list that was found valid as a whole. -/
def WritesConfig (input : Option SCONFIG_LIST) : Prop :=
  ∃ list items, input = some list ∧ list.ConfigPtr = some items ∧
    (∀ item ∈ items.take list.NumOfParams.toNat,
      config_validate_set d.protocol item.Parameter item.Value = .ok ()) ∧
    ∃ item ∈ items.take list.NumOfParams.toNat, ∃ route payload,
      config_route d.protocol item.Parameter = .ok route ∧ route.location = .Firmware ∧
        set_payload route.selector item.Value = .ok payload ∧
        cmd = d.channelCommand 0xb payload 10000 0 none

/-- Empties a table or a buffer of the adapter. -/
def Empties : Prop :=
  ∃ opcode ∈ [0x10, 0x11], ∃ selector, cmd = d.channelCommand opcode [selector, 0, 0, 0] 10000 0 none

end Device

/-- Reads a value of the adapter. -/
def Command.ReadsValue (cmd : Command) : Prop :=
  ∃ selector, cmd = { opcode := 0xc, payload := [selector, 0, 0, 0] }

namespace ApiCall

/-- The commands a call may send on the device it finds. -/
def Issues (d : Device) (cmd : Command) : ApiCall → Prop
  | .PassThruOpen _ => ∃ opcode ∈ [0x103, 3, 0x109, 5], cmd = { opcode := opcode }
  | .PassThruClose _ => d.ClearsPeriodic cmd ∨ d.ClosesChannel cmd ∨ cmd = { opcode := 5 }
  | .PassThruConnect _ protocol flags baud _ =>
      let d : Device := { d with protocol := protocol }
      (protocol = CAN ∨ protocol = ISO15765) ∧
        ((can_baud_supported baud = true ∧ ¬ flagsOutside flags (if protocol = CAN then CAN_29BIT_ID else 0) ∧
            cmd = d.channelCommand 6 (bytes32 flags ++ bytes32 baud) 10000 0 none) ∨
          cmd = d.channelCommand 0x12 [1, 0, 0, 0, 6, 0, 0, 0, 14, 0, 0, 0] 10000 0 none ∨
          d.ClosesChannel cmd)
  | .PassThruDisconnect _ => d.ClearsPeriodic cmd ∨ d.ClosesChannel cmd
  | .PassThruReadMsgs .. => False
  | .PassThruWriteMsgs .. =>
      ∃ payload budget known, cmd = d.channelCommand 8 payload budget 1 (some known)
  | .PassThruStartPeriodicMsg .. => (∃ payload, d.AddsEntry cmd payload) ∨ d.RemovesEntry cmd
  | .PassThruStopPeriodicMsg .. => d.RemovesEntry cmd
  | .PassThruStartMsgFilter .. =>
      (∃ payload, payload.head? ≠ some table_periodic ∧ d.AddsEntry cmd payload) ∨ d.RemovesEntry cmd
  | .PassThruStopMsgFilter .. => d.RemovesEntry cmd
  | .PassThruSetProgrammingVoltage _ => False
  | .PassThruReadVersion .. => cmd.ReadsValue
  | .PassThruIoctl _ ioctl_id input _ =>
      if ioctl_id = GET_CONFIG ∨ ioctl_id = SET_CONFIG then
        d.ReadsConfig cmd ∨ (ioctl_id = SET_CONFIG ∧ d.WritesConfig cmd input)
      else if ioctl_id = CLEAR_TX_BUFFER ∨ ioctl_id = CLEAR_RX_BUFFER ∨
          ioctl_id = CLEAR_MSG_FILTERS ∨ ioctl_id = CLEAR_PERIODIC_MSGS then d.Empties cmd
      else cmd.ReadsValue

/-- The opcodes a call may send. -/
def opcodes : ApiCall → List Nat
  | .PassThruOpen _ => [0x103, 3, 0x109, 5]
  | .PassThruClose _ => [0x10, 7, 5]
  | .PassThruConnect .. => [6, 0x12, 7]
  | .PassThruDisconnect _ => [0x10, 7]
  | .PassThruReadMsgs .. | .PassThruSetProgrammingVoltage _ => []
  | .PassThruWriteMsgs .. => [8]
  | .PassThruStartPeriodicMsg .. | .PassThruStartMsgFilter .. => [0x0d, 0x0e]
  | .PassThruStopPeriodicMsg .. | .PassThruStopMsgFilter .. => [0x0e]
  | .PassThruReadVersion .. => [0xc]
  | .PassThruIoctl .. => [0xb, 0xc, 0x10, 0x11]

theorem Issues.opcode_mem {d : Device} {cmd : Command} {c : ApiCall} (h : c.Issues d cmd) :
    cmd.opcode ∈ c.opcodes := by
  cases c with
  | PassThruOpen =>
      obtain ⟨opcode, hop, rfl⟩ := h
      exact hop
  | PassThruClose => obtain rfl | rfl | rfl := h <;> simp [opcodes, Device.channelCommand]
  | PassThruConnect =>
      obtain ⟨-, ⟨-, -, rfl⟩ | rfl | rfl⟩ := h <;> simp [opcodes, Device.channelCommand]
  | PassThruDisconnect => obtain rfl | rfl := h <;> simp [opcodes, Device.channelCommand]
  | PassThruReadMsgs | PassThruSetProgrammingVoltage => exact h.elim
  | PassThruWriteMsgs =>
      obtain ⟨_, _, _, rfl⟩ := h
      simp [opcodes, Device.channelCommand]
  | PassThruStartPeriodicMsg =>
      obtain ⟨_, rfl⟩ | ⟨_, _, _, -, rfl⟩ := h <;> simp [opcodes, Device.channelCommand]
  | PassThruStartMsgFilter =>
      obtain ⟨_, -, rfl⟩ | ⟨_, _, _, -, rfl⟩ := h <;> simp [opcodes, Device.channelCommand]
  | PassThruStopPeriodicMsg | PassThruStopMsgFilter =>
      obtain ⟨_, _, _, -, rfl⟩ := h
      simp [opcodes, Device.channelCommand]
  | PassThruReadVersion =>
      obtain ⟨_, rfl⟩ := h
      simp [opcodes]
  | PassThruIoctl =>
      rw [Issues] at h
      split at h
      · obtain ⟨_, rfl⟩ | ⟨-, _, _, -, -, -, _, -, _, _, -, -, -, rfl⟩ := h <;>
          simp [opcodes, Device.channelCommand]
      · split at h
        · obtain ⟨opcode, hop, _, rfl⟩ := h
          simp only [List.mem_cons, List.not_mem_nil, or_false] at hop
          obtain rfl | rfl := hop <;> simp [opcodes, Device.channelCommand]
        · obtain ⟨_, rfl⟩ := h
          simp [opcodes]

/-- Open, Close, Connect and Disconnect. -/
def lifecycle : ApiCall → Bool
  | .PassThruOpen _ | .PassThruClose _ | .PassThruConnect .. | .PassThruDisconnect _ => true
  | _ => false

/-- The calls that leave the filters alone. -/
def LeavesFilters : ApiCall → Prop
  | .PassThruStartMsgFilter .. | .PassThruStopMsgFilter .. => False
  | .PassThruIoctl _ ioctl_id _ _ => ioctl_id ≠ CLEAR_MSG_FILTERS
  | _ => True

/-- The calls that leave the periodic messages alone. -/
def LeavesPeriodics : ApiCall → Prop
  | .PassThruStartPeriodicMsg .. | .PassThruStopPeriodicMsg .. => False
  | .PassThruIoctl _ ioctl_id _ _ => ioctl_id ≠ CLEAR_PERIODIC_MSGS
  | _ => True

end ApiCall

/-! ## calls -/

/-- A call within its channel sends its commands, and leaves the channel alone. -/
theorem ApiCall.keeps_program {l₀ : Locked} {c : ApiCall} (hc : c.lifecycle = false) :
    Keeps (l₀.Within True c.LeavesFilters c.LeavesPeriodics fun e => c.Issues l₀.device e.command)
      c.program := by
  cases c with
  | PassThruOpen | PassThruClose | PassThruConnect | PassThruDisconnect => cases hc
  | PassThruReadMsgs => exact keeps_PassThruReadMsgs _ _
  | PassThruWriteMsgs =>
      exact keeps_PassThruWriteMsgs (fun payload budget known _ _ => ⟨payload, budget, known, rfl⟩) _ _ _
  | PassThruStartPeriodicMsg =>
      exact keeps_PassThruStartPeriodicMsg (fun payload _ _ => .inl ⟨payload, rfl⟩)
        fun table handle payload _ _ hp => .inr ⟨table, handle, payload, hp, rfl⟩
  | PassThruStopPeriodicMsg =>
      exact keeps_PassThruStopPeriodicMsg
        fun table handle payload _ _ hp => ⟨table, handle, payload, hp, rfl⟩
  | PassThruStartMsgFilter =>
      exact keeps_PassThruStartMsgFilter (fun payload _ _ hp => .inl ⟨payload, hp, rfl⟩)
        fun table handle payload _ _ hp => .inr ⟨table, handle, payload, hp, rfl⟩
  | PassThruStopMsgFilter =>
      exact keeps_PassThruStopMsgFilter
        fun table handle payload _ _ hp => ⟨table, handle, payload, hp, rfl⟩
  | PassThruSetProgrammingVoltage => exact .throw _
  | PassThruReadVersion => exact keeps_PassThruReadVersion fun _ _ => ⟨_, rfl⟩
  | PassThruIoctl id ioctl_id input output =>
      rw [program]
      simp only [Issues]
      split
      · next hid =>
          refine keeps_config_ioctl hid (fun selector _ _ => .inl ⟨selector, rfl⟩) ?_
          intro list items hinput hitems hset hvalid item hitem route payload q response hroute hlocation
            hpayload
          exact .inr ⟨hset, list, items, hinput, hitems, hvalid, item, hitem, route, payload, hroute,
            hlocation, hpayload, rfl⟩
      · split
        · exact keeps_channel_ioctl (fun h => h) (fun h => h) (fun table _ _ => ⟨0x10, by decide, table, rfl⟩)
            fun selector _ _ => ⟨0x11, by decide, selector, rfl⟩
        · exact keeps_read_voltage fun selector _ _ => ⟨selector, rfl⟩

/-- What every call leaves: more IDs may be taken, a flag is not taken back, and the
log grows by its commands. -/
structure Locked.After (l : Locked) (c : ApiCall) (t : Locked) : Prop where
  ref : t.ref = l.ref
  next_handle : l.registry.next_handle ≤ t.registry.next_handle
  reopen_required : l.device.reopen_required = true → t.device.reopen_required = true
  usable : ¬ l.device.usable → ¬ t.device.usable
  log : ∃ es, t.device.log = l.device.log ++ es ∧ ∀ e ∈ es, c.Issues l.device e.command
  lost : ∀ es, t.device.log = l.device.log ++ es → ∀ e ∈ es, e.Lost → t.device.reopen_required

theorem Locked.After.refl (l : Locked) (c : ApiCall) : l.After c l :=
  ⟨rfl, Nat.le_refl _, id, id, ⟨[], by simp, by simp⟩, by simp⟩

theorem Locked.Within.after {C F P : Prop} {l t : Locked} {c : ApiCall}
    (h : l.Within C F P (fun e => c.Issues l.device e.command) t) : l.After c t :=
  ⟨h.ref, h.next_handle, h.device.reopen_required, h.device.usable, h.device.log,
    h.device.lost⟩

/-- **A call sends its commands and no others.** -/
theorem ApiCall.wp_after (l : Locked) (c : ApiCall) :
    wp c.program (fun _ => l.After c) (fun _ => l.After c) l := by
  have hkeeps {C F P : Prop}
      (h : Keeps (l.Within C F P fun e => c.Issues l.device e.command) c.program) :
      wp c.program (fun _ => l.After c) (fun _ => l.After c) l :=
    Triple.call h (.refl l) (fun _ _ => Locked.Within.after) fun _ _ => Locked.Within.after
  cases c with
  | PassThruOpen =>
      exact wp_PassThruOpen_within (fun opcode hop _ _ => ⟨opcode, hop, rfl⟩)
        (fun _ _ ht _ _ => ⟨ht.ref, ht.next_handle, ht.device.reopen_required, ht.device.usable,
          ht.device.log, ht.device.lost⟩)
        fun _ _ => Locked.Within.after
  | PassThruClose =>
      exact hkeeps (keeps_PassThruClose (fun _ _ => .inl rfl) (fun _ _ => .inr (.inl rfl))
        fun _ _ => .inr (.inr rfl))
  | PassThruDisconnect =>
      exact hkeeps (keeps_PassThruDisconnect (fun _ _ => .inl rfl) fun _ _ => .inr rfl)
  | PassThruConnect id protocol flags baud channel =>
      exact wp_PassThruConnect_within (F := False) (P := False) rfl
        (fun _ _ hproto hbaud hflags => ⟨hproto, .inl ⟨hbaud, hflags, rfl⟩⟩)
        (fun _ _ hproto => ⟨hproto, .inr (.inl rfl)⟩) (fun _ _ hproto => ⟨hproto, .inr (.inr rfl)⟩)
        (.refl l _) fun _ _ _ ht => ⟨ht.ref, ht.next_handle, ht.device.reopen_required, ht.device.usable,
          ht.device.log, ht.device.lost⟩
  | _ => exact hkeeps (keeps_program rfl)

namespace Process

variable {p p' : Process}

/-- The log of every device grows. -/
theorem log_grows {l : Label} (h : p.step l = some p') (ref : DeviceRef) :
    ∃ es, (p'.objects ref).log = (p.objects ref).log ++ es := by
  have hput {q : Process} {r : DeviceRef} {t : Locked}
      (ht : ∃ es, t.device.log = (q.objects r).log ++ es) :
      ∃ es, ((q.put r t).objects ref).log = (q.objects ref).log ++ es := by
    by_cases hr : ref = r
    · subst hr
      rw [put_objects_self]
      exact ht
    · exact ⟨[], by rw [put_objects_of_ne hr, List.append_nil]⟩
  cases l with
  | call c script =>
      obtain ⟨⟨r, out, t⟩, hcall, rfl⟩ := Option.map_eq_some_iff.mp h
      obtain ⟨e, -, -, rfl⟩ | ⟨id, rfl, hlocked⟩ | ⟨-, ref', -, hlocked⟩ := call_cases hcall
      · exact ⟨[], by simp⟩
      · obtain ⟨t, ht, -, rfl⟩ := locked_cases hlocked
        have hlog := (wp_end (ApiCall.wp_after _ _) ht).log
        exact hput (q := { p with made := p.made + 1 }) (hlog.imp fun _ => And.left)
      · obtain ⟨t, ht, -, rfl⟩ := locked_cases hlocked
        exact hput ((wp_end (ApiCall.wp_after _ _) ht).log.imp fun _ => And.left)
  | event r e =>
      obtain ⟨-, h⟩ := Option.ite_none_right_eq_some.mp h
      obtain ⟨s, -, rfl⟩ := Option.map_eq_some_iff.mp h
      exact hput (r := r) (t := { p.view r [] with device := { p.objects r with session := s } })
        ⟨[], by simp⟩

end Process

end Mongoose
