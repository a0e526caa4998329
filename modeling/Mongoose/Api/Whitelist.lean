import Mongoose.Api.Channel

/-!
# Mongoose.Api.Whitelist

What the calls may send.

`Exchange.Allowed` says which bodies a call may give to the transport of a device: their
opcodes and nodes, the rates and flags of an open, and the selectors and values of a set.
Every step of the process sends such bodies alone.
-/

namespace Mongoose

open Prog Lifecycle

/-! ## values -/

/-- A selector and a value that the settable route of a parameter admits. -/
structure ConfigRoute.Admits (route : ConfigRoute) (protocol parameter value : UInt32) : Prop where
  found : config_route protocol parameter = .ok route
  firmware : route.location = .Firmware
  settable : route.settable = true
  electrical : route.selector ≠ 0x31 ∧ route.selector ≠ 0x2c
  rate : route.selector = 0x04 → can_baud_supported value = true
  range : (route.minimum ≤ value ∧ value ≤ route.maximum) ∨ (route.allow_ffff = true ∧ value = 0xffff)

section values

variable {protocol parameter value : UInt32} {route : ConfigRoute}

/-- A route is an entry of a table. -/
theorem config_route_mem (h : config_route protocol parameter = .ok route) :
    (parameter, route) ∈ can_table ++ iso_table := by
  rw [config_route] at h
  split at h
  · cases h
  · split at h
    · cases h
    · split at h
      · cases h
      · next hfound =>
          cases h
          obtain ⟨a, b, htable, -⟩ := List.lookup_eq_some_iff.mp hfound
          have hmem : (parameter, route) ∈ if protocol = CAN then can_table else iso_table := by
            simp [htable]
          split at hmem
          · exact List.mem_append_left _ hmem
          · exact List.mem_append_right _ hmem

/-- No electrical parameter can be set, and one selector alone is the data rate. -/
theorem settable_of_mem : ∀ e ∈ can_table ++ iso_table, e.2.settable = true →
    (e.2.selector ≠ 0x31 ∧ e.2.selector ≠ 0x2c) ∧ (e.2.selector = 0x04 → e.1 = cfg_data_rate) := by
  decide

/-- Every selector has 16 bits. -/
theorem selector_of_mem : ∀ e ∈ can_table ++ iso_table, e.2.selector.toNat < 65536 := by
  decide

/-- What is checked of a value. -/
theorem validate_ok_iff (hroute : config_route protocol parameter = .ok route) :
    config_validate_set protocol parameter value = .ok () ↔
      route.settable = true ∧ (parameter = cfg_data_rate → can_baud_supported value = true) ∧
        ((route.minimum ≤ value ∧ value ≤ route.maximum) ∨ (route.allow_ffff = true ∧ value = 0xffff)) := by
  rw [config_validate_set, hroute]
  change (if ¬ route.settable then _ else _) = _ ↔ _
  by_cases hsettable : route.settable = true
  · rw [if_neg (not_not_intro hsettable)]
    by_cases hrate : parameter = cfg_data_rate ∧ ¬ can_baud_supported value
    · rw [if_pos hrate]
      exact iff_of_false (nomatch ·) fun h => hrate.2 (h.2.1 hrate.1)
    · have hdata (h : parameter = cfg_data_rate) : can_baud_supported value = true :=
        not_not.mp fun hbaud => hrate ⟨h, hbaud⟩
      rw [if_neg hrate]
      change (if route.allow_ffff ∧ value = 0xffff then _ else _) = _ ↔ _
      by_cases hffff : route.allow_ffff = true ∧ value = 0xffff
      · rw [if_pos hffff]
        exact iff_of_true rfl ⟨hsettable, hdata, .inr hffff⟩
      · rw [if_neg hffff]
        by_cases hrange : value < route.minimum ∨ value > route.maximum
        · rw [if_pos hrange]
          refine iff_of_false (nomatch ·) fun h => hrange.elim ?_ ?_
          · exact UInt32.not_lt.mpr (h.2.2.resolve_right hffff).1
          · exact UInt32.not_lt.mpr (h.2.2.resolve_right hffff).2
        · rw [if_neg hrange]
          rw [not_or, UInt32.not_lt, gt_iff_lt, UInt32.not_lt] at hrange
          exact iff_of_true rfl ⟨hsettable, hdata, .inl hrange⟩
  · rw [if_pos hsettable]
    exact iff_of_false (nomatch ·) fun h => hsettable h.1

/-- An entry is refused when its parameter is unknown, when it is read-only, when it is a
data rate that no adapter runs at, or when its value is out of range; else it is valid. -/
theorem validate_error_iff : (∃ e, config_validate_set protocol parameter value = .error e) ↔
    (∃ e, config_route protocol parameter = .error e) ∨
      ∃ route, config_route protocol parameter = .ok route ∧
        (route.settable = false ∨ (parameter = cfg_data_rate ∧ can_baud_supported value = false) ∨
          ((value < route.minimum ∨ route.maximum < value) ∧
            ¬ (route.allow_ffff = true ∧ value = 0xffff))) := by
  cases hroute : config_route protocol parameter with
  | error e =>
      have herror : config_validate_set protocol parameter value = .error e := by
        rw [config_validate_set, hroute]
        rfl
      exact iff_of_true ⟨e, herror⟩ (.inl ⟨e, rfl⟩)
  | ok route =>
      have hok := @validate_ok_iff protocol parameter value route hroute
      simp only [reduceCtorEq, exists_false, false_or, Except.ok.injEq, exists_eq_left']
      cases hvalid : config_validate_set protocol parameter value with
      | error e =>
          rw [hvalid] at hok
          refine iff_of_true ⟨e, rfl⟩ ?_
          have hnot := mt hok.mpr (nomatch ·)
          simp only [not_and_or, not_or, UInt32.not_le, Bool.not_eq_true, Classical.not_imp] at hnot ⊢
          exact hnot
      | ok u =>
          obtain ⟨hsettable, hdata, hrange⟩ := hok.mp hvalid
          refine iff_of_false (fun ⟨e, he⟩ => nomatch he) ?_
          rintro (h | ⟨hrate, h⟩ | ⟨h, hffff⟩)
          · cases hsettable.symm.trans h
          · cases (hdata hrate).symm.trans h
          · obtain ⟨hmin, hmax⟩ := hrange.resolve_right hffff
            exact h.elim (UInt32.not_lt.mpr hmin) (UInt32.not_lt.mpr hmax)

/-- A value that was found valid is admitted. -/
theorem admits_of_validate (h : config_validate_set protocol parameter value = .ok ())
    (hroute : config_route protocol parameter = .ok route) (hlocation : route.location = .Firmware) :
    route.Admits protocol parameter value := by
  obtain ⟨hsettable, hbaud, hrange⟩ := (validate_ok_iff hroute).mp h
  obtain ⟨helectrical, hdata⟩ := settable_of_mem _ (config_route_mem hroute) hsettable
  exact ⟨hroute, hlocation, hsettable, helectrical, fun hsel => hbaud (hdata hsel), hrange⟩

/-- A set sends its selector and its value. -/
theorem set_payload_eq (h : config_route protocol parameter = .ok route) (value : UInt32) :
    set_payload route.selector value = .ok (bytes32 route.selector ++ bytes32 value) := by
  have hsel := selector_of_mem _ (config_route_mem h)
  have hhigh : bytes16 (high16 route.selector.toNat) = [0, 0] := by
    rw [high16, Nat.div_eq_of_lt hsel]
    rfl
  rw [bytes32, hhigh]
  rfl

end values

/-! ## bodies -/

/-- Every opcode there is. -/
def whitelist : List Nat := [3, 5, 6, 7, 8, 0xb, 0xc, 0xd, 0xe, 0x10, 0x11, 0x12, 0x103, 0x109]

namespace Command

/-- Goes to the board. -/
def ToBoard (cmd : Command) : Prop :=
  cmd.opcode ∈ [3, 5, 0xc, 0x103, 0x109] ∧ cmd.destination = board_node ∧ cmd.chan = 0

/-- Goes to the node of a channel. -/
def ToChannel (protocol : UInt32) (cmd : Command) : Prop :=
  cmd.opcode ∈ [6, 7, 8, 0xb, 0xc, 0xd, 0xe, 0x10, 0x11, 0x12] ∧
    cmd.destination = channel_node protocol.toNat ∧ cmd.chan = if cmd.opcode = 8 then 1 else 0

/-- An open of a listed rate, with the flags its protocol permits. -/
def Opens (protocol : UInt32) (cmd : Command) : Prop :=
  ∃ flags baud, can_baud_supported baud = true ∧
    ¬ flagsOutside flags (if protocol = CAN then CAN_29BIT_ID else 0) ∧
    cmd.payload = bytes32 flags ++ bytes32 baud

/-- A set of one entry of a list, every entry of which was found valid. -/
def Sets (protocol : UInt32) (c : ApiCall) (cmd : Command) : Prop :=
  ∃ id list items output, c = .PassThruIoctl id SET_CONFIG (some list) output ∧
    list.ConfigPtr = some items ∧
    (∀ item ∈ items.take list.NumOfParams.toNat,
      config_validate_set protocol item.Parameter item.Value = .ok ()) ∧
    ∃ item ∈ items.take list.NumOfParams.toNat, ∃ route : ConfigRoute,
      route.Admits protocol item.Parameter item.Value ∧
      cmd.payload = bytes32 route.selector ++ bytes32 item.Value

/-- A body that a call may send where `protocol` is that of the channel. -/
structure Permitted (protocol : UInt32) (c : ApiCall) (cmd : Command) : Prop where
  opcode : cmd.opcode ∈ whitelist
  node : cmd.ToBoard ∨ cmd.ToChannel protocol
  opens : cmd.opcode = 6 → cmd.Opens protocol
  sets : cmd.opcode = 0xb → cmd.Sets protocol c

end Command

/-- The protocol of a call's channel: of the one it connects, or of its device's. -/
def ApiCall.protocol (d : Device) : ApiCall → UInt32
  | .PassThruConnect _ protocol _ _ _ => protocol
  | _ => d.protocol

def ApiCall.connects : ApiCall → Bool
  | .PassThruConnect .. => true
  | _ => false

/-- An exchange that a call may make on the device it finds, after others. -/
structure Exchange.Allowed (d : Device) (c : ApiCall) (before : List Exchange) (e : Exchange) : Prop where
  permitted : e.command.Permitted (c.protocol d) c
  /-- A channel is open when its commands are sent, or being opened. -/
  isOpen : ¬ e.command.ToBoard → c.connects = true ∨ d.wire_channel_open = true
  /-- They go where the last accepted open went. -/
  current : ¬ e.command.ToBoard → e.command.opcode ≠ 6 →
    (before.reverse.find? Exchange.opens).map (fun o => o.command.destination) =
      some e.command.destination

/-! ## calls -/

section calls

variable {d : Device} {c : ApiCall} {cmd : Command} {e : Exchange}

/-- A channel's command that opens and sets nothing. -/
theorem permitted_channelCommand {protocol : UInt32} {opcode : Nat} {payload : Bytes} {timeout : Int}
    {chan : Nat} {known : Option Recording} (hd : d.protocol = protocol)
    (hop : opcode ∈ [7, 8, 0xc, 0xd, 0xe, 0x10, 0x11, 0x12]) (hchan : chan = if opcode = 8 then 1 else 0) :
    (d.channelCommand opcode payload timeout chan known).Permitted protocol c := by
  simp only [List.mem_cons, List.not_mem_nil, or_false] at hop
  refine ⟨?_, .inr ⟨?_, by rw [← hd]; rfl, hchan⟩, fun h => ?_, fun h => ?_⟩ <;>
    simp only [Device.channelCommand, whitelist, List.mem_cons] at * <;> omega

/-- The commands for the board that the driver has. -/
theorem permitted_board {protocol : UInt32} {opcode : Nat} {payload : Bytes}
    (hop : opcode ∈ [3, 5, 0xc, 0x103, 0x109]) :
    ({ opcode := opcode, payload := payload } : Command).Permitted protocol c := by
  refine ⟨?_, .inl ⟨hop, rfl, rfl⟩, fun h => ?_, fun h => ?_⟩ <;>
    simp only [whitelist, List.mem_cons, List.not_mem_nil, or_false] at * <;> omega

/-- **What a call issues is permitted.** -/
theorem ApiCall.Issues.permitted (h : c.Issues d cmd) : cmd.Permitted (c.protocol d) c := by
  cases c with
  | PassThruOpen =>
      obtain ⟨opcode, hop, rfl⟩ := h
      refine permitted_board ?_
      simp only [List.mem_cons, List.not_mem_nil, or_false] at hop ⊢
      omega
  | PassThruClose =>
      obtain rfl | rfl | rfl := h
      · exact permitted_channelCommand rfl (by decide) rfl
      · exact permitted_channelCommand rfl (by decide) rfl
      · exact permitted_board (by decide)
  | PassThruConnect id protocol flags baud channel =>
      obtain ⟨-, ⟨hbaud, hflags, rfl⟩ | rfl | rfl⟩ := h
      · have hchannel : (6 : Nat) ∈ [6, 7, 8, 0xb, 0xc, 0xd, 0xe, 0x10, 0x11, 0x12] := by decide
        refine ⟨show 6 ∈ whitelist by decide, .inr ⟨hchannel, rfl, rfl⟩,
          fun _ => ⟨flags, baud, hbaud, hflags, rfl⟩, fun h => ?_⟩
        exact absurd (show (6 : Nat) = 0xb from h) (by decide)
      · exact permitted_channelCommand rfl (by decide) rfl
      · exact permitted_channelCommand rfl (by decide) rfl
  | PassThruDisconnect =>
      obtain rfl | rfl := h
      · exact permitted_channelCommand rfl (by decide) rfl
      · exact permitted_channelCommand rfl (by decide) rfl
  | PassThruReadMsgs | PassThruSetProgrammingVoltage => exact h.elim
  | PassThruWriteMsgs =>
      obtain ⟨payload, budget, known, rfl⟩ := h
      exact permitted_channelCommand rfl (by decide) rfl
  | PassThruStartPeriodicMsg =>
      obtain ⟨_, rfl⟩ | ⟨_, _, _, -, rfl⟩ := h
      · exact permitted_channelCommand rfl (by decide) rfl
      · exact permitted_channelCommand rfl (by decide) rfl
  | PassThruStartMsgFilter =>
      obtain ⟨_, -, rfl⟩ | ⟨_, _, _, -, rfl⟩ := h
      · exact permitted_channelCommand rfl (by decide) rfl
      · exact permitted_channelCommand rfl (by decide) rfl
  | PassThruStopPeriodicMsg | PassThruStopMsgFilter =>
      obtain ⟨_, _, _, -, rfl⟩ := h
      exact permitted_channelCommand rfl (by decide) rfl
  | PassThruReadVersion =>
      obtain ⟨_, rfl⟩ := h
      exact permitted_board (by decide)
  | PassThruIoctl id ioctl_id input output =>
      rw [Issues] at h
      split at h
      · obtain ⟨_, rfl⟩ | ⟨rfl, list, items, rfl, hitems, hvalid, item, hitem, route, payload, hroute,
          hlocation, hpayload, rfl⟩ := h
        · exact permitted_channelCommand rfl (by decide) rfl
        · have hadmits := admits_of_validate (hvalid item hitem) hroute hlocation
          rw [set_payload_eq hroute] at hpayload
          cases hpayload
          have hchannel : (0xb : Nat) ∈ [6, 7, 8, 0xb, 0xc, 0xd, 0xe, 0x10, 0x11, 0x12] := by decide
          refine ⟨show 0xb ∈ whitelist by decide, .inr ⟨hchannel, rfl, rfl⟩, fun h => ?_, fun _ => ?_⟩
          · exact absurd (show (0xb : Nat) = 6 from h) (by decide)
          · exact ⟨id, list, items, output, rfl, hitems, hvalid, item, hitem, route, hadmits, rfl⟩
      · split at h
        · obtain ⟨opcode, hop, _, rfl⟩ := h
          simp only [List.mem_cons, List.not_mem_nil, or_false] at hop
          obtain rfl | rfl := hop
          · exact permitted_channelCommand rfl (by decide) rfl
          · exact permitted_channelCommand rfl (by decide) rfl
        · obtain ⟨_, rfl⟩ := h
          exact permitted_board (by decide)

/-- A Close of a device with no channel open sends to the board alone. -/
theorem wp_PassThruClose_closed {l : Locked} {id : UInt32} (hwire : l.device.wire_channel_open = false) :
    wp (PassThruClose id) (fun _ => l.Within False False False fun e => e.command.ToBoard)
      (fun _ => l.Within False False False fun e => e.command.ToBoard) l := by
  have hboard (error : Option Exception) : Keeps (l.Within False False False fun e => e.command.ToBoard) (do
      let error' ← attempt (command { opcode := 5 } >>= fun response => of (accepted response))
      let error := error.or error'
      let error' ← attempt close
      rethrow (error.or error')) := by
    have hto (q : Nat) (response : Option Bytes) :
        (⟨{ opcode := 5 }, q, response⟩ : Exchange).command.ToBoard :=
      ⟨show 5 ∈ [3, 5, 0xc, 0x103, 0x109] by decide, rfl, rfl⟩
    exact (Keeps.attempt ((keeps_command hto).bind fun _ => .of _)).bind fun _ =>
      (Keeps.attempt keeps_close).bind fun _ => Keeps.rethrow _
  rw [PassThruClose, wp_bind, wp_update, wp_bind, wp_alter, wp_bind]
  refine wp_retire_channel fun s ls hs => ?_
  rw [wp_bind, wp_read]
  simp only [hwire, Bool.false_eq_true, false_and, if_false]
  rw [wp_bind, wp_pure, wp_bind, wp_read]
  simp only [Bool.false_eq_true, if_false]
  rw [wp_bind, wp_pure]
  refine hboard _ _ ⟨rfl, ?_, Nat.le_refl _, False.elim, False.elim⟩
  exact ⟨rfl, fun h => h, Live.not_usable_of_run hs, False.elim, False.elim, False.elim, False.elim,
    False.elim, ⟨[], by simp, by simp⟩, by simp⟩

/-- The exchanges of a Connect: an open, and what follows it once it was accepted. -/
def Connecting (protocol : UInt32) (es : List Exchange) : Prop :=
  es = [] ∨ ∃ o rest, es = o :: rest ∧ o.command.opcode = 6 ∧
    (rest ≠ [] → o.opens ∧ o.command.destination = channel_node protocol.toNat) ∧
    ∀ e ∈ rest, e.command.opcode ∈ [0x12, 7] ∧ e.command.destination = channel_node protocol.toNat

/-- A Connect sends an open and a setup, and a close if the setup fails. -/
theorem wp_PassThruConnect_opens (l : Locked) (protocol flags baud : UInt32) :
    wp (PassThruConnect protocol flags baud)
      (fun _ t => ∃ es, t.device.log = l.device.log ++ es ∧ Connecting protocol es)
      (fun _ t => ∃ es, t.device.log = l.device.log ++ es ∧ Connecting protocol es) l := by
  have hsame : ∃ es, l.device.log = l.device.log ++ es ∧ Connecting protocol es := ⟨[], by simp, .inl rfl⟩
  rw [PassThruConnect]
  simp only [wp_bind, wp_read, wp_throw_if]
  refine ⟨fun _ => hsame, fun _ => ⟨fun _ => hsame, fun _ => ⟨fun _ => hsame, fun _ => ⟨fun _ => hsame,
    fun _ => ⟨fun _ => hsame, fun _ => ⟨fun _ => hsame, fun _ => ⟨fun _ => hsame, fun _ => ?_⟩⟩⟩⟩⟩⟩⟩
  refine wp_allocate_handle (fun _ => ?_) fun _ => hsame
  rw [wp_update]
  refine wp_accepted_command (by decide) (fun t o ht hcmd hacc _ => ?_) fun e t o ht ho => ?_
  · have hlog : t.device.log = l.device.log ++ [o] := by rw [ht.moved.eq]
    have hprotocol : t.device.protocol = protocol := by rw [ht.moved.eq]
    have hopens : o.opens := by simp [Exchange.opens, hcmd, hacc, Device.channelCommand]
    rw [wp_update]
    -- what is sent from here on goes to the same node
    let m : Locked := { t with device := { t.device with wire_channel_open := true } }
    let ok (e : Exchange) : Prop :=
      e.command.opcode ∈ [0x12, 7] ∧ e.command.destination = channel_node protocol.toNat
    have hend (u : Locked) (hu : m.Within False False False ok u) :
        ∃ es, u.device.log = l.device.log ++ es ∧ Connecting protocol es := by
      obtain ⟨rest, hrest, hok⟩ := hu.device.log
      refine ⟨o :: rest, by rw [hrest]; simp [m, hlog], .inr ⟨o, rest, rfl, by rw [hcmd]; rfl, fun _ => ?_, hok⟩⟩
      exact ⟨hopens, by rw [hcmd]; rfl⟩
    have hnode (payload : Bytes) (opcode : Nat) (q : Nat) (response : Option Bytes)
        (hop : opcode ∈ [0x12, 7]) :
        ok ⟨m.device.channelCommand opcode payload 10000 0 none, q, response⟩ :=
      ⟨hop, by simp [Device.channelCommand, m, hprotocol]⟩
    exact Triple.call (Keeps.tryCatch (keeps_connect_setup fun q r => hnode _ _ q r (by decide))
      (keeps_connect_failed fun q r => hnode _ _ q r (by decide))) (.refl m) (fun _ => hend)
      fun _ => hend
  · refine ⟨o.toList, by rw [ht.moved.eq], ?_⟩
    cases o with
    | none => exact .inl rfl
    | some o =>
        refine .inr ⟨o, [], rfl, ?_, by simp, by simp⟩
        rw [(ho o rfl).1]
        rfl

/-- Exchanges that open nothing leave the last open where it was. -/
theorem find_opens_append {log a : List Exchange} (ha : ∀ e ∈ a, e.opens = false) :
    (log ++ a).reverse.find? Exchange.opens = log.reverse.find? Exchange.opens := by
  rw [List.reverse_append, List.find?_append, List.find?_eq_none.mpr]
  · rfl
  · simpa using ha

/-- What follows the open of a Connect goes where it went. -/
theorem Connecting.current {protocol : UInt32} {log es a b : List Exchange} (h : Connecting protocol es)
    (he : es = a ++ e :: b) (h6 : e.command.opcode ≠ 6) :
    ((log ++ a).reverse.find? Exchange.opens).map (fun o => o.command.destination) =
      some e.command.destination := by
  obtain rfl | ⟨o, rest, rfl, ho, hopened, hrest⟩ := h
  · simp at he
  · cases a with
    | nil =>
        obtain ⟨rfl, -⟩ := List.cons.inj he
        exact absurd ho h6
    | cons o' a =>
        obtain ⟨rfl, rfl⟩ := List.cons.inj he
        obtain ⟨hopens, hdest⟩ := hopened (by simp)
        have hnone : ∀ x ∈ a, x.opens = false := by
          intro x hx
          have hop := (hrest x (by simp [hx])).1
          simp only [List.mem_cons, List.not_mem_nil, or_false] at hop
          simp only [Exchange.opens, Bool.and_eq_false_iff, decide_eq_false_iff_not]
          omega
        rw [List.append_cons, find_opens_append hnone, List.reverse_concat,
          List.find?_cons_of_pos hopens]
        simp [hdest, (hrest e (by simp)).2]

/-- What a call that connects nothing issues goes where its device's channel is. -/
theorem ApiCall.Issues.allowed {a : List Exchange} (h : c.Issues d e.command) (hd : d.Synced)
    (hc : c.connects = false) (ha : ∀ x ∈ a, c.Issues d x.command)
    (hwire : ¬ e.command.ToBoard → d.wire_channel_open = true) : e.Allowed d c (d.log ++ a) := by
  have hprotocol : c.protocol d = d.protocol := by
    cases c with
    | PassThruConnect => cases hc
    | _ => rfl
  have hopens : ∀ x ∈ a, x.opens = false := by
    intro x hx
    have hop := (ha x hx).opcode_mem
    have h6 : x.command.opcode ≠ 6 := by
      intro h6
      rw [h6] at hop
      cases c with
      | PassThruConnect => cases hc
      | _ => simp [opcodes] at hop
    simp [Exchange.opens, h6]
  refine ⟨h.permitted, fun hb => .inr (hwire hb), fun hb _ => ?_⟩
  obtain ⟨-, hdest, -⟩ := h.permitted.node.resolve_left hb
  rw [find_opens_append hopens, ← wire.node_state, hd.node (hwire hb), hdest, hprotocol]

/-- A call on a device's handle that opens and closes nothing sends to the board alone. -/
theorem ApiCall.Issues.toBoard (h : c.Issues d cmd) (hc : c.target.2 = false)
    (hl : c.lifecycle = false) : cmd.ToBoard := by
  have hread (hcmd : cmd.ReadsValue) : cmd.ToBoard := by
    obtain ⟨_, rfl⟩ := hcmd
    exact ⟨show 0xc ∈ [3, 5, 0xc, 0x103, 0x109] by decide, rfl, rfl⟩
  cases c with
  | PassThruReadVersion => exact hread h
  | PassThruSetProgrammingVoltage => exact h.elim
  | PassThruIoctl id ioctl_id input output =>
      simp only [target, decide_eq_false_iff_not] at hc
      rw [Issues, if_neg (by tauto), if_neg (by tauto)] at h
      exact hread h
  | PassThruOpen | PassThruClose | PassThruConnect => cases hl
  | _ => cases hc

/-- A call adds to its device's log what it is allowed to send. -/
def Locked.Sends (l : Locked) (c : ApiCall) (t : Locked) : Prop :=
  ∃ es, t.device.log = l.device.log ++ es ∧
    ∀ a e b, es = a ++ e :: b → e.Allowed l.device c (l.device.log ++ a)

/-- What a call sends to the board is what it issues. -/
theorem sends_of_toBoard {l t : Locked} (h : ∃ es, t.device.log = l.device.log ++ es ∧
    ∀ e ∈ es, c.Issues l.device e.command)
    (hb : ∃ es, t.device.log = l.device.log ++ es ∧ ∀ e ∈ es, e.command.ToBoard) : l.Sends c t := by
  obtain ⟨es, hlog, hes⟩ := h
  obtain ⟨es', hlog', hb⟩ := hb
  obtain rfl := List.append_cancel_left (hlog'.symm.trans hlog)
  refine ⟨es', hlog, fun a e b he => ?_⟩
  have hmem : e ∈ es' := by simp [he]
  exact ⟨(hes e hmem).permitted, absurd (hb e hmem), absurd (hb e hmem)⟩

/-- **A call sends what it is allowed to.** -/
theorem ApiCall.sends_of_exec {l t : Locked} {r : Except Exception Unit} (h : l.device.Synced)
    (hopen : c.target.2 = true → l.device.wire_channel_open = true)
    (ht : c.program.exec l = some (r, t)) : l.Sends c t := by
  have hlog := (wp_end (P := l.After c) (ApiCall.wp_after l c) ht).log
  have hissues (hc : c.connects = false) (hwire : l.device.wire_channel_open = true) : l.Sends c t := by
    obtain ⟨es, hlog, hes⟩ := hlog
    refine ⟨es, hlog, fun a e b he => (hes e (by simp [he])).allowed h hc (fun x hx => ?_) fun _ => hwire⟩
    exact hes x (by simp [he, hx])
  cases hchannel : c.target.2 with
  | true =>
      refine hissues ?_ (hopen hchannel)
      cases c with
      | PassThruConnect => cases hchannel
      | _ => rfl
  | false =>
      cases hl : c.lifecycle with
      | false =>
          have ⟨es, hes, hall⟩ := hlog
          exact sends_of_toBoard hlog ⟨es, hes, fun e he => (hall e he).toBoard hchannel hl⟩
      | true =>
          cases c with
          | PassThruOpen =>
              have ⟨es, hes, hall⟩ := hlog
              refine sends_of_toBoard hlog ⟨es, hes, fun e he => ?_⟩
              obtain ⟨opcode, hop, hcmd⟩ := hall e he
              rw [hcmd]
              refine ⟨?_, rfl, rfl⟩
              simp only [List.mem_cons, List.not_mem_nil, or_false] at hop ⊢
              omega
          | PassThruClose id =>
              cases hwire : l.device.wire_channel_open with
              | true => exact hissues rfl hwire
              | false =>
                  have hboard := wp_end (P := fun t => l.Within False False False (fun e => e.command.ToBoard) t)
                    (wp_PassThruClose_closed hwire) ht
                  exact sends_of_toBoard hlog hboard.device.log
          | PassThruConnect id protocol flags baud channel =>
              obtain ⟨es, hlog', hes⟩ := hlog
              obtain ⟨es', hlog'', hconnect⟩ := wp_end
                (P := fun t => ∃ es, t.device.log = l.device.log ++ es ∧ Connecting protocol es)
                (wp_PassThruConnect_opens l protocol flags baud) ht
              obtain rfl := List.append_cancel_left (hlog''.symm.trans hlog')
              refine ⟨es', hlog', fun a e b he => ⟨(hes e (by simp [he])).permitted, fun _ => .inl rfl,
                fun _ h6 => hconnect.current he h6⟩⟩
          | PassThruDisconnect => cases hchannel
          | _ => cases hl

end calls

/-! ## frames -/

/-- The frame of a call is that of its request. -/
def Call.Framed (call : Call) : Prop :=
  (request call.command.opcode call.allocated call.command.payload call.command.destination
    call.command.chan >>= encode) = .ok call.wire

namespace World

variable {w w' : World} {l : Label}

/-- A command stays as it was framed. -/
theorem framed_of_took {c : CallId} {s s' : Session} {call call' : Call} {a : Action}
    (h : Took c s call a s' call') (hf : call.phase.Active → call.Framed)
    (ha : call'.phase.Active) : call'.Framed := by
  cases h with
  | allocated now q wire hp hu hq hwire => exact hwire
  | known hp | knownThrows _ _ hp | late _ hp | budget _ _ hp | send _ hp | sendReturns hp | sendThrows _ hp =>
      exact hf (by rw [hp]; trivial)
  | _ => cases ha

/-- Calls that hold a sequence number have framed their requests with it. -/
theorem framed_of_step (hw : ∀ c call, w.calls c = some call → call.phase.Active → call.Framed)
    (h : w.step l = some w') : ∀ c call, w'.calls c = some call → call.phase.Active → call.Framed := by
  intro d call hcall ha
  obtain ⟨c, cmd, now, rfl, -, rfl⟩ | ⟨c, a, call₁, s, call', rfl, hc, ht, rfl⟩ |
    ⟨k, a, s, p, rfl, -, rfl⟩ | ⟨s, -, -, rfl⟩ := step_cases h
  · by_cases hd : d = c
    · subst hd
      rw [put_calls_self] at hcall
      cases hcall
      rw [Call.enter] at ha
      split at ha <;> cases ha
    · exact hw d call ((put_calls_of_ne _ _ _ hd).symm.trans hcall) ha
  · by_cases hd : d = c
    · subst hd
      rw [put_calls_self] at hcall
      cases hcall
      exact framed_of_took ht (hw d call₁ hc) ha
    · exact hw d call ((put_calls_of_ne _ _ _ hd).symm.trans hcall) ha
  · exact hw d call hcall ha
  · exact hw d call hcall ha

/-- A send gives the transport the frame of its call's request. -/
def GivesFrame (w : World) (l : Label) (_ : World) : Prop :=
  ∀ c, l = .act c .send → ∃ call, w.calls c = some call ∧ call.Framed

/-- What goes to the transport is the frame of a command. -/
theorem gives_frame (protocol : ReceiverRef → UInt32) (ls : List Label) :
    Run.Along step GivesFrame (opened protocol) ls := by
  refine Run.along_of_invariant (I := fun w => ∀ c call, w.calls c = some call → call.phase.Active → call.Framed)
    (fun _ _ _ hm hs => framed_of_step hm hs) (fun m l t hm hs c hl => ?_) fun _ _ h => (nomatch h)
  obtain ⟨d, cmd, now, rfl, -, -⟩ | ⟨d, a, call, s, call', rfl, hc, ht, -⟩ |
    ⟨k, a, s, p, rfl, -, -⟩ | ⟨s, he, -, -⟩ := step_cases hs
  · cases hl
  · cases hl
    cases ht with
    | send _ hp => exact ⟨call, hc, hm _ call hc (by rw [hp]; trivial)⟩
  · cases hl
  · rw [hl] at he
    cases he

end World

/-! ## the process -/

namespace Process

variable {p t : Process} {l : Label}

/-- What a step adds to the log of a device is what its call may send there. -/
def Sends (p : Process) (l : Label) (t : Process) : Prop :=
  ∀ ref, ∃ es, (t.objects ref).log = (p.objects ref).log ++ es ∧ ∀ a e b, es = a ++ e :: b →
    ∃ c script, l = .call c script ∧ e.Allowed (p.objects ref) c ((p.objects ref).log ++ a)

/-- What one device has sent the process has. -/
theorem sends_put {q : Process} {ref : DeviceRef} {c : ApiCall} {script : List Turn} {u : Locked}
    (hq : q.objects = p.objects) (h : (q.view ref script).Sends c u) :
    p.Sends (.call c script) (q.put ref u) := by
  intro ref'
  by_cases hr : ref' = ref
  · subst hr
    obtain ⟨es, hlog, hes⟩ := h
    rw [put_objects_self, ← hq]
    exact ⟨es, hlog, fun a e b he => ⟨c, script, rfl, hes a e b he⟩⟩
  · rw [put_objects_of_ne hr, hq]
    exact ⟨[], by simp, by simp⟩

/-- Every step sends what is permitted. -/
theorem Sound.sends (h : p.Sound) (hs : p.step l = some t) : p.Sends l t := by
  cases l with
  | call c script =>
      obtain ⟨⟨r, out, u⟩, hcall, rfl⟩ := Option.map_eq_some_iff.mp hs
      obtain ⟨-, -, -, rfl⟩ | ⟨id, rfl, hlocked⟩ | ⟨-, ref, hlookup, hlocked⟩ := call_cases hcall
      · exact fun _ => ⟨[], by simp, by simp⟩
      · obtain ⟨u, hu, -, rfl⟩ := locked_cases hlocked
        exact sends_put rfl (ApiCall.sends_of_exec (h.settled _).toSynced (fun hc => nomatch hc) hu)
      · obtain ⟨u, hu, -, rfl⟩ := locked_cases hlocked
        refine sends_put rfl (ApiCall.sends_of_exec (h.settled ref).toSynced (fun hc => ?_) hu)
        exact h.open_of_lookup (hc ▸ hlookup)
  | event ref e =>
      obtain ⟨-, hs⟩ := Option.ite_none_right_eq_some.mp hs
      obtain ⟨s, -, rfl⟩ := Option.map_eq_some_iff.mp hs
      intro ref'
      by_cases hr : ref' = ref
      · subst hr
        exact ⟨[], by simp, by simp⟩
      · exact ⟨[], by simp [Function.update_of_ne hr], by simp⟩

/-- **Only whitelisted commands and values reach the adapter.**  Every body is the frame of
its command, and every command is one that its call may send. -/
theorem whitelisted (ls : List Label) (protocol : ReceiverRef → UInt32) (ks : List Mongoose.Label) :
    Run.Along step Sends {} ls ∧
      Run.Along World.step World.GivesFrame (World.opened protocol) ks :=
  ⟨Run.along_of_invariant (fun _ _ _ hm hs => Sound.step hm hs) (fun _ _ _ hm hs => hm.sends hs)
    sound_empty, World.gives_frame protocol ks⟩

end Process

end Mongoose
