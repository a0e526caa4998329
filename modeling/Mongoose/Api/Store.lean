import Mongoose.Api.Settings

/-!
# Mongoose.Api.Store

An abstract adapter that keeps a value under each selector of each node.

A set stores its value, and a get is answered with its selector and the value stored.
Against such an adapter the sets of a SET_CONFIG assign to the cells of its entries, and the
gets of a GET_CONFIG read them.
-/

namespace Mongoose

open Prog Lifecycle
open ConfigRoute (Cell)

/-! ## the adapter -/

/-- The value under each selector of each node. -/
abbrev Store := Nat → Nat → UInt32

namespace Store

/-- A set that is carried out: a selector of 16 bits, and a value. -/
def exec (a : Store) (c : Command) : Store :=
  if c.opcode = 0xb then
    Function.update a c.destination
      (Function.update (a c.destination) (le16At c.payload 0) (UInt32.ofNat (le32At c.payload 4)))
  else a

/-- A get is accepted, and its answer carries its selector, of 8 bits, and the value stored. -/
def Answers (a : Store) (c : Command) (body : Bytes) : Prop :=
  le32At body 12 = 0 ∧ 28 ≤ body.length ∧ le32At body 20 = (c.payload.getD 0 0).toNat ∧
    le32At body 24 = (a c.destination (c.payload.getD 0 0).toNat).toNat

/-- One exchange: a command that is refused is not carried out, one that is accepted is, and
one that is left without an answer may be. -/
structure Step (a : Store) (e : Exchange) (b : Store) : Prop where
  stored : b = a ∧ e.accepted = false ∨ b = a.exec e.command ∧ (e.accepted = true ∨ e.response = none)
  answers : e.command.opcode = 0xc → ∀ body, e.response = some body → a.Answers e.command body

/-- The adapter serves one exchange after the other. -/
inductive Serves : Store → List Exchange → Store → Prop
  | nil (a : Store) : Serves a [] a
  | cons {a b c : Store} {e : Exchange} {es : List Exchange} :
      Step a e b → Serves b es c → Serves a (e :: es) c

variable {a b : Store} {e : Exchange} {es es' : List Exchange}

/-- Nothing was served. -/
theorem serves_nil_iff : Serves a [] b ↔ b = a := by
  constructor
  · rintro ⟨⟩
    rfl
  · rintro rfl
    exact .nil b

/-- One exchange before the others. -/
theorem serves_cons_iff : Serves a (e :: es) b ↔ ∃ c, Step a e c ∧ Serves c es b := by
  constructor
  · rintro (_ | ⟨he, hes⟩)
    exact ⟨_, he, hes⟩
  · rintro ⟨c, he, hes⟩
    exact .cons he hes

/-- Some exchanges before the others. -/
theorem serves_append_iff : Serves a (es ++ es') b ↔ ∃ c, Serves a es c ∧ Serves c es' b := by
  induction es generalizing a with
  | nil => simp [serves_nil_iff]
  | cons e es ih =>
      simp only [List.cons_append, serves_cons_iff, ih]
      constructor
      · rintro ⟨c, he, d, hes, hes'⟩
        exact ⟨d, ⟨c, he, hes⟩, hes'⟩
      · rintro ⟨d, ⟨c, he, hes⟩, hes'⟩
        exact ⟨c, he, d, hes, hes'⟩

/-- Only a set stores anything. -/
theorem Step.other (h : Step a e b) (hop : e.command.opcode ≠ 0xb) : b = a := by
  obtain ⟨rfl, -⟩ | ⟨rfl, -⟩ := h.stored
  · rfl
  · rw [exec, if_neg hop]

/-- What sends no set stores nothing. -/
theorem Serves.others (h : Serves a es b) (hop : ∀ e ∈ es, e.command.opcode ≠ 0xb) : b = a := by
  induction es generalizing a with
  | nil => exact serves_nil_iff.mp h
  | cons e es ih =>
      obtain ⟨c, he, hes⟩ := serves_cons_iff.mp h
      rw [ih hes fun x hx => hop x (List.mem_cons_of_mem _ hx), he.other (hop e List.mem_cons_self)]

/-- An accepted set stores. -/
theorem Step.accepted (h : Step a e b) (hacc : e.accepted = true) : b = a.exec e.command := by
  obtain ⟨-, hacc'⟩ | ⟨rfl, -⟩ := h.stored
  · cases hacc.symm.trans hacc'
  · rfl

end Store

/-! ## settings -/

/-- What the cells of a channel hold, against an adapter. -/
def Device.settings (d : Device) (r : ReceiverRef) (a : Store) : Cell → UInt32
  | .loopback => if (d.receiver_at r).loopback then 1 else 0
  | .firmware selector => a (channel_node d.protocol.toNat) selector.toNat

/-- An assignment that a command can carry: to a selector of 16 bits; and LOOPBACK is 0 or 1. -/
def Storable : Cell × UInt32 → Prop
  | (.loopback, value) => value = 0 ∨ value = 1
  | (.firmware selector, _) => selector.toNat < 65536

/-- LOOPBACK alone is the host's. -/
theorem loopback_of_mem : ∀ e ∈ can_table ++ iso_table,
    e.2.location = .HostLoopback → e.2 = host_loopback := by
  decide

/-- A value that was found valid can be stored. -/
theorem storable_of_validate {protocol : UInt32} {item : SCONFIG} {u : Cell × UInt32}
    (hvalid : config_validate_set protocol item.Parameter item.Value = .ok ())
    (hu : item.assigns protocol = some u) : Storable u := by
  obtain ⟨route, hroute, -⟩ := bind_ok hvalid
  rw [SCONFIG.assigns, hroute] at hu
  cases hu
  cases hlocation : route.location with
  | HostLoopback =>
      obtain rfl := loopback_of_mem _ (config_route_mem hroute) hlocation
      obtain ⟨-, -, hrange⟩ := (validate_ok_iff hroute).mp hvalid
      have hle : item.Value ≤ 1 := by simpa [host_loopback] using hrange
      have hle : item.Value.toNat ≤ 1 := hle
      change item.Value = 0 ∨ item.Value = 1
      simp only [← UInt32.toNat_inj, UInt32.toNat_zero, UInt32.toNat_one]
      omega
  | Firmware =>
      rw [ConfigRoute.cell, hlocation]
      exact selector_of_mem _ (config_route_mem hroute)

/-- So can all values of a valid list. -/
theorem storable_assignments {protocol : UInt32} {items : List SCONFIG}
    (hvalid : ∀ x ∈ items, config_validate_set protocol x.Parameter x.Value = .ok ()) :
    ∀ u ∈ assignments protocol items, Storable u := by
  intro u hu
  obtain ⟨item, hitem, hu⟩ := List.mem_filterMap.mp hu
  exact storable_of_validate (hvalid item hitem) hu

namespace Store

/-- What a set stores. -/
theorem exec_set (a : Store) (d : Device) {selector : UInt32} (value : UInt32)
    (hselector : selector.toNat < 65536) :
    a.exec (d.channelCommand 0xb (bytes32 selector ++ bytes32 value) 10000 0 none) =
      Function.update a (channel_node d.protocol.toNat)
        (Function.update (a (channel_node d.protocol.toNat)) selector.toNat value) := by
  have hkey : le16At (bytes32 selector ++ bytes32 value) 0 = selector.toNat := by
    rw [bytes32, List.append_assoc, le16At_bytes16 _ hselector]
  have hvalue : le32At (bytes32 selector ++ bytes32 value) 4 = value.toNat := by
    have hlt := value.toNat_lt
    simp only [bytes32, bytes16, high16, le32At, le16At, List.cons_append, List.nil_append,
      List.getD_cons_succ, List.getD_cons_zero, UInt8.toNat_ofNat']
    omega
  simp [exec, Device.channelCommand, hkey, hvalue]

variable {a b : Store} {es : List Exchange} {us : List (Cell × UInt32)} {d : Device}

/-- After the commands of some assignments a selector holds what was assigned to it last. -/
theorem Serves.assigned (hus : ∀ u ∈ us, Storable u)
    (hes : es.map Exchange.command = us.filterMap d.set_command) (hacc : ∀ e ∈ es, e.accepted = true)
    (h : Serves a es b) (selector : UInt32) :
    b (channel_node d.protocol.toNat) selector.toNat =
      (Assign.last us (.firmware selector)).getD (a (channel_node d.protocol.toNat) selector.toNat) := by
  induction us generalizing a es with
  | nil =>
      obtain rfl := List.map_eq_nil_iff.mp hes
      rw [serves_nil_iff.mp h]
      rfl
  | cons u us ih =>
      obtain ⟨hu, hus'⟩ := List.forall_mem_cons.mp hus
      obtain ⟨cell, value⟩ := u
      cases cell with
      | loopback =>
          have hset : d.set_command (.loopback, value) = none := rfl
          rw [List.filterMap_cons_none hset] at hes
          rw [ih hus' hes hacc h, Assign.last_cons, if_neg (by simp), Option.or_none]
      | firmware s =>
          have hset : d.set_command (.firmware s, value) =
            some (d.channelCommand 0xb (bytes32 s ++ bytes32 value) 10000 0 none) := rfl
          rw [List.filterMap_cons_some hset] at hes
          obtain ⟨e, es', rfl, he, hes⟩ := List.map_eq_cons_iff.mp hes
          obtain ⟨hacc, hacc'⟩ := List.forall_mem_cons.mp hacc
          obtain ⟨c, hstep, h⟩ := serves_cons_iff.mp h
          rw [ih hus' hes hacc' h, hstep.accepted hacc, he, exec_set a d value hu, Function.update_self,
            Assign.last_cons]
          cases Assign.last us (.firmware selector) with
          | some v => rfl
          | none =>
              by_cases hs : selector = s
              · simp [hs]
              · have hne : selector.toNat ≠ s.toNat := fun h => hs (UInt32.toNat_inj.mp h)
                simp [hs, Function.update_of_ne hne]

end Store

/-! ## sets -/

/-- The channel stays, and an adapter that serves what was sent holds what was assigned. -/
structure Device.Assigned (d : Device) (r : ReceiverRef) (us : List (Cell × UInt32)) (d' : Device) :
    Prop where
  channel : d'.channel = d.channel
  protocol : d'.protocol = d.protocol
  receiver : d'.receiver = d.receiver
  stored : ∃ es, d'.log = d.log ++ es ∧
    ∀ a b, Store.Serves a es b → d'.settings r b = Assign.apply (d.settings r a) us

namespace Device.Assigned

variable {d d' d'' : Device} {r : ReceiverRef} {us vs : List (Cell × UInt32)}

theorem trans (h : d.Assigned r us d') (h' : d'.Assigned r vs d'') : d.Assigned r (us ++ vs) d'' where
  channel := h'.channel.trans h.channel
  protocol := h'.protocol.trans h.protocol
  receiver := h'.receiver.trans h.receiver
  stored := by
    obtain ⟨es, hlog, hes⟩ := h.stored
    obtain ⟨es', hlog', hes'⟩ := h'.stored
    refine ⟨es ++ es', by rw [hlog', hlog, List.append_assoc], fun a b hserves => ?_⟩
    obtain ⟨c, hc, hb⟩ := Store.serves_append_iff.mp hserves
    rw [hes' c b hb, hes a c hc, Assign.apply_append]

/-- What sends no set and leaves LOOPBACK alone assigns nothing. -/
theorem of_quiet (hchannel : d'.channel = d.channel) (hprotocol : d'.protocol = d.protocol)
    (hreceiver : d'.receiver = d.receiver)
    (hloopback : (d'.receiver_at r).loopback = (d.receiver_at r).loopback)
    (hlog : ∃ es, d'.log = d.log ++ es ∧ ∀ e ∈ es, e.command.opcode ≠ 0xb) : d.Assigned r [] d' := by
  obtain ⟨es, hlog, hes⟩ := hlog
  refine ⟨hchannel, hprotocol, hreceiver, es, hlog, fun a b h => ?_⟩
  funext cell
  cases cell with
  | loopback => simp [settings, hloopback]
  | firmware selector => simp [settings, hprotocol, h.others hes]

/-- A set that is carried out assigns what its entries say. -/
theorem of_applied (h : d.Applied r us none d') (hus : ∀ u ∈ us, Storable u) : d.Assigned r us d' := by
  obtain ⟨es, hlog, hes, hacc⟩ := h.log
  refine ⟨h.channel, h.protocol, h.receiver, es, by simpa using hlog, fun a b hserves => ?_⟩
  funext cell
  rw [Assign.apply_eq]
  cases cell with
  | firmware selector =>
      simp only [settings, h.protocol]
      exact hserves.assigned hus hes hacc selector
  | loopback =>
      simp only [settings, h.loopback]
      cases hlast : Assign.last us Cell.loopback with
      | none => rfl
      | some value =>
          have hmem : (Cell.loopback, value) ∈ us := Assign.mem_of_last hlast
          obtain rfl | rfl : value = 0 ∨ value = 1 := hus _ hmem
          · rfl
          · rfl

end Device.Assigned

/-! ## gets -/

/-- The command that reads a cell, if it is the firmware's. -/
def Device.get_command (d : Device) : Cell → Option Command
  | .loopback => none
  | .firmware selector => some (d.channelCommand 0xc [UInt8.ofNat selector.toNat, 0, 0, 0] 10000 0 none)

/-- A selector fits the byte that a get has for it. -/
theorem get_selector_of_mem : ∀ e ∈ can_table ++ iso_table, e.2.selector.toNat < 256 := by
  decide

/-- What the adapter answers is the value it holds. -/
theorem value_of_answers {a : Store} {cmd : Command} {body : Bytes} (h : a.Answers cmd body) :
    value_of body (cmd.payload.getD 0 0).toNat =
      .ok (a cmd.destination (cmd.payload.getD 0 0).toNat).toNat := by
  obtain ⟨hstatus, hlen, hselector, hvalue⟩ := h
  have haccepted : accepted body = .ok () := (accepted_ok_iff (by omega)).mpr hstatus
  rw [value_of, haccepted]
  change (if body.length < 28 then _ else _) = _
  rw [if_neg (by omega), le32_of_le (by omega)]
  change (if le32At body 20 ≠ _ then _ else _) = _
  rw [if_neg (not_not_intro hselector), le32_of_le (by omega), hvalue]

/-- These cells were read in order, and then perhaps one more get was sent, without success. -/
structure Locked.Reads (l : Locked) (r : ReceiverRef) (cells : List Cell) (o : Option Exchange)
    (t : Locked) : Prop where
  protocol : t.device.protocol = l.device.protocol
  receiver : t.device.receiver = l.device.receiver
  loopback : (t.device.receiver_at r).loopback = (l.device.receiver_at r).loopback
  read : ∃ es vs, t.device.log = l.device.log ++ es ++ o.toList ∧ t.out.values = l.out.values ++ vs ∧
    es.map Exchange.command = cells.filterMap l.device.get_command ∧
    ∀ a b, Store.Serves a es b → b = a ∧ vs = cells.map (l.device.settings r a)

/-- The get of a cell took a turn that did not send it, or it was sent and an adapter that
serves it does not answer it. -/
def Device.Unread (d : Device) (cell : Cell) (o : Option Exchange) (turn : Option Turn) : Prop :=
  ∃ cmd, d.get_command cell = some cmd ∧ Turn.Commands turn o.isSome ∧
    ∀ e, o = some e → e.command = cmd ∧ ∀ a b : Store, a.Step e b → e.response = none

/-- A get depends on the protocol alone. -/
theorem Device.get_command_eq {d d' : Device} (h : d'.protocol = d.protocol) :
    d'.get_command = d.get_command := by
  funext cell
  cases cell <;> simp [get_command, channelCommand, h]

namespace Locked.Reads

variable {l m t : Locked} {r : ReceiverRef} {cells rest : List Cell} {o : Option Exchange}

/-- Nothing was read. -/
theorem refl (l : Locked) (r : ReceiverRef) : l.Reads r [] none l :=
  ⟨rfl, rfl, rfl, [], [], by simp, by simp, rfl, fun _ _ h => ⟨Store.serves_nil_iff.mp h, rfl⟩⟩

/-- One get that failed. -/
theorem failed (ht : l.Commanded t o.toList)
    (hloopback : (t.device.receiver_at r).loopback = (l.device.receiver_at r).loopback) :
    l.Reads r [] o t := by
  have hmoved := ht.moved.eq
  refine ⟨by rw [hmoved], by rw [hmoved], hloopback, [], [], by rw [hmoved]; simp, ?_, rfl, fun a b h => ?_⟩
  · rw [ht.kept.out, List.append_nil]
  · exact ⟨Store.serves_nil_iff.mp h, rfl⟩

theorem trans (h : l.Reads r cells none m) (h' : m.Reads r rest o t) : l.Reads r (cells ++ rest) o t where
  protocol := h'.protocol.trans h.protocol
  receiver := h'.receiver.trans h.receiver
  loopback := h'.loopback.trans h.loopback
  read := by
    obtain ⟨es, vs, hlog, hvalues, hes, hserves⟩ := h.read
    obtain ⟨es', vs', hlog', hvalues', hes', hserves'⟩ := h'.read
    have hsettings : m.device.settings r = l.device.settings r := by
      funext a cell
      cases cell <;> simp [Device.settings, h.protocol, h.loopback]
    refine ⟨es ++ es', vs ++ vs', by simp [hlog', hlog], by simp [hvalues', hvalues], ?_, fun a b hab => ?_⟩
    · rw [List.map_append, List.filterMap_append, hes, hes', Device.get_command_eq h.protocol]
    · obtain ⟨c, hac, hcb⟩ := Store.serves_append_iff.mp hab
      obtain ⟨rfl, rfl⟩ := hserves a c hac
      obtain ⟨rfl, rfl⟩ := hserves' c b hcb
      exact ⟨rfl, by rw [List.map_append, hsettings]⟩

end Locked.Reads

/-- A get that is answered, or not sent, or left without an answer. -/
theorem wp_get_firmware {l : Locked} {r : ReceiverRef} {payload : Bytes} :
    wp (channel_command 0xc payload)
      (fun body t => (∃ q, l.Commanded t [⟨l.device.channelCommand 0xc payload 10000 0 none, q, some body⟩]) ∧
        (t.device.receiver_at r).loopback = (l.device.receiver_at r).loopback)
      (fun _ t => ∃ o : Option Exchange, (l.Commanded t o.toList ∧ ∀ e, o = some e →
          e.command = l.device.channelCommand 0xc payload 10000 0 none ∧ e.response = none) ∧
        (t.device.receiver_at r).loopback = (l.device.receiver_at r).loopback) l := by
  have hcommand : wp (channel_command 0xc payload)
      (fun body t => ∃ q, l.Commanded t [⟨l.device.channelCommand 0xc payload 10000 0 none, q, some body⟩])
      (fun _ t => ∃ o : Option Exchange, l.Commanded t o.toList ∧ ∀ e, o = some e →
        e.command = l.device.channelCommand 0xc payload 10000 0 none ∧ e.response = none) l :=
    wp_channel_command (fun _ q _ ht _ _ => ⟨q, ht⟩) (fun _ _ ht => ⟨none, ht, fun _ h => (nomatch h)⟩)
      fun _ _ q ht _ _ => ⟨some _, ht, fun e he => by cases he; exact ⟨rfl, rfl⟩⟩
  have hloopback := Locked.enduring_loopback fun q => (l.device.receiver_at q).loopback
  refine wp_mono (wp_and hcommand (hloopback.keeps_channel_command (by simp) l fun _ => rfl)) ?_ ?_
  · exact fun _ _ ht => ⟨ht.1, ht.2 r⟩
  · exact fun _ _ ⟨⟨o, ho⟩, ht⟩ => ⟨o, ho, ht r⟩

/-- A readable entry is read, or its get fails. -/
theorem wp_config_item_get {l : Locked} {r : ReceiverRef} {item : SCONFIG} {route : ConfigRoute}
    (hr : l.device.receiver = some r) (hroute : config_route l.device.protocol item.Parameter = .ok route) :
    wp (config_item GET_CONFIG item)
      (fun _ t => l.Reads r [route.cell] none t ∧
        t.script = l.script.drop ([route.cell].filterMap l.device.get_command).length)
      (fun _ t => ∃ o, l.Reads r [] o t ∧ l.device.Unread route.cell o l.script[0]?) l := by
  rw [config_item]
  simp only [wp_bind, wp_read, hroute, wp_of, Except.ok.injEq, forall_eq', reduceCtorEq, false_implies,
    implies_true, and_true, if_true, hr]
  cases hlocation : route.location with
  | HostLoopback =>
      have hcell : route.cell = .loopback := by rw [ConfigRoute.cell, hlocation]
      rw [hcell]
      refine (wp_output _).mpr ⟨⟨rfl, rfl, rfl, [], _, by simp, rfl, rfl, fun a b h => ?_⟩, rfl⟩
      exact ⟨Store.serves_nil_iff.mp h, by simp [Device.settings]⟩
  | Firmware =>
      have hcell : route.cell = .firmware route.selector := by rw [ConfigRoute.cell, hlocation]
      have hselector := get_selector_of_mem _ (config_route_mem hroute)
      let cmd := l.device.channelCommand 0xc [UInt8.ofNat route.selector.toNat, 0, 0, 0] 10000 0 none
      rw [hcell]
      simp only [wp_bind, wp_of, wp_output]
      refine wp_mono (wp_get_firmware (r := r)) (fun body t ht => ?_) fun _ t ht => ?_
      · obtain ⟨⟨q, ht⟩, hloopback⟩ := ht
        have hmoved := ht.moved.eq
        -- the exchange of an adapter that holds the value
        have hanswers {a b : Store} (hab : a.Step ⟨cmd, q, some body⟩ b) :
            value_of body route.selector.toNat =
              .ok (a (channel_node l.device.protocol.toNat) route.selector.toNat).toNat := by
          have hvalue := value_of_answers (hab.answers rfl body rfl)
          simpa [cmd, Device.channelCommand, Nat.mod_eq_of_lt hselector] using hvalue
        refine ⟨fun value hvalue => ?_, fun e he => ?_⟩
        · refine ⟨⟨by rw [hmoved], by rw [hmoved], hloopback, [⟨cmd, q, some body⟩],
            [UInt32.ofNat value], ?_, ?_, rfl, fun a b hab => ?_⟩, ht.script⟩
          · rw [hmoved]
            simp [cmd]
          · rw [ht.kept.out]
          · obtain ⟨c, hstep, hcb⟩ := Store.serves_cons_iff.mp hab
            have hc := hstep.other (by simp [cmd, Device.channelCommand])
            refine ⟨(Store.serves_nil_iff.mp hcb).trans hc, ?_⟩
            have hvalue := Except.ok.inj (hvalue.symm.trans (hanswers hstep))
            simp [Device.settings, hvalue]
        · refine ⟨some _, .failed ht hloopback, _, rfl, ht.commands, fun x hx => ?_⟩
          cases hx
          exact ⟨rfl, fun a b hab => by cases he.symm.trans (hanswers hab)⟩
      · obtain ⟨o, ⟨ht, ho⟩, hloopback⟩ := ht
        exact ⟨o, .failed ht hloopback, _, rfl, ht.commands,
          fun e he => ⟨(ho e he).1, fun _ _ _ => (ho e he).2⟩⟩

/-- The cells of a list's entries. -/
def cells (protocol : UInt32) (items : List SCONFIG) : List Cell :=
  items.filterMap fun item => (item.assigns protocol).map Prod.fst

/-- An entry of a known parameter assigns its value to the cell. -/
theorem assigns_of_route {protocol : UInt32} {item : SCONFIG} {route : ConfigRoute}
    (h : config_route protocol item.Parameter = .ok route) :
    item.assigns protocol = some (route.cell, item.Value) := by
  rw [SCONFIG.assigns, h]

/-- One entry before the others. -/
theorem cells_cons {protocol : UInt32} {item : SCONFIG} {route : ConfigRoute}
    (h : config_route protocol item.Parameter = .ok route) (items : List SCONFIG) :
    cells protocol (item :: items) = [route.cell] ++ cells protocol items := by
  simp [cells, assigns_of_route h]

/-- Readable entries are read up to the first whose get fails. -/
theorem wp_config_items_get {l : Locked} {r : ReceiverRef} {items : List SCONFIG}
    (hr : l.device.receiver = some r)
    (hread : ∀ x ∈ items, ∃ route, config_route l.device.protocol x.Parameter = .ok route) :
    wp (config_items GET_CONFIG items)
      (fun _ => l.Reads r (cells l.device.protocol items) none)
      (fun _ t => ∃ done item rest route o, items = done ++ item :: rest ∧
        config_route l.device.protocol item.Parameter = .ok route ∧
        l.Reads r (cells l.device.protocol done) o t ∧ l.device.Unread route.cell o
          l.script[((cells l.device.protocol done).filterMap l.device.get_command).length]?) l := by
  induction items generalizing l with
  | nil => exact (wp_pure _).mpr (.refl l r)
  | cons item items ih =>
      obtain ⟨route, hroute⟩ := hread item List.mem_cons_self
      rw [config_items, wp_bind]
      refine wp_mono (wp_config_item_get hr hroute) (fun _ m hm => ?_) fun _ t ht => ?_
      · obtain ⟨hm, hscript⟩ := hm
        refine wp_mono (ih (hm.receiver.trans hr) ?_) (fun _ t ht => ?_) fun _ t ht => ?_
        · rw [hm.protocol]
          exact fun x hx => hread x (List.mem_cons_of_mem _ hx)
        · rw [hm.protocol] at ht
          rw [cells_cons hroute]
          exact hm.trans ht
        · obtain ⟨done, x, rest, route', o, rfl, hroute', ht, ho⟩ := ht
          rw [hm.protocol] at hroute' ht ho
          refine ⟨item :: done, x, rest, route', o, rfl, hroute', ?_, ?_⟩
          · rw [cells_cons hroute]
            exact hm.trans ht
          · rw [Device.Unread, Device.get_command_eq hm.protocol, hscript, List.getElem?_drop] at ho
            rwa [cells_cons hroute, List.filterMap_append, List.length_append]
      · obtain ⟨o, ht, ho⟩ := ht
        exact ⟨[], item, items, route, o, rfl, hroute, ht, ho⟩

end Mongoose
