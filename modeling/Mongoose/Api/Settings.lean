import Mongoose.Api.Steady
import Mongoose.Api.Whitelist
import Mongoose.Lib.Assign

/-!
# Mongoose.Api.Settings

What SET_CONFIG does to a channel.

A set validates every entry of its list, and then applies them one by one: LOOPBACK to the
channel's receiver, any other parameter to the firmware by a command.  So a list is a list
of assignments to the cells that hold parameters, and a set carries out all of them, or
those before the first command that is not accepted.
-/

namespace Mongoose

open Prog Lifecycle

/-! ## cells -/

namespace ConfigRoute

/-- What holds a parameter: the channel's receiver, or the firmware under a selector. -/
inductive Cell
  | loopback
  | firmware (selector : UInt32)
  deriving DecidableEq, Repr

def cell (route : ConfigRoute) : Cell :=
  match route.location with
  | .HostLoopback => .loopback
  | .Firmware => .firmware route.selector

end ConfigRoute

open ConfigRoute (Cell)

/-- The value an entry assigns to the cell of its parameter. -/
def SCONFIG.assigns (protocol : UInt32) (item : SCONFIG) : Option (Cell × UInt32) :=
  match config_route protocol item.Parameter with
  | .error _ => none
  | .ok route => some (route.cell, item.Value)

def assignments (protocol : UInt32) (items : List SCONFIG) : List (Cell × UInt32) :=
  items.filterMap (SCONFIG.assigns protocol)

theorem assignments_cons (protocol : UInt32) (item : SCONFIG) (items : List SCONFIG) :
    assignments protocol (item :: items) = assignments protocol [item] ++ assignments protocol items :=
  List.filterMap_append (l := [item])

/-- The command that carries out an assignment, if it is the firmware's. -/
def Device.set_command (d : Device) : Cell × UInt32 → Option Command
  | (.loopback, _) => none
  | (.firmware selector, value) =>
      some (d.channelCommand 0xb (bytes32 selector ++ bytes32 value) 10000 0 none)

/-! ## receivers -/

/-- A function of a receiver changes that receiver alone. -/
theorem Live.receivers_of_client {s t : Live} {r : ReceiverRef} {op : ReceiverOp}
    (h : s.run [.client r op] = some t) : t.session.receivers =
      Function.update s.session.receivers r (op.apply (s.session.receivers r)) := by
  have hw : s.world.step (.client r op) = some t.world := by
    simpa [Run.run_cons_iff] using Live.run_eq_some h
  simp only [World.step, World.environment, Option.map_some, Option.some.injEq] at hw
  rw [Live.session, ← hw]
  rfl

/-- A session's plain steps leave LOOPBACK of its receivers. -/
theorem Live.loopback_of_run {s t : Live} {ls : List Label} (hls : ∀ l ∈ ls, l.Plain)
    (h : s.run ls = some t) (r : ReceiverRef) :
    (t.session.receivers r).loopback = (s.session.receivers r).loopback := by
  obtain ⟨ks, hks⟩ := s.reached
  exact World.sameLoopback_run (World.proper_of_run hks) (fun l hl => (hls l hl).2) (Live.run_eq_some h) r

/-- Whoever has it keeps LOOPBACK as it is, but for a set. -/
theorem Locked.enduring_loopback (f : ReceiverRef → Bool) :
    Locked.Enduring fun l => ∀ r, (l.device.receiver_at r).loopback = f r where
  congr h hs _ _ _ _ := by
    intro r
    rw [← h r, Device.receiver_at, hs, Device.receiver_at]
  run h hls hs := fun r => (Live.loopback_of_run hls hs r).trans (h r)
  taken _ _ _ _ ht := ht
  made h := h
  published _ _ _ h := h
  retired h := h

/-- An open channel has a receiver, which was made before, and LOOPBACK of the receivers
still to be made is off. -/
structure Device.Tuned (d : Device) : Prop where
  receiver : d.channel ≠ 0 → d.receiver ≠ none
  made : ∀ r, d.receiver = some r → r / 2 < d.receivers
  fresh : ∀ r, d.receivers ≤ r / 2 → (d.receiver_at r).loopback = false

namespace Locked

theorem enduring_tuned : Locked.Enduring fun l => l.device.Tuned where
  congr h hs hrs hr hc _ := by
    refine ⟨?_, ?_, ?_⟩
    · rw [hc, hr]
      exact h.receiver
    · rw [hr, hrs]
      exact h.made
    · intro r hr'
      rw [Device.receiver_at, hs]
      exact h.fresh r (hrs ▸ hr')
  run h hls hs := ⟨h.receiver, h.made, fun r hr => (Live.loopback_of_run hls hs r).trans (h.fresh r hr)⟩
  taken _ _ _ _ ht := ht
  made h := ⟨h.receiver, fun r hr => Nat.lt_succ_of_lt (h.made r hr),
    fun r hr => h.fresh r (Nat.le_of_succ_le hr)⟩
  published _ r hr h := ⟨fun _ => Option.some_ne_none r, fun _ hr' => Option.some.inj hr' ▸ hr, h.fresh⟩
  retired h := ⟨fun h => absurd rfl h, fun _ h => (nomatch h), h.fresh⟩

theorem settable_tuned : Locked.Settable fun l => l.device.Tuned := by
  intro l r enabled s hr h hs
  refine ⟨h.receiver, h.made, fun q hq => ?_⟩
  have hne : q ≠ r := by
    rintro rfl
    exact absurd (h.made q hr) (Nat.not_lt.mpr hq)
  rw [Device.receiver_at, Live.receivers_of_client hs, Function.update_of_ne hne]
  exact h.fresh q hq

end Locked

/-- The devices of every run are so. -/
theorem Process.tuned_run {p : Process} {ls : List Process.Label} (h : Run.run Process.step {} ls = some p)
    (ref : DeviceRef) : (p.objects ref).Tuned :=
  devices_run (D := Device.Tuned) Locked.enduring_tuned Locked.settable_tuned
    ⟨fun h => absurd rfl h, fun _ h => (nomatch h), fun _ _ => rfl⟩ h ref

/-! ## a set -/

/-- These assignments were carried out in order on the channel of receiver `r`, and then
perhaps one more command was sent, which was not accepted. -/
structure Device.Applied (d : Device) (r : ReceiverRef) (us : List (Cell × UInt32)) (o : Option Exchange)
    (d' : Device) : Prop where
  channel : d'.channel = d.channel
  protocol : d'.protocol = d.protocol
  receiver : d'.receiver = d.receiver
  log : ∃ es, d'.log = d.log ++ es ++ o.toList ∧
    es.map Exchange.command = us.filterMap d.set_command ∧ ∀ e ∈ es, e.accepted = true
  loopback : (d'.receiver_at r).loopback =
    ((Assign.last us .loopback).map (decide <| · ≠ 0)).getD (d.receiver_at r).loopback
  others : ∀ q ≠ r, (d'.receiver_at q).loopback = (d.receiver_at q).loopback

/-- A turn of a script is that of a command, which is sent in it or is not. -/
def Turn.Commands (turn : Option Turn) (sent : Bool) : Prop :=
  ∃ now steps, turn = some (.command now steps) ∧ (sent = true ↔ steps.any Step.sends = true)

/-- The command of an assignment took a turn that did not send it, or it was sent and not
accepted. -/
def Device.Refused (d : Device) (u : Cell × UInt32) (o : Option Exchange) (turn : Option Turn) : Prop :=
  ∃ cmd, d.set_command u = some cmd ∧ Turn.Commands turn o.isSome ∧
    ∀ e, o = some e → e.command = cmd ∧ e.accepted = false

/-- A command takes the first turn of a script. -/
theorem Locked.Commanded.script {l t : Locked} {es : List Exchange} (h : l.Commanded t es) :
    t.script = l.script.drop 1 := by
  obtain ⟨now, steps, hscript, -⟩ := h.turn
  rw [hscript]
  rfl

theorem Locked.Commanded.commands {l t : Locked} {o : Option Exchange} (h : l.Commanded t o.toList) :
    Turn.Commands l.script[0]? o.isSome := by
  obtain ⟨now, steps, hscript, hsends⟩ := h.turn
  refine ⟨now, steps, by rw [hscript]; rfl, ?_⟩
  cases o <;> simpa using hsends

theorem Device.set_command_eq {d d' : Device} (h : d'.protocol = d.protocol) :
    d'.set_command = d.set_command := by
  funext u
  obtain ⟨cell, value⟩ := u
  cases cell <;> simp [set_command, channelCommand, h]

namespace Device.Applied

variable {d d' d'' : Device} {r : ReceiverRef} {us vs : List (Cell × UInt32)} {o : Option Exchange}

theorem refl (d : Device) (r : ReceiverRef) : d.Applied r [] none d :=
  ⟨rfl, rfl, rfl, ⟨[], by simp, rfl, by simp⟩, rfl, fun _ _ => rfl⟩

theorem trans (h : d.Applied r us none d') (h' : d'.Applied r vs o d'') : d.Applied r (us ++ vs) o d'' where
  channel := h'.channel.trans h.channel
  protocol := h'.protocol.trans h.protocol
  receiver := h'.receiver.trans h.receiver
  log := by
    obtain ⟨es, hlog, hes, hacc⟩ := h.log
    obtain ⟨es', hlog', hes', hacc'⟩ := h'.log
    refine ⟨es ++ es', by simp [hlog', hlog], ?_, fun e he => ?_⟩
    · rw [List.map_append, List.filterMap_append, hes, hes', Device.set_command_eq h.protocol]
    · exact (List.mem_append.mp he).elim (hacc e) (hacc' e)
  loopback := by
    rw [h'.loopback, h.loopback, Assign.last_append]
    cases Assign.last vs .loopback <;> rfl
  others q hq := (h'.others q hq).trans (h.others q hq)

end Device.Applied

/-- A command of the channel that carries an assignment out, or does not. -/
theorem wp_set_firmware {l : Locked} {r : ReceiverRef} {selector value : UInt32} :
    wp (accepted_command 0xb (bytes32 selector ++ bytes32 value))
      (fun _ t => l.device.Applied r [(.firmware selector, value)] none t.device ∧
        t.script = l.script.drop 1)
      (fun _ t => ∃ o, l.device.Applied r [] o t.device ∧
        l.device.Refused (.firmware selector, value) o l.script[0]?) l := by
  let cmd := l.device.channelCommand 0xb (bytes32 selector ++ bytes32 value) 10000 0 none
  have hcommand : wp (accepted_command 0xb (bytes32 selector ++ bytes32 value))
      (fun _ t => ∃ e, l.Commanded t [e] ∧ e.command = cmd ∧ e.accepted = true)
      (fun _ t => ∃ o, l.Commanded t o.toList ∧
        l.device.Refused (.firmware selector, value) o l.script[0]?) l :=
    wp_accepted_command (by decide) (fun _ e ht he hacc _ => ⟨e, ht, he, hacc⟩)
      fun _ _ o ht ho => ⟨o, ht, cmd, rfl, ht.commands, fun e he => ⟨(ho e he).1, (ho e he).2.1⟩⟩
  have hloopback := Locked.enduring_loopback fun q => (l.device.receiver_at q).loopback
  refine wp_mono (wp_and hcommand (hloopback.keeps_accepted_command l fun _ => rfl)) ?_ ?_
  · rintro _ t ⟨⟨e, ht, he, hacc⟩, hsame⟩
    have hmoved := ht.moved.eq
    refine ⟨⟨by rw [hmoved], by rw [hmoved], by rw [hmoved],
      ⟨[e], by rw [hmoved]; simp, ?_, by simpa using hacc⟩, hsame r, fun q _ => hsame q⟩, ht.script⟩
    simp [he, Device.set_command, cmd]
  · rintro _ t ⟨⟨o, ht, ho⟩, hsame⟩
    have hmoved := ht.moved.eq
    exact ⟨o, ⟨by rw [hmoved], by rw [hmoved], by rw [hmoved], ⟨[], by rw [hmoved]; simp, rfl, by simp⟩,
      hsame r, fun q _ => hsame q⟩, ho⟩

/-- An entry that was found valid is carried out, or its command is not accepted. -/
theorem wp_config_item_set {l : Locked} {r : ReceiverRef} {item : SCONFIG} (hr : l.device.receiver = some r)
    (hvalid : config_validate_set l.device.protocol item.Parameter item.Value = .ok ()) :
    wp (config_item SET_CONFIG item)
      (fun _ t => l.device.Applied r (assignments l.device.protocol [item]) none t.device ∧
        t.script = l.script.drop ((assignments l.device.protocol [item]).filterMap l.device.set_command).length)
      (fun _ t => ∃ u o, item.assigns l.device.protocol = some u ∧ l.device.Applied r [] o t.device ∧
        l.device.Refused u o l.script[0]?) l := by
  obtain ⟨route, hroute, -⟩ := bind_ok hvalid
  have hassigns : item.assigns l.device.protocol = some (route.cell, item.Value) := by
    rw [SCONFIG.assigns, hroute]
  have hone : assignments l.device.protocol [item] = [(route.cell, item.Value)] := by
    simp [assignments, hassigns]
  have hset : SET_CONFIG ≠ GET_CONFIG := by decide
  rw [config_item]
  simp only [wp_bind, wp_read, hroute, wp_of, Except.ok.injEq, forall_eq', reduceCtorEq, false_implies,
    implies_true, and_true, if_neg hset, hr, hassigns, hone]
  cases hlocation : route.location with
  | HostLoopback =>
      have hcell : route.cell = .loopback := by rw [ConfigRoute.cell, hlocation]
      rw [hcell]
      refine wp_perform fun s hs => ?_
      have hreceivers := Live.receivers_of_client hs
      refine ⟨⟨rfl, rfl, rfl, ⟨[], by simp, rfl, by simp⟩, ?_, fun q hq => ?_⟩, rfl⟩
      · simp [Device.receiver_at, hreceivers, ReceiverOp.apply, CanReceiver.set_loopback, Assign.last_cons]
      · simp [Device.receiver_at, hreceivers, Function.update_of_ne hq]
  | Firmware =>
      have hcell : route.cell = .firmware route.selector := by rw [ConfigRoute.cell, hlocation]
      simp only [hcell, wp_bind, wp_of, set_payload_eq hroute, Except.ok.injEq, forall_eq', reduceCtorEq,
        false_implies, implies_true, and_true]
      refine wp_mono wp_set_firmware (fun _ _ ht => ht) fun _ t ht => ?_
      obtain ⟨o, ht, ho⟩ := ht
      exact ⟨_, o, rfl, ht, ho⟩

/-- Entries that were found valid are carried out up to the first whose command is not accepted. -/
theorem wp_config_items_set {l : Locked} {r : ReceiverRef} {items : List SCONFIG}
    (hr : l.device.receiver = some r)
    (hvalid : ∀ x ∈ items, config_validate_set l.device.protocol x.Parameter x.Value = .ok ()) :
    wp (config_items SET_CONFIG items)
      (fun _ t => l.device.Applied r (assignments l.device.protocol items) none t.device)
      (fun _ t => ∃ done item rest u o, items = done ++ item :: rest ∧
        item.assigns l.device.protocol = some u ∧
        l.device.Applied r (assignments l.device.protocol done) o t.device ∧ l.device.Refused u o
          l.script[((assignments l.device.protocol done).filterMap l.device.set_command).length]?) l := by
  induction items generalizing l with
  | nil => exact (wp_pure _).mpr (.refl l.device r)
  | cons item items ih =>
      rw [config_items, wp_bind]
      refine wp_mono (wp_config_item_set hr (hvalid item List.mem_cons_self)) (fun _ m hm => ?_) ?_
      · obtain ⟨hm, hscript⟩ := hm
        refine wp_mono (ih (hm.receiver.trans hr) ?_) (fun _ t ht => ?_) ?_
        · rw [hm.protocol]
          exact fun x hx => hvalid x (List.mem_cons_of_mem _ hx)
        · rw [hm.protocol] at ht
          rw [assignments_cons]
          exact hm.trans ht
        · rintro _ t ⟨done, x, rest, u, o, rfl, hu, ht, ho⟩
          rw [hm.protocol] at hu ht ho
          refine ⟨item :: done, x, rest, u, o, rfl, hu, ?_, ?_⟩
          · rw [assignments_cons]
            exact hm.trans ht
          · rw [Device.Refused, Device.set_command_eq hm.protocol, hscript, List.getElem?_drop] at ho
            rwa [assignments_cons, List.filterMap_append, List.length_append]
      · rintro _ t ⟨u, o, hu, ht, ho⟩
        exact ⟨[], item, items, u, o, rfl, hu, ht, ho⟩

/-- A loop throws what the first of its bodies to throw does. -/
theorem forM_eq_error_iff {α : Type} {f : α → Except Exception Unit} {xs : List α} {e : Exception} :
    xs.forM f = .error e ↔
      ∃ before x after, xs = before ++ x :: after ∧ (∀ y ∈ before, f y = .ok ()) ∧ f x = .error e := by
  constructor
  · intro h
    induction xs with
    | nil => cases h
    | cons x xs ih =>
        rw [List.forM_eq_forM, List.forM_cons] at h
        cases hx : f x with
        | error e' =>
            rw [hx] at h
            cases h
            exact ⟨[], x, xs, rfl, by simp, hx⟩
        | ok u =>
            rw [hx] at h
            obtain ⟨before, y, after, rfl, hbefore, hy⟩ := ih h
            exact ⟨x :: before, y, after, rfl, List.forall_mem_cons.mpr ⟨hx, hbefore⟩, hy⟩
  · rintro ⟨before, x, after, rfl, hbefore, hx⟩
    induction before with
    | nil =>
        rw [List.nil_append, List.forM_eq_forM, List.forM_cons, hx]
        rfl
    | cons y before ih =>
        obtain ⟨hy, hbefore⟩ := List.forall_mem_cons.mp hbefore
        rw [List.cons_append, List.forM_eq_forM, List.forM_cons, hy]
        exact ih hbefore

/-- A list that is well formed, on a channel that need not be opened again. -/
theorem wp_config_ioctl {l : Locked} {ioctl_id n : UInt32} {items : List SCONFIG} {Q : Unit → Locked → Prop}
    {E : Exception → Locked → Prop} (hready : l.device.reopen_required = false) (hn : 1 ≤ n) (hn' : n ≤ 50)
    (hlen : n.toNat ≤ items.length)
    (hinvalid : ioctl_id = SET_CONFIG → ∀ e, (items.take n.toNat).forM
      (fun item => config_validate_set l.device.protocol item.Parameter item.Value) = .error e → E e l)
    (hvalid : (ioctl_id = SET_CONFIG → ∀ x ∈ items.take n.toNat,
        config_validate_set l.device.protocol x.Parameter x.Value = .ok ()) →
      wp (config_items ioctl_id (items.take n.toNat)) Q E l) :
    wp (config_ioctl ioctl_id (some ⟨n, some items⟩) false) Q E l := by
  have hn0 : ¬ (n = 0 ∨ n > 50) := by
    rintro (rfl | hgt)
    · exact absurd hn (by decide)
    · exact absurd hn' (UInt32.not_le.mpr hgt)
  rw [config_ioctl, Mongoose.session]
  simp only [wp_bind, wp_read, wp_throw_if, wp_when, wp_of, hready, Bool.false_eq_true, false_implies,
    not_false_iff, true_implies, true_and, hn0, Nat.not_lt.mpr hlen]
  exact ⟨fun hset => ⟨fun _ h => hvalid fun _ => forM_ok h, hinvalid hset⟩,
    fun hset => hvalid fun h => absurd h hset⟩

/-- A set that succeeds had a list that is well formed and valid, and carried it out. -/
theorem wp_config_ioctl_set {l : Locked} {r : ReceiverRef} {input : Option SCONFIG_LIST} {output : Bool}
    (hr : l.device.receiver = some r) :
    wp (config_ioctl SET_CONFIG input output) (fun _ t => ∃ n items, input = some ⟨n, some items⟩ ∧
      (∀ x ∈ items.take n.toNat, config_validate_set l.device.protocol x.Parameter x.Value = .ok ()) ∧
      l.device.Applied r (assignments l.device.protocol (items.take n.toNat)) none t.device)
      (fun _ _ => True) l := by
  match input with
  | none => simp [config_ioctl, Mongoose.session, required]
  | some ⟨n, none⟩ => simp [config_ioctl, Mongoose.session, required]
  | some ⟨n, some items⟩ =>
      rw [config_ioctl, Mongoose.session]
      simp only [wp_bind, wp_read, wp_throw_if, wp_when, wp_of, wp_refuse, implies_true, true_and, and_true]
      intro _ _ _ _
      refine ⟨fun _ _ hvalid => ?_, fun h => absurd trivial h⟩
      exact wp_mono (wp_config_items_set hr (forM_ok hvalid))
        (fun _ t ht => ⟨n, items, rfl, forM_ok hvalid, ht⟩) fun _ _ _ => trivial

/-! ## the process -/

namespace Process

variable {p p' : Process} {ref : DeviceRef} {id n : UInt32} {items : List SCONFIG} {script : List Turn}
  {r : Except Exception Unit} {out : Out}

/-- An open channel has a receiver. -/
theorem receiver_of_lookup {ls : List Label} (hp : Run.run step {} ls = some p)
    (hlookup : p.lookup id true = .ok ref) : ∃ receiver, (p.objects ref).receiver = some receiver := by
  obtain ⟨hid, -, hchannel⟩ := lookup_ok hlookup
  have hne : id ≠ 0 := ((sound_run hp).fresh.allocated _ _ hid).1
  refine Option.ne_none_iff_exists'.mp ((tuned_run hp ref).receiver ?_)
  rwa [(hchannel rfl).resolve_left hne]

/-- **A set validates every entry or changes nothing, and applies them in order.**  It ends
with the error of the first entry that is not valid, and the process as it was.  A valid list
is carried out whole, or up to the first entry whose command is not accepted, or is not sent
in the turn that the script has for it. -/
theorem set_config_in_order {ls : List Label} (hp : Run.run step {} ls = some p)
    (hlookup : p.lookup id true = .ok ref) (hready : (p.objects ref).reopen_required = false)
    (hn : 1 ≤ n) (hn' : n ≤ 50) (hlen : n.toNat ≤ items.length)
    (hc : p.call script (.PassThruIoctl id SET_CONFIG (some ⟨n, some items⟩) false) = some (r, out, p')) :
    ∃ receiver, (p.objects ref).receiver = some receiver ∧
      (∀ before x after e, items.take n.toNat = before ++ x :: after →
        (∀ y ∈ before, config_validate_set (p.objects ref).protocol y.Parameter y.Value = .ok ()) →
        config_validate_set (p.objects ref).protocol x.Parameter x.Value = .error e →
          r = .error e ∧ p' = p) ∧
      ((∀ x ∈ items.take n.toNat,
          config_validate_set (p.objects ref).protocol x.Parameter x.Value = .ok ()) →
        ∃ done rest o, items.take n.toNat = done ++ rest ∧
          (p.objects ref).Applied receiver (assignments (p.objects ref).protocol done) o (p'.objects ref) ∧
          (r = .ok () ∧ rest = [] ∧ o = none ∨
            ∃ e x rest' u, r = .error e ∧ rest = x :: rest' ∧
              x.assigns (p.objects ref).protocol = some u ∧ (p.objects ref).Refused u o
                script[((assignments (p.objects ref).protocol done).filterMap
                  (p.objects ref).set_command).length]?)) := by
  obtain ⟨receiver, hreceiver⟩ := receiver_of_lookup hp hlookup
  have hlocked : p.locked ref script (config_ioctl SET_CONFIG (some ⟨n, some items⟩) false) =
      some (r, out, p') := by
    rw [call, if_pos (.inr rfl)] at hc
    exact (on_ok hlookup).symm.trans hc
  obtain ⟨t, ht, -, rfl⟩ := locked_cases hlocked
  have hput : (p.put ref t).objects ref = t.device := put_objects_self t
  refine ⟨receiver, hreceiver, fun before x after e hitems hbefore hx => ?_, fun hvalid => ?_⟩
  · have herror := forM_eq_error_iff.mpr ⟨before, x, after, hitems, hbefore, hx⟩
    have hwp : wp (config_ioctl SET_CONFIG (some ⟨n, some items⟩) false) (fun _ _ => False)
        (fun e' t => e' = e ∧ t = p.view ref script) (p.view ref script) := by
      refine wp_config_ioctl hready hn hn' hlen (fun _ e' he' => ⟨?_, rfl⟩) fun hvalid => ?_
      · exact Except.error.inj (he'.symm.trans herror)
      · have hok := hvalid rfl x (by simp [hitems])
        cases hok.symm.trans hx
    cases r with
    | ok u => exact (hwp _ _ ht).elim
    | error e' =>
        obtain ⟨rfl, rfl⟩ := hwp _ _ ht
        refine ⟨rfl, ?_⟩
        simp [put, view]
  · have hwp : wp (config_ioctl SET_CONFIG (some ⟨n, some items⟩) false) _ _ (p.view ref script) :=
      wp_config_ioctl hready hn hn' hlen (fun _ e he => ?_) fun _ => wp_config_items_set hreceiver hvalid
    · cases r with
      | ok u => exact ⟨_, [], none, (List.append_nil _).symm, hput ▸ hwp _ _ ht, .inl ⟨rfl, rfl, rfl⟩⟩
      | error e =>
          obtain ⟨done, x, rest, u, o, hitems, hu, happlied, ho⟩ := hwp _ _ ht
          exact ⟨done, x :: rest, o, hitems, hput ▸ happlied, .inr ⟨e, x, rest, u, rfl, rfl, hu, ho⟩⟩
    · obtain ⟨before, x, after, hitems, -, hx⟩ := forM_eq_error_iff.mp he
      have hok := hvalid x (by simp [hitems])
      cases hok.symm.trans hx

/-- Three entries of which the third is refused, on CAN channel 2. -/
def setting : List SCONFIG :=
  [⟨cfg_sync_jump_width, 10⟩, ⟨cfg_loopback, 1⟩, ⟨cfg_bit_sample_point, 72⟩]

theorem set_config_in_order_refused :
    ∃ (p p' : Process) (r : Except Exception Unit) (out : Out) (done rest : List SCONFIG)
      (o : Option Exchange), Run.run step {} [opening, connecting CAN 4] = some p ∧
      p.call [.answered 0xb (channel_node CAN.toNat) 6, .answered 0xb (channel_node CAN.toNat) 7 1]
        (.PassThruIoctl 2 SET_CONFIG (some ⟨3, some setting⟩) false) = some (r, out, p') ∧
      r.toOption = none ∧ setting.take (3 : UInt32).toNat = done ++ rest ∧ rest ≠ [] ∧
      (p.objects 0).Applied 0 (assignments CAN done) o (p'.objects 0) ∧
      ((p'.objects 0).receiver_at 0).loopback = true := by
  have hrun : (Run.run step {} [opening, connecting CAN 4]).map (fun p =>
      (((p.lookup 2 true).toOption, (p.objects 0).reopen_required),
        ((p.objects 0).protocol, (p.objects 0).receiver),
        (p.call [.answered 0xb (channel_node CAN.toNat) 6, .answered 0xb (channel_node CAN.toNat) 7 1]
          (.PassThruIoctl 2 SET_CONFIG (some ⟨3, some setting⟩) false)).map fun x =>
            (x.1.toOption, ((x.2.2.objects 0).receiver_at 0).loopback))) =
      some ((some 0, false), (CAN, some 0), some (none, true)) := by
    decide +kernel
  obtain ⟨p, hp, heval⟩ := Option.map_eq_some_iff.mp hrun
  simp only [Prod.mk.injEq] at heval
  obtain ⟨⟨hlookup, hready⟩, ⟨hprotocol, hreceiver⟩, heval⟩ := heval
  obtain ⟨⟨r, out, p'⟩, hc, heval⟩ := Option.map_eq_some_iff.mp heval
  simp only [Prod.mk.injEq] at heval
  obtain ⟨hr, hloopback⟩ := heval
  have hlookup : p.lookup 2 true = .ok 0 := by
    cases h : p.lookup 2 true with
    | error e => simp [h, Except.toOption] at hlookup
    | ok ref => simpa [h, Except.toOption] using hlookup
  obtain ⟨receiver, hreceiver', -, hvalid⟩ :=
    set_config_in_order hp hlookup hready (by decide) (by decide) (by decide) hc
  obtain rfl : receiver = 0 := Option.some.inj (hreceiver'.symm.trans hreceiver)
  rw [hprotocol] at hvalid
  obtain ⟨done, rest, o, hitems, happlied, hend⟩ := hvalid (by decide)
  refine ⟨p, p', r, out, done, rest, o, hp, hc, hr, hitems, ?_, happlied, hloopback⟩
  obtain ⟨rfl, -⟩ | ⟨e, x, rest', u, -, rfl, -⟩ := hend
  · cases hr
  · simp

end Process

end Mongoose
