import Mongoose.Api.Within
import Mongoose.Lib.Monitor

/-!
# Mongoose.Api.Wire

The adapter's channel, over all runs of calls.

A monitor reads a device's log and says where the last accepted open went,
whether a close of it was accepted since, and whether the adapter may have a
channel open.  `Device.Synced` ties it to the flag the driver keeps, and holds
whenever the lifecycle lock is held; `Device.Settled` holds between calls.
-/

namespace Mongoose

open Prog Lifecycle

/-! ## the monitor -/

namespace Exchange

def opens (e : Exchange) : Bool := e.command.opcode = 6 && e.accepted

def closes (e : Exchange) : Bool := e.command.opcode = 7 && e.accepted

/-- An open that the adapter did not definitely refuse. -/
def mayOpen (e : Exchange) : Bool := e.command.opcode = 6 && (e.accepted || e.response.isNone)

end Exchange

/-- What a log says of the adapter's channel. -/
structure Wire where
  /-- Where the last accepted open went. -/
  node : Option Nat := none
  /-- No close was accepted since. -/
  isOpen : Bool := false
  /-- An open may have reached the adapter, and no close was accepted since. -/
  possible : Bool := false

/-- A channel is opened when it is closed, and closed and cleared on its own node. -/
def wire : Monitor Exchange Wire where
  init := {}
  step s e :=
    if e.opens then { node := some e.command.destination, isOpen := true, possible := true }
    else if e.closes then { s with isOpen := false, possible := false }
    else if e.mayOpen then { s with possible := true }
    else s
  Allows s e := (e.opens = true → s.isOpen = false) ∧
    (e.command.opcode = 7 ∨ e.command.opcode = 0x10 → s.node = some e.command.destination)

namespace wire

variable {s : Wire} {e : Exchange} {log a b c : List Exchange}

/-- An open that succeeds. -/
theorem step_opens (h : e.opens) :
    wire.step s e = { node := some e.command.destination, isOpen := true, possible := true } :=
  if_pos h

/-- No exchange does both. -/
theorem opens_of_closes (h : e.closes) : e.opens = false := by
  simp only [Exchange.closes, Exchange.opens, Bool.and_eq_true, decide_eq_true_eq] at h ⊢
  simp [h.1]

/-- A close that succeeds. -/
theorem step_closes (h : e.closes) : wire.step s e = { s with isOpen := false, possible := false } := by
  change ite _ _ (ite _ _ _) = _
  rw [if_neg (by simp [opens_of_closes h]), if_pos h]

/-- An exchange that is no open and no accepted close changes nothing. -/
theorem step_other (h6 : e.command.opcode ≠ 6) (hc : e.closes = false) : wire.step s e = s := by
  change ite _ _ (ite _ _ (ite _ _ _)) = _
  rw [if_neg (by simp [Exchange.opens, h6]), if_neg (by simp [hc]),
    if_neg (by simp [Exchange.mayOpen, h6])]

/-- Only an accepted close makes an open channel closed. -/
theorem isOpen_step (h : s.isOpen = true) (he : e.closes = false) : (wire.step s e).isOpen = true := by
  change (ite _ _ (ite _ _ (ite _ _ _)) : Wire).isOpen = true
  rw [if_neg (show ¬ e.closes = true by simp [he])]
  split_ifs <;> simp [h]

/-- A channel that may be open may be so until it is closed. -/
theorem possible_step (h : s.possible = true) (he : e.closes = false) :
    (wire.step s e).possible = true := by
  change (ite _ _ (ite _ _ (ite _ _ _)) : Wire).possible = true
  rw [if_neg (show ¬ e.closes = true by simp [he])]
  split_ifs <;> simp [h]

/-- The node is that of the last accepted open. -/
theorem node_state (log : List Exchange) :
    (wire.state log).node = (log.reverse.find? Exchange.opens).map fun e => e.command.destination := by
  induction log using List.reverseRecOn with
  | nil => rfl
  | append_singleton log e ih =>
      rw [Monitor.state_concat, List.reverse_append, List.reverse_singleton, List.singleton_append,
        List.find?_cons]
      by_cases ho : e.opens = true
      · rw [step_opens ho, ho]
        rfl
      · rw [Bool.not_eq_true] at ho
        rw [ho]
        dsimp only
        rw [← ih]
        change (ite _ _ (ite _ _ (ite _ _ _)) : Wire).node = _
        rw [if_neg (by simp [ho])]
        split_ifs <;> rfl

/-- A lawful log has a close between any two opens. -/
theorem exists_closes (h : wire.Lawful log) {o o' : Exchange} (hlog : log = a ++ o :: b ++ o' :: c)
    (ho : o.opens) (ho' : o'.opens) : ∃ e ∈ b, e.closes := by
  by_contra hnone
  simp only [not_exists, not_and, Bool.not_eq_true] at hnone
  have hopen : (wire.state (a ++ o :: b)).isOpen = true := by
    rw [show a ++ o :: b = a ++ [o] ++ b by simp]
    refine Monitor.state_append_induction (P := fun s : Wire => s.isOpen = true) ?_
      fun s e he hs => isOpen_step hs (hnone e he)
    rw [Monitor.state_concat, step_opens ho]
  have hclosed := (h (a ++ o :: b) o' c hlog).1 ho'
  rw [hopen] at hclosed
  cases hclosed

end wire

/-- The adapter may have a channel open: an open was not refused, and no close
was accepted since. -/
def MayBeOpen (log : List Exchange) : Prop :=
  ∃ a o b, log = a ++ o :: b ∧ o.mayOpen ∧ ∀ e ∈ b, e.closes = false

/-- The monitor says when a channel may be open. -/
theorem MayBeOpen.possible {log : List Exchange} (h : MayBeOpen log) :
    (wire.state log).possible = true := by
  obtain ⟨a, o, b, rfl, ho, hb⟩ := h
  rw [show a ++ o :: b = a ++ [o] ++ b by simp]
  refine Monitor.state_append_induction (P := fun s : Wire => s.possible = true) ?_
    fun s e he hs => wire.possible_step hs (hb e he)
  rw [Monitor.state_concat]
  change (ite _ _ (ite _ _ (ite _ _ _)) : Wire).possible = true
  have hc : o.closes = false := by
    simp only [Exchange.mayOpen, Bool.and_eq_true, decide_eq_true_eq] at ho
    simp [Exchange.closes, ho.1]
  rw [if_neg (show ¬ o.closes = true by simp [hc]), if_pos ho]
  split_ifs <;> rfl

/-! ## the device -/

namespace Device

variable {d d' : Device} {F P : Prop} {payload : Bytes}

/-- The flag of the wire channel tells what the log does. -/
structure Synced (d : Device) : Prop where
  lawful : wire.Lawful d.log
  isOpen : (wire.state d.log).isOpen = d.wire_channel_open
  node : d.wire_channel_open = true →
    (wire.state d.log).node = some (channel_node d.protocol.toNat)
  possible : (wire.state d.log).possible = true → d.wire_channel_open = true ∨ ¬ d.usable

/-- Between calls the wire channel goes with the published one. -/
structure Settled (d : Device) : Prop extends Synced d where
  channel : d.channel ≠ 0 → d.wire_channel_open = true
  wire : d.closed = false → d.wire_channel_open = true → d.channel ≠ 0 ∨ d.reopen_required = true

/-- A new device has no channel on the wire. -/
theorem settled_new : ({} : Device).Settled where
  lawful := wire.lawful_nil
  isOpen := rfl
  node := fun h => nomatch h
  possible := fun h => nomatch h
  channel := fun h => absurd rfl h
  wire := fun _ h => nomatch h

/-- Fields the log does not speak of do not matter. -/
theorem Synced.congr (h : d.Synced) (hlog : d'.log = d.log)
    (hwire : d'.wire_channel_open = d.wire_channel_open)
    (hprotocol : d.wire_channel_open = true → d'.protocol = d.protocol)
    (husable : ¬ d.usable → ¬ d'.usable) : d'.Synced where
  lawful := hlog ▸ h.lawful
  isOpen := by rw [hlog, hwire]; exact h.isOpen
  node := by
    rw [hlog, hwire]
    exact fun hw => hprotocol hw ▸ h.node hw
  possible := by
    rw [hlog, hwire]
    exact fun hp => (h.possible hp).imp_right husable

/-- Ordinary commands are nothing to the monitor. -/
theorem Synced.indifferent (h : d.Synced) {e : Exchange} (he : e.Ordinary d) :
    wire.Indifferent (wire.state d.log) e := by
  obtain ⟨h6, h7, h10⟩ := he
  refine ⟨wire.step_other h6 (by simp [Exchange.closes, h7]), fun ho => ?_, fun hop => ?_⟩
  · simp [Exchange.opens, h6] at ho
  · obtain ⟨hw, hd⟩ := h10 (hop.resolve_left h7)
    rw [hd]
    exact h.node hw

/-- Ordinary exchanges leave the flag and the log in step. -/
theorem Synced.append {es : List Exchange} (h : d.Synced) (hlog : d'.log = d.log ++ es)
    (hes : ∀ e ∈ es, e.Ordinary d) (hwire : d'.wire_channel_open = d.wire_channel_open)
    (hprotocol : d'.protocol = d.protocol) (husable : ¬ d.usable → ¬ d'.usable) : d'.Synced := by
  have hind : ∀ e ∈ es, wire.Indifferent (wire.state d.log) e := fun e he => h.indifferent (hes e he)
  have hstate : wire.state d'.log = wire.state d.log := by
    rw [hlog]
    exact Monitor.state_append_of_indifferent hind
  refine ⟨hlog ▸ h.lawful.append hind, ?_, ?_, ?_⟩
  · rw [hstate, hwire]
    exact h.isOpen
  · rw [hstate, hwire, hprotocol]
    exact h.node
  · rw [hstate, hwire]
    exact fun hp => (h.possible hp).imp_right husable

/-- A call that sends only such keeps the device in step with it, -/
theorem Synced.within (h : d.Synced) (hw : d.Within True F P (Exchange.Ordinary d) d') : d'.Synced := by
  obtain ⟨es, hlog, hes⟩ := hw.log
  exact h.append hlog hes (hw.wire_channel_open trivial) hw.protocol hw.usable

/-- and settled. -/
theorem Settled.within (h : d.Settled) (hw : d.Within True F P (Exchange.Ordinary d) d') :
    d'.Settled where
  toSynced := h.toSynced.within hw
  channel := by
    rw [hw.channel trivial, hw.wire_channel_open trivial]
    exact h.channel
  wire := by
    rw [hw.closed trivial, hw.wire_channel_open trivial, hw.channel trivial]
    exact fun hc ho => (h.wire hc ho).imp_right hw.reopen_required

/-- An accepted open. -/
theorem Synced.opened (h : d.Synced) {e : Exchange} (hclosed : d.wire_channel_open = false)
    (hm : d.Moved d' [e]) (he : e.command = d.channelCommand 6 payload 10000 0 none)
    (hacc : e.accepted = true) : ({ d' with wire_channel_open := true } : Device).Synced := by
  have ho : e.opens = true := by simp [Exchange.opens, he, channelCommand, hacc]
  have hlog : d'.log = d.log ++ [e] := by rw [hm.eq]
  have hprotocol : d'.protocol = d.protocol := by rw [hm.eq]
  have hstate : wire.state d'.log =
      { node := some e.command.destination, isOpen := true, possible := true } := by
    rw [hlog, Monitor.state_concat, wire.step_opens ho]
  refine ⟨?_, by rw [hstate], fun _ => ?_, fun _ => .inl rfl⟩
  · change wire.Lawful d'.log
    rw [hlog, Monitor.lawful_concat_iff]
    refine ⟨h.lawful, fun _ => h.isOpen.trans hclosed, fun hop => ?_⟩
    simp [he, channelCommand] at hop
  · rw [hstate, he, channelCommand, hprotocol]

/-- An open that was not accepted: the adapter may have it only on an unusable session. -/
theorem Synced.not_opened (h : d.Synced) {o : Option Exchange} (hclosed : d.wire_channel_open = false)
    (hm : d.Moved d' o.toList)
    (ho : ∀ e, o = some e → e.command = d.channelCommand 6 payload 10000 0 none ∧
      e.accepted = false ∧ (e.response = none → ¬ d'.usable)) : d'.Synced := by
  have hlog : d'.log = d.log ++ o.toList := by rw [hm.eq]
  have hwire : d'.wire_channel_open = d.wire_channel_open := by rw [hm.eq]
  have hprotocol : d'.protocol = d.protocol := by rw [hm.eq]
  cases o with
  | none =>
      exact h.congr (by simpa using hlog) hwire (fun _ => hprotocol) hm.usable
  | some e =>
      obtain ⟨he, hacc, hnone⟩ := ho e rfl
      have hopens : e.opens = false := by simp [Exchange.opens, hacc]
      have hcloses : e.closes = false := by simp [Exchange.closes, hacc]
      have hstep : wire.step (wire.state d.log) e =
          if e.mayOpen then { wire.state d.log with possible := true } else wire.state d.log := by
        change ite _ _ (ite _ _ _) = _
        rw [if_neg (by simp [hopens]), if_neg (by simp [hcloses])]
      have hstate : wire.state d'.log = wire.step (wire.state d.log) e := by
        rw [hlog]
        exact Monitor.state_concat _
      refine ⟨?_, ?_, fun hw => ?_, fun hp => ?_⟩
      · rw [hlog]
        refine Monitor.lawful_concat_iff _ |>.mpr ⟨h.lawful, fun h => ?_, fun hop => ?_⟩
        · rw [hopens] at h
          cases h
        · simp [he, channelCommand] at hop
      · rw [hstate, hstep, hwire, ← h.isOpen]
        split <;> rfl
      · rw [hwire, hclosed] at hw
        cases hw
      · rw [hwire]
        rw [hstate, hstep] at hp
        split at hp
        · next hmay =>
            refine .inr (hnone ?_)
            simpa [Exchange.mayOpen, hacc, he, channelCommand] using hmay
        · exact (h.possible hp).imp_right hm.usable

/-- An accepted close of an open channel. -/
theorem Synced.closed (h : d.Synced) {e : Exchange} (hopen : d.wire_channel_open = true)
    (hm : d.Moved d' [e]) (he : e.command = d.channelCommand 7 payload 10000 0 none)
    (hacc : e.accepted = true) : ({ d' with wire_channel_open := false } : Device).Synced := by
  have hc : e.closes = true := by simp [Exchange.closes, he, channelCommand, hacc]
  have hlog : d'.log = d.log ++ [e] := by rw [hm.eq]
  have hstate : wire.state d'.log = { wire.state d.log with isOpen := false, possible := false } := by
    rw [hlog, Monitor.state_concat, wire.step_closes hc]
  refine ⟨?_, by rw [hstate], by simp, fun hp => ?_⟩
  · change wire.Lawful d'.log
    rw [hlog, Monitor.lawful_concat_iff]
    refine ⟨h.lawful, fun ho => ?_, fun _ => ?_⟩
    · rw [wire.opens_of_closes hc] at ho
      cases ho
    · rw [he]
      exact h.node hopen
  · rw [hstate] at hp
    cases hp

/-- A close that was not accepted leaves the channel open. -/
theorem Synced.not_closed (h : d.Synced) {o : Option Exchange} (hopen : d.wire_channel_open = true)
    (hm : d.Moved d' o.toList)
    (ho : ∀ e, o = some e → e.command = d.channelCommand 7 payload 10000 0 none ∧
      e.accepted = false) : d'.Synced := by
  have hlog : d'.log = d.log ++ o.toList := by rw [hm.eq]
  have hwire : d'.wire_channel_open = d.wire_channel_open := by rw [hm.eq]
  have hprotocol : d'.protocol = d.protocol := by rw [hm.eq]
  have hind : ∀ e ∈ o.toList, wire.Indifferent (wire.state d.log) e := by
    intro e he
    obtain ⟨he, hacc⟩ := ho e (Option.mem_toList.mp he)
    refine ⟨wire.step_other (by simp [he, channelCommand]) (by simp [Exchange.closes, hacc]),
      fun ho => ?_, fun _ => ?_⟩
    · simp [Exchange.opens, hacc] at ho
    · rw [he]
      exact h.node hopen
  have hstate : wire.state d'.log = wire.state d.log := by
    rw [hlog]
    exact Monitor.state_append_of_indifferent hind
  refine ⟨hlog ▸ h.lawful.append hind, ?_, ?_, ?_⟩
  · rw [hstate, hwire]
    exact h.isOpen
  · rw [hstate, hwire, hprotocol]
    exact h.node
  · rw [hstate, hwire]
    exact fun hp => (h.possible hp).imp_right hm.usable

end Device

end Mongoose
