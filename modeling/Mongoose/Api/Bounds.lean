import Mongoose.Api.Steady

/-!
# Mongoose.Api.Bounds

What the calls hand out.

A write sends only messages that it encoded before, so every session of a process has
records of 4 to 4099 bytes, and every message a read hands out is as long.  `Locked.Fit`
endures every call, and `Process.inbound_in_bounds` concludes.
-/

namespace Mongoose

open Prog Lifecycle

/-- The session fits, and so does what the call has written to its caller. -/
structure Locked.Fit (l : Locked) : Prop where
  world : l.device.session.world.Fit 4 4099
  messages : ∀ m ∈ l.out.messages, m.Readable

/-! ## the calls -/

namespace Locked

/-- A device's session fits after every call. -/
theorem enduring_fit : Locked.Enduring fun l => l.device.session.world.Fit 4 4099 where
  congr h hs _ _ _ _ := by rw [hs]; exact h
  run h hls hs := h.run ⟨by decide, by decide⟩ (fun x hx => (hls x hx).1) (Live.run_eq_some hs)
  taken _ _ _ _ ht := ht
  made h := h
  published _ _ _ h := h
  retired h := h

theorem settable_fit : Locked.Settable fun l => l.device.session.world.Fit 4 4099 :=
  fun _ h hs => h.run ⟨by decide, by decide⟩ (fun x hx => by cases List.mem_singleton.mp hx; trivial)
    (Live.run_eq_some hs)

namespace Fit

/-- So does what it hands out. -/
theorem enduring : Locked.Enduring Locked.Fit where
  congr h hs hrs hr hc hm := ⟨enduring_fit.congr h.world hs hrs hr hc hm, hm ▸ h.messages⟩
  run h hls hs := ⟨enduring_fit.run h.world hls hs, h.messages⟩
  taken r left _ h ht := by
    have hreadable := CanReceiver.readable_take (h.world.session.fit r) left
    exact ⟨ht.world, fun m hm => (List.mem_append.mp hm).elim (ht.messages m) (hreadable m)⟩
  made h := ⟨h.world, h.messages⟩
  published _ _ _ h := ⟨h.world, h.messages⟩
  retired h := ⟨h.world, h.messages⟩

theorem settable : Locked.Settable Locked.Fit :=
  fun hr h hs => ⟨settable_fit hr h.world hs, h.messages⟩

end Fit

end Locked

/-! ## the process -/

namespace Process

variable {p p' : Process} {script : List Turn} {c : ApiCall} {r : Except Exception Unit} {out : Out}

/-- The sessions of all devices fit. -/
theorem fit_run {ls : List Label} (h : Run.run step {} ls = some p) (ref : DeviceRef) :
    (p.objects ref).session.world.Fit 4 4099 :=
  devices_run (D := fun d => d.session.world.Fit 4 4099) Locked.enduring_fit Locked.settable_fit
    (World.fit_opened 4 4099 receiver_protocol) h ref

/-- What a call hands out is readable. -/
theorem readable_call (h : ∀ ref, (p.objects ref).session.world.Fit 4 4099)
    (hc : p.call script c = some (r, out, p')) : ∀ m ∈ out.messages, m.Readable := by
  have hend {q : Process} {ref : DeviceRef} {t : Locked} (hq : (q.objects ref).session.world.Fit 4 4099)
      (ht : c.program.exec (q.view ref script) = some (r, t)) : t.Fit :=
    wp_end (P := Locked.Fit) (Locked.Fit.enduring.keeps_program (fun _ => Locked.Fit.settable) _
      ⟨hq, by simp [view]⟩) ht
  obtain ⟨-, -, rfl, -⟩ | ⟨-, -, hlocked⟩ | ⟨-, ref, -, hlocked⟩ := call_cases hc
  · simp
  · obtain ⟨t, ht, rfl, -⟩ := locked_cases hlocked
    exact (hend (h p.made) ht).messages
  · obtain ⟨t, ht, rfl, -⟩ := locked_cases hlocked
    exact (hend (h ref) ht).messages

/-- **The inbound path is total and in bounds, and what a read hands out fits its
messages.** -/
theorem inbound_in_bounds {protocol : ReceiverRef → UInt32} {ls : List Mongoose.Label} {w : World}
    (hw : Run.run World.step (World.opened protocol) ls = some w) {ks : List Label}
    (hp : Run.run step {} ks = some p) :
    w.session.InBounds ∧ (∀ ref, (p.objects ref).session.session.InBounds) ∧
      ∀ channel messages count timeout script r out p',
        p.call script (.PassThruReadMsgs channel messages count timeout) = some (r, out, p') →
        ∀ m ∈ out.messages, m.Readable := by
  have hsession {w : World} (hw : w.Fit 0 4108) : w.session.InBounds :=
    hw.session.inBounds ⟨by decide, by decide⟩ (by decide)
  refine ⟨hsession (World.fit_run hw), fun ref => ?_, fun _ _ _ _ _ _ _ _ hc => ?_⟩
  · obtain ⟨js, hjs⟩ := (p.objects ref).session.reached
    exact hsession (World.fit_run hjs)
  · exact readable_call (fit_run hp) hc

/-- A data frame of one byte, from the node of a CAN channel. -/
def arriving : Event :=
  .receive ((encode ([0, 0, 1, 5, 9, 0, 0, 0, 0, 0, 0, 0, 0, 0, 0, 0, 0, 0, 0, 0, 0, 0, 5, 0] ++
    [0, 0, 7, 0xe8, 1])).toOption.getD [])

/-- A read of the frame that arrived on CAN channel 2. -/
theorem inbound_in_bounds_read :
    ∃ (w : World) (p : Process) (out : Out) (p' : Process), w.session.InBounds ∧
      Run.run step {} [opening, connecting CAN 4, .event 0 arriving] = some p ∧
      p.call [.waits []] (.PassThruReadMsgs 2 true (some 1) 0) = some (.ok (), out, p') ∧
      out.messages.length = 1 ∧ ∀ m ∈ out.messages, m.Readable := by
  have hw : Run.run World.step (World.opened fun _ => CAN) [.set_can_receiver (some 0)] = some _ := rfl
  have hrun : (Run.run step {} [opening, connecting CAN 4, .event 0 arriving]).map (fun p =>
      (p.call [.waits []] (.PassThruReadMsgs 2 true (some 1) 0)).map fun x =>
        (x.1.toOption, x.2.1.messages.length)) = some (some (some (), 1)) := by
    decide +kernel
  obtain ⟨p, hp, heval⟩ := Option.map_eq_some_iff.mp hrun
  obtain ⟨⟨r, out, p'⟩, hc, heval⟩ := Option.map_eq_some_iff.mp heval
  obtain ⟨hr, hlength⟩ := Prod.mk.inj heval
  cases r with
  | error e => cases hr
  | ok u => exact ⟨_, p, out, p', (inbound_in_bounds hw hp).1, hp, hc, hlength,
      (inbound_in_bounds hw hp).2.2 _ _ _ _ _ _ _ _ hc⟩

end Process

end Mongoose
