import Mongoose.Api.Registry
import Mongoose.Api.Uncertain

/-!
# Mongoose.Api.Reopen

A device that must be reopened.

Once `reopen_required` is set a device stays so, its calls throw before they send, a call
that set it sends no more, and only a Disconnect or a Close still does, to take the channel
down.  `Process.Blocks` says so of one step, and every step of every run has it.
-/

namespace Mongoose

open Prog Lifecycle

/-! ## calls that are refused -/

/-- The calls that neither open nor take down. -/
def ApiCall.within : ApiCall → Bool
  | .PassThruOpen _ | .PassThruClose _ | .PassThruDisconnect _ => false
  | _ => true

section calls

variable {l : Locked} {c : ApiCall}

/-- What needs the session throws. -/
theorem wp_session_blocked {α : Type} {f : Unit → Lifecycle α} (h : l.device.reopen_required = true) :
    wp (session >>= f) (fun _ _ => False) (fun _ t => t = l) l := by
  simp [session, h]

/-- **A device that must be reopened refuses every call within it**, and is left as it was. -/
theorem ApiCall.wp_program_blocked (hc : c.within = true) (h : l.device.reopen_required = true) :
    wp c.program (fun _ _ => False) (fun _ t => t = l) l := by
  cases c with
  | PassThruOpen | PassThruClose | PassThruDisconnect => cases hc
  | PassThruConnect id protocol flags baud channel =>
      rw [program, Mongoose.PassThruConnect]
      simp only [wp_bind, wp_read, wp_throw_if]
      exact ⟨fun _ => trivial, fun _ => ⟨fun _ => trivial, fun _ => ⟨fun _ => trivial, fun hr => absurd h hr⟩⟩⟩
  | PassThruReadMsgs channel messages count timeout =>
      rw [program, Mongoose.PassThruReadMsgs, wp_bind, wp_throw_if]
      exact ⟨fun _ => rfl, fun _ => wp_session_blocked h⟩
  | PassThruSetProgrammingVoltage => exact (wp_throw _).mpr rfl
  | PassThruIoctl id ioctl_id input output =>
      rw [program]
      split
      · exact wp_session_blocked h
      · split
        · exact wp_session_blocked h
        · rw [read_voltage, wp_bind, wp_of]
          exact ⟨fun _ _ => wp_session_blocked h, fun _ _ => rfl⟩
  | PassThruWriteMsgs | PassThruStartPeriodicMsg | PassThruStopPeriodicMsg | PassThruStartMsgFilter
  | PassThruStopMsgFilter | PassThruReadVersion => exact wp_session_blocked h

/-- A Disconnect and a Close send no more than what takes down. -/
theorem ApiCall.Issues.tearsDown {d : Device} {cmd : Command} (h : c.Issues d cmd)
    (hc : (∃ id, c = .PassThruDisconnect id) ∨ ∃ id, c = .PassThruClose id) : cmd.TearsDown := by
  obtain ⟨id, rfl⟩ | ⟨id, rfl⟩ := hc
  · obtain rfl | rfl := h
    · exact .inl ⟨rfl, rfl⟩
    · exact .inr (.inl rfl)
  · obtain rfl | rfl | rfl := h
    · exact .inl ⟨rfl, rfl⟩
    · exact .inr (.inl rfl)
    · exact .inr (.inr rfl)

/-- What a call has sent with the flag set takes down, and a Disconnect or a Close sends it. -/
def Locked.SendsDown (l : Locked) (c : ApiCall) (t : Locked) : Prop :=
  ∃ es, t.device.uncertain = l.device.uncertain ++ es ∧ ∀ e ∈ es, e.command.TearsDown ∧
    ((∃ id, c = .PassThruDisconnect id) ∨ ∃ id, c = .PassThruClose id)

/-- So it is with every call, whether the flag was set before or in its midst, if an Open
starts without it. -/
theorem ApiCall.wp_sends_down (hopen : ∀ id, c = .PassThruOpen id → l.device.reopen_required = false) :
    wp c.program (fun _ => l.SendsDown c) (fun _ => l.SendsDown c) l := by
  have hsilent (t : Locked) (ht : t.Silent l.device.uncertain) : l.SendsDown c t :=
    ⟨[], ht.trans (List.append_nil _).symm, by simp⟩
  by_cases hdown : (∃ id, c = .PassThruDisconnect id) ∨ ∃ id, c = .PassThruClose id
  · have hsent (t : Locked) (ht : t.Marked (TakesDown l.device.uncertain)) : l.SendsDown c t :=
      ht.imp fun es hes => hes.imp_right fun h e he => ⟨h e he, hdown⟩
    exact wp_mono (ApiCall.wp_takes_down hdown l) (fun _ => hsent) fun _ => hsent
  · cases hr : l.device.reopen_required with
    | false =>
        have hprudent : Prudent c.program := ApiCall.prudent_program (fun id hc => hdown (.inl ⟨id, hc⟩))
          fun id hc => hdown (.inr ⟨id, hc⟩)
        exact wp_mono (hprudent _ l ⟨hr, rfl⟩) (fun _ t ht => hsilent t ht.silent) fun _ => hsilent
    | true =>
        have hwithin : c.within = true := by
          cases c with
          | PassThruOpen id => cases (hopen id rfl).symm.trans hr
          | PassThruDisconnect id => exact absurd (.inl ⟨id, rfl⟩) hdown
          | PassThruClose id => exact absurd (.inr ⟨id, rfl⟩) hdown
          | _ => rfl
        refine wp_mono (ApiCall.wp_program_blocked hwithin hr) (fun _ _ => False.elim) fun _ t ht => ?_
        exact hsilent t (ht ▸ rfl)

/-- **A channel command that leaves the session unusable leaves the flag set.** -/
theorem wp_channel_command_uncertain (opcode : Nat) (payload : Bytes) (timeout : Int) (chan : Nat)
    (known : Option Recording) (l : Locked) :
    wp (channel_command opcode payload timeout chan known) (fun _ _ => True)
      (fun _ t => ¬ t.device.usable → t.device.reopen_required = true) l := by
  have hend (e : Exception) (t : Locked) :
      wp (when (¬ t.device.usable) uncertain_channel >>= fun _ => throw e : Lifecycle Bytes)
        (fun _ _ => True) (fun _ t => ¬ t.device.usable → t.device.reopen_required = true) t := by
    simp only [wp_bind, wp_when, wp_throw]
    exact ⟨fun _ => wp_uncertain_channel fun u _ _ _ hreopen _ => hreopen, fun hu hnot => absurd hnot hu⟩
  rw [channel_command, wp_bind, wp_read, wp_tryCatch]
  refine wp_command (fun _ _ _ _ _ _ => trivial) (fun e t _ _ => ?_) fun e t _ _ _ _ => ?_
  · rw [wp_bind, wp_read]
    exact hend e t
  · rw [wp_bind, wp_read]
    exact hend e t

end calls

/-! ## the process -/

namespace Process

variable {p t : Process} {l : Label}

/-- What a step leaves of a device that must be reopened, and when it comes to be one. -/
structure Blocks (p : Process) (l : Label) (t : Process) : Prop where
  /-- The flag is not taken back. -/
  sticky : ∀ ref, (p.objects ref).reopen_required = true → (t.objects ref).reopen_required = true
  /-- What is sent with the flag set, also by the call that sets it, takes down, and a
  Disconnect or a Close sends it. -/
  sends : ∀ ref, ∃ es, (t.objects ref).uncertain = (p.objects ref).uncertain ++ es ∧
    ∀ e ∈ es, e.command.TearsDown ∧
      ∃ id script, l = .call (.PassThruDisconnect id) script ∨ l = .call (.PassThruClose id) script
  /-- Where the flag was set before, only a Disconnect or a Close sends at all. -/
  teardown : ∀ ref, ref < p.made → (p.objects ref).reopen_required = true →
    ∃ es, (t.objects ref).log = (p.objects ref).log ++ es ∧ ∀ e ∈ es, e.command.TearsDown ∧
      ∃ id script, l = .call (.PassThruDisconnect id) script ∨ l = .call (.PassThruClose id) script
  /-- Every other call throws, and changes nothing. -/
  refused : ∀ c script ref r out, l = .call c script → c.within = true →
    p.lookup c.target.1 c.target.2 = .ok ref → (p.objects ref).reopen_required = true →
    p.call script c = some (r, out, t) → (∃ e, r = .error e) ∧ t = p
  /-- A channel's command without an answer sets the flag. -/
  lost : ∀ ref es, (t.objects ref).log = (p.objects ref).log ++ es → ∀ e ∈ es, e.Lost →
    (t.objects ref).reopen_required = true

theorem blocks_put {q : Process} {ref : DeviceRef} {c : ApiCall} {script : List Turn} {u : Locked}
    (hq : q.objects = p.objects) (hu : (q.view ref script).After c u)
    (huncertain : (q.view ref script).SendsDown c u)
    (hsends : ref < p.made → (p.objects ref).reopen_required = true →
      ∃ es, u.device.log = (p.objects ref).log ++ es ∧ ∀ e ∈ es, e.command.TearsDown ∧
        ∃ id script', Label.call c script = .call (.PassThruDisconnect id) script' ∨
          Label.call c script = .call (.PassThruClose id) script')
    (hrefused : ∀ ref' r out, c.within = true → p.lookup c.target.1 c.target.2 = .ok ref' →
      (p.objects ref').reopen_required = true → p.call script c = some (r, out, q.put ref u) →
      (∃ e, r = .error e) ∧ q.put ref u = p) :
    p.Blocks (.call c script) (q.put ref u) where
  sticky ref' hr := by
    by_cases href : ref' = ref
    · subst href
      rw [put_objects_self]
      exact hu.reopen_required (by rw [view, hq]; exact hr)
    · rw [put_objects_of_ne href, hq]
      exact hr
  sends ref' := by
    by_cases href : ref' = ref
    · subst href
      rw [put_objects_self]
      obtain ⟨es, hes, hdown⟩ := huncertain
      refine ⟨es, by rw [hes, view, hq], fun e he => ⟨(hdown e he).1, ?_⟩⟩
      obtain ⟨id, rfl⟩ | ⟨id, rfl⟩ := (hdown e he).2
      · exact ⟨id, script, .inl rfl⟩
      · exact ⟨id, script, .inr rfl⟩
    · rw [put_objects_of_ne href, hq]
      exact ⟨[], by simp, by simp⟩
  teardown ref' hlt hr := by
    by_cases href : ref' = ref
    · subst href
      rw [put_objects_self]
      exact hsends hlt hr
    · rw [put_objects_of_ne href, hq]
      exact ⟨[], by simp, by simp⟩
  refused c' script' ref' r out hl hc hlookup hr hcall := by
    cases hl
    exact hrefused ref' r out hc hlookup hr hcall
  lost ref' es hlog e he hlost := by
    by_cases href : ref' = ref
    · subst href
      rw [put_objects_self] at hlog ⊢
      exact hu.lost es (by rw [hlog, view, hq]) e he hlost
    · rw [put_objects_of_ne href, hq] at hlog
      rw [List.self_eq_append_right.mp hlog] at he
      cases he

/-- **A device that must be reopened stays so, and only comes down.** -/
theorem blocks_of_step (hmade : ∀ ref, p.made ≤ ref → p.objects ref = {}) (hs : p.step l = some t) :
    p.Blocks l t := by
  have hstay {l : Label} (ht : ∀ ref, (t.objects ref).log = (p.objects ref).log ∧
      (t.objects ref).uncertain = (p.objects ref).uncertain ∧
      (t.objects ref).reopen_required = (p.objects ref).reopen_required)
      (hrefused : ∀ c script ref r out, l = .call c script → c.within = true →
        p.lookup c.target.1 c.target.2 = .ok ref → (p.objects ref).reopen_required = true →
        p.call script c = some (r, out, t) → (∃ e, r = .error e) ∧ t = p) : p.Blocks l t :=
    { sticky := fun ref hr => (ht ref).2.2.trans hr
      sends := fun ref => ⟨[], by simp [(ht ref).2.1], by simp⟩
      teardown := fun ref _ _ => ⟨[], by simp [(ht ref).1], by simp⟩
      refused := hrefused
      lost := fun ref es hlog e he => by
        rw [(ht ref).1] at hlog
        rw [List.self_eq_append_right.mp hlog] at he
        cases he }
  cases l with
  | call c script =>
      obtain ⟨⟨r, out, t'⟩, hcall, rfl⟩ := Option.map_eq_some_iff.mp hs
      obtain ⟨e, rfl, -, rfl⟩ | ⟨id, rfl, hlocked⟩ | ⟨hne, ref, hlookup, hlocked⟩ := call_cases hcall
      · refine hstay (fun _ => ⟨rfl, rfl, rfl⟩) fun c' script' ref r out' hl _ _ _ hcall' => ?_
        cases hl
        cases hcall.symm.trans hcall'
        exact ⟨⟨e, rfl⟩, rfl⟩
      · obtain ⟨u, hu, -, rfl⟩ := locked_cases hlocked
        have hnew : (p.objects p.made).reopen_required = false := by rw [hmade _ (Nat.le_refl _)]
        refine blocks_put rfl (wp_end (P := Locked.After _ _) (ApiCall.wp_after _ _) hu)
          (wp_end (P := Locked.SendsDown _ _) (ApiCall.wp_sends_down fun _ _ => hnew) hu) (fun hlt => absurd hlt (Nat.lt_irrefl _)) fun _ _ _ hc => nomatch hc
      · obtain ⟨u, hu, -, rfl⟩ := locked_cases hlocked
        have hafter := wp_end (P := Locked.After _ _) (ApiCall.wp_after (p.view ref script) c) hu
        have hblocked (hc : c.within = true) (hr : (p.objects ref).reopen_required = true) :
            (∃ e, r = .error e) ∧ u = p.view ref script := by
          have hend := ApiCall.wp_program_blocked (l := p.view ref script) hc hr r u hu
          cases r with
          | ok a => exact hend.elim
          | error e => exact ⟨⟨e, rfl⟩, hend⟩
        refine blocks_put rfl hafter (wp_end (ApiCall.wp_sends_down fun id hid => absurd hid (hne id)) hu)
          (fun _ hr => ?_) fun ref' r' out' hc hlookup' hr hcall' => ?_
        · by_cases hc : c.within = true
          · obtain ⟨-, rfl⟩ := hblocked hc hr
            exact ⟨[], by simp [view], by simp⟩
          · have hdown : (∃ id, c = .PassThruDisconnect id) ∨ ∃ id, c = .PassThruClose id := by
              cases c with
              | PassThruOpen id => exact absurd rfl (hne id)
              | PassThruDisconnect id => exact .inl ⟨id, rfl⟩
              | PassThruClose id => exact .inr ⟨id, rfl⟩
              | _ => exact absurd rfl hc
            obtain ⟨es, hlog, hes⟩ := hafter.log
            refine ⟨es, hlog, fun e he => ⟨(hes e he).tearsDown hdown, ?_⟩⟩
            obtain ⟨id, rfl⟩ | ⟨id, rfl⟩ := hdown
            · exact ⟨id, script, .inl rfl⟩
            · exact ⟨id, script, .inr rfl⟩
        · cases hlookup.symm.trans hlookup'
          cases hcall.symm.trans hcall'
          obtain ⟨herr, rfl⟩ := hblocked hc hr
          exact ⟨herr, by simp [put, view]⟩
  | event ref e =>
      obtain ⟨-, hs⟩ := Option.ite_none_right_eq_some.mp hs
      obtain ⟨s, -, rfl⟩ := Option.map_eq_some_iff.mp hs
      refine hstay (fun ref' => ?_) fun _ _ _ _ _ hl => nomatch hl
      by_cases href : ref' = ref
      · subst href
        simp
      · simp [Function.update_of_ne href]

/-- What every run keeps, and a new device is made from. -/
structure InOrder (p : Process) : Prop where
  sound : p.Sound
  tabled : p.Tabled
  registered : ∃ issued, p.Registered issued

theorem inOrder_empty : ({} : Process).InOrder := ⟨sound_empty, tabled_empty, [], registered_empty⟩

theorem InOrder.step (h : p.InOrder) (hs : p.step l = some t) : t.InOrder where
  sound := h.sound.step hs
  tabled := h.tabled.step h.sound hs
  registered := h.registered.elim fun _ hr => Threads.registered_step hr h.sound h.tabled hs

theorem InOrder.unmade (h : p.InOrder) (ref : DeviceRef) (hle : p.made ≤ ref) : p.objects ref = {} :=
  h.registered.elim fun _ hr => hr.unmade ref hle

/-- **The flag is sticky, and blocks the wire but for teardown.**  Every step blocks, and a
channel command that throws on a session it leaves unusable has set the flag. -/
theorem reopen_required_blocks (ls : List Label) (l : Locked) (opcode : Nat) (payload : Bytes)
    (timeout : Int) (chan : Nat) (known : Option Recording) :
    Run.Along step Blocks {} ls ∧
      ∀ e t, (channel_command opcode payload timeout chan known).exec l = some (.error e, t) →
        ¬ t.device.usable → t.device.reopen_required = true :=
  ⟨Run.along_of_invariant (I := InOrder) (fun _ _ _ hm hs => hm.step hs)
    (fun _ _ _ hm hs => blocks_of_step hm.unmade hs) inOrder_empty,
    fun e t h => (wp_iff.mp (wp_channel_command_uncertain opcode payload timeout chan known l)).2 e t h⟩

/-- A Start of a periodic message on channel 2 that is answered without a handle. -/
def starting_short (sequence : Nat) : Label :=
  .call (.PassThruStartPeriodicMsg 2 (some hundred) true 100)
    [.answered 0x0d (channel_node CAN.toNat) sequence]

/-- A read of the battery voltage, which sends nothing, and the end of channel and device. -/
def coming_down (sequence : Nat) : List Label :=
  [.call (.PassThruIoctl 1 READ_VBATT none true) [],
    .call (.PassThruDisconnect 2) [.answered 0x10 (channel_node CAN.toNat) sequence,
      .answered 7 (channel_node CAN.toNat) (sequence + 1)],
    .call (.PassThruClose 1) [.answered 5 1 (sequence + 2), .transport none]]

/-- The Start sets the flag without sending more, the read is refused, and what is sent
from there on is the clear, the close of the channel and that of the device. -/
theorem reopen_required_blocks_short :
    ∃ p t, Run.run step {} [opening, connecting CAN 4, starting_short 6] = some p ∧
      (p.objects 0).reopen_required = true ∧ (p.objects 0).uncertain.length = 0 ∧
      Run.run step p (coming_down 7) = some t ∧
      (t.objects 0).uncertain.map (fun e => e.command.opcode) = [0x10, 7, 5] ∧
      Run.Along step Blocks {} ([opening, connecting CAN 4, starting_short 6] ++ coming_down 7) := by
  have heval : ((Run.run step {} [opening, connecting CAN 4, starting_short 6]).bind fun p =>
      (Run.run step p (coming_down 7)).map fun t =>
        ((p.objects 0).reopen_required, (p.objects 0).uncertain.length,
          (t.objects 0).uncertain.map fun e => e.command.opcode)) = some (true, 0, [0x10, 7, 5]) := by
    decide +kernel
  obtain ⟨p, hp, heval⟩ := Option.bind_eq_some_iff.mp heval
  obtain ⟨t, ht, heval⟩ := Option.map_eq_some_iff.mp heval
  simp only [Prod.mk.injEq] at heval
  obtain ⟨hr, hnone, hdown⟩ := heval
  exact ⟨p, t, hp, hr, hnone, ht, hdown,
    (reopen_required_blocks _ (p.view 0 []) 7 [] 10000 0 none).1⟩

end Process

end Mongoose
