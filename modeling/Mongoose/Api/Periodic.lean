import Mongoose.Api.Held

/-!
# Mongoose.Api.Periodic

When a periodic message that may be running is remembered.

A teardown empties the map of periodic messages, then clears them on the wire, then
closes the channel.  `Locked.Torn` says how such a pair of commands can end.  A
Disconnect whose clear and close both fail forgets what may still be running, and a
later Close then closes the channel without a clear: `forgotten` is such a run, and
`remembered_iff` says that there is no other kind.
-/

namespace Mongoose

open Prog Lifecycle

/-! ## teardowns -/

/-- Something may be running in the adapter's table. -/
def Device.periodic (d : Device) : Bool := d.periodic_untracked || !d.periodics.isEmpty

/-- How a clear, if something may be running, and a close of the channel end. -/
structure Locked.Torn (l t : Locked) (o k : Option Exchange) : Prop where
  log : t.device.log = l.device.log ++ (o.toList ++ k.toList)
  clear : ∀ e, o = some e → l.device.ClearsPeriodic e.command
  close : ∀ e, k = some e → l.device.ClosesChannel e.command
  closed : t.device.closed = l.device.closed
  periodics : t.device.periodics = []
  untracked : t.device.periodic_untracked = (l.device.periodic_untracked && !o.any Exchange.accepted)
  wire : t.device.wire_channel_open = (l.device.wire_channel_open && !k.any Exchange.accepted)
  skipped : l.device.periodic = false → o = none
  turns : l.device.periodic = true → ∃ now steps now' steps' rest,
    l.script = .command now steps :: .command now' steps' :: rest ∧
      (o ≠ none ↔ steps.any Step.sends) ∧ (k ≠ none ↔ steps'.any Step.sends)

/-- How a Close ends: a teardown of the closed device, and the end of its session. -/
def Locked.TornDown (l u : Locked) : Prop :=
  ∃ t o k es, ({ l with device := { l.device with closed := true } } : Locked).Torn t o k ∧
    u.device.log = t.device.log ++ es ∧ ∀ e ∈ es, e.command.opcode = 5

/-- A channel that was just retired: the map is empty and the flag as it was. -/
structure Locked.Retired (l r : Locked) : Prop where
  log : r.device.log = l.device.log
  protocol : r.device.protocol = l.device.protocol
  closed : r.device.closed = l.device.closed
  periodics : r.device.periodics = []
  untracked : r.device.periodic_untracked = l.device.periodic_untracked
  wire : r.device.wire_channel_open = l.device.wire_channel_open
  script : r.script = l.script

/-- How the clear ends. -/
structure Locked.Cleared (l t : Locked) (o : Option Exchange) : Prop where
  log : t.device.log = l.device.log ++ o.toList
  protocol : t.device.protocol = l.device.protocol
  clear : ∀ e, o = some e → l.device.ClearsPeriodic e.command
  closed : t.device.closed = l.device.closed
  periodics : t.device.periodics = []
  untracked : t.device.periodic_untracked = (l.device.periodic_untracked && !o.any Exchange.accepted)
  wire : t.device.wire_channel_open = l.device.wire_channel_open
  skipped : l.device.periodic = false → o = none ∧ t.script = l.script
  turn : l.device.periodic = true → ∃ now steps,
    l.script = .command now steps :: t.script ∧ (o ≠ none ↔ steps.any Step.sends)

/-- There is an exchange, or there is none. -/
theorem toList_ne_nil {α : Type} {o : Option α} : o.toList ≠ [] ↔ o ≠ none := by cases o <;> simp

section teardown

variable {l t : Locked} {Q : Unit → Locked → Prop} {E : Exception → Locked → Prop}

/-- The clear of a channel that was just retired. -/
theorem wp_clear_retired {r : Locked} {Q : Option Exception → Locked → Prop}
    (hr : l.Retired r) (hperiodic : l.device.periodic = true)
    (hQ : ∀ error t o, l.Cleared t o → Q error t) : wp (attempt clear_periodic_table) Q E r := by
  rw [wp_attempt, clear_periodic_table, wp_bind]
  have hcmd {e : Exchange}
      (he : e.command = r.device.channelCommand 0x10 [table_periodic, 0, 0, 0] 10000 0 none) :
      l.device.ClearsPeriodic e.command := by
    rw [Device.ClearsPeriodic, he, Device.channelCommand, Device.channelCommand, hr.protocol]
  have hturn {t : Locked} {o : Option Exchange} (hc : r.Commanded t o.toList) :
      ∃ now steps, l.script = .command now steps :: t.script ∧ (o ≠ none ↔ steps.any Step.sends) := by
    obtain ⟨now, steps, hs, hsends⟩ := hc.turn
    exact ⟨now, steps, hr.script ▸ hs, toList_ne_nil.symm.trans hsends⟩
  refine wp_accepted_command (by decide) (fun t e hc he hacc _ => ?_) fun err t o hc ho => ?_
  · rw [wp_update]
    have heq := hc.moved.eq
    refine hQ _ _ (some e) ⟨?_, ?_, fun x hx => Option.some.inj hx ▸ hcmd he, ?_, rfl, ?_, ?_,
      fun hno => absurd hperiodic (by simp [hno]), fun _ => hturn (t := t) (o := some e) hc⟩
    · rw [heq, hr.log]
      rfl
    · rw [heq, hr.protocol]
    · rw [heq, hr.closed]
    · simp [hacc]
    · rw [heq, hr.wire]
  · have heq := hc.moved.eq
    refine hQ _ _ o ⟨?_, ?_, fun e he => hcmd (ho e he).1, ?_, ?_, ?_, ?_,
      fun hno => absurd hperiodic (by simp [hno]), fun _ => hturn hc⟩
    · rw [heq, hr.log]
    · rw [heq, hr.protocol]
    · rw [heq, hr.closed]
    · rw [heq, hr.periodics]
    · have hacc : o.any Exchange.accepted = false := by
        cases o with
        | none => rfl
        | some e => exact (ho e rfl).2.1
      rw [heq, hr.untracked, hacc]
      simp
    · rw [heq, hr.wire]

/-- Then the close. -/
theorem wp_close_cleared {o : Option Exchange} (h : l.Cleared t o)
    (hQ : ∀ u k, l.Torn u o k → Q () u) (hE : ∀ e u k, l.Torn u o k → E e u) :
    wp close_channel Q E t := by
  have hcmd {e : Exchange} (he : e.command = t.device.channelCommand 7 [] 10000 0 none) :
      l.device.ClosesChannel e.command := by
    rw [Device.ClosesChannel, he, Device.channelCommand, Device.channelCommand, h.protocol]
  have hturns {u : Locked} {k : Option Exchange} (hc : t.Commanded u k.toList)
      (hperiodic : l.device.periodic = true) : ∃ now steps now' steps' rest,
      l.script = .command now steps :: .command now' steps' :: rest ∧
        (o ≠ none ↔ steps.any Step.sends) ∧ (k ≠ none ↔ steps'.any Step.sends) := by
    obtain ⟨now, steps, hs, hsends⟩ := h.turn hperiodic
    obtain ⟨now', steps', hs', hsends'⟩ := hc.turn
    exact ⟨now, steps, now', steps', u.script, by rw [hs, hs'], hsends, toList_ne_nil.symm.trans hsends'⟩
  refine wp_close_channel (fun u e hc he hacc _ => ?_) fun err u k hc hk => ?_
  · have heq := hc.moved.eq
    refine hQ _ (some e) ⟨?_, h.clear, fun x hx => Option.some.inj hx ▸ hcmd he, ?_, ?_, ?_, ?_,
      fun hno => (h.skipped hno).1, hturns (k := some e) hc⟩
    · rw [heq, h.log, List.append_assoc]
      rfl
    · rw [heq, h.closed]
    · rw [heq, h.periodics]
    · rw [heq, h.untracked]
    · simp [hacc]
  · have heq := hc.moved.eq
    refine hE err u k ⟨?_, h.clear, fun e he => hcmd (hk e he).1, ?_, ?_, ?_, ?_,
      fun hno => (h.skipped hno).1, hturns hc⟩
    · rw [heq, h.log, List.append_assoc]
    · rw [heq, h.closed]
    · rw [heq, h.periodics]
    · rw [heq, h.untracked]
    · have hacc : k.any Exchange.accepted = false := by
        cases k with
        | none => rfl
        | some e => exact (hk e rfl).2.1
      rw [heq, h.wire, hacc]
      simp

/-- A retired channel of which nothing may be running was cleared. -/
theorem Locked.Retired.cleared {r : Locked} (hr : l.Retired r) (hperiodic : l.device.periodic = false) :
    l.Cleared r none := by
  refine ⟨by simp [hr.log], hr.protocol, nofun, hr.closed, hr.periodics, by simp [hr.untracked], hr.wire,
    fun _ => ⟨rfl, hr.script⟩, fun h => ?_⟩
  rw [hperiodic] at h
  cases h

/-- How a Disconnect ends. -/
theorem wp_PassThruDisconnect_torn :
    wp PassThruDisconnect (fun _ t => ∃ o k, l.Torn t o k) (fun _ t => ∃ o k, l.Torn t o k) l := by
  rw [PassThruDisconnect_eq, wp_bind]
  refine wp_retire_channel fun s ls hs => ?_
  have hend {t : Locked} {o : Option Exchange} {error : Option Exception} (ht : l.Cleared t o) :
      wp (end_channel error) (fun _ t => ∃ o k, l.Torn t o k) (fun _ t => ∃ o k, l.Torn t o k) t := by
    have hreopen {u : Locked} {k : Option Exchange} (h : l.Torn u o k) :
        ∃ o k, l.Torn { u with device := { u.device with reopen_required := true } } o k :=
      ⟨o, k, h.log, h.clear, h.close, h.closed, h.periodics, h.untracked, h.wire, h.skipped, h.turns⟩
    rw [end_channel]
    simp only [wp_bind, wp_tryCatch, wp_update, wp_throw, wp_when, wp_rethrow]
    refine wp_close_cleared ht (fun u k hu => ?_) fun _ u k hu => hreopen hu
    exact ⟨fun _ => ⟨fun _ => hreopen hu, fun _ _ => hreopen hu⟩,
      fun _ => ⟨fun _ => ⟨o, k, hu⟩, fun _ _ => ⟨o, k, hu⟩⟩⟩
  refine wp_clear_if.mpr ⟨fun hperiodic => ?_, fun hperiodic => ?_⟩
  · exact wp_clear_retired (l := l) ⟨rfl, rfl, rfl, rfl, rfl, rfl, rfl⟩ hperiodic fun _ _ _ ht => hend ht
  · have hno : l.device.periodic = false := by rwa [Bool.not_eq_true] at hperiodic
    exact hend (Locked.Retired.cleared ⟨rfl, rfl, rfl, rfl, rfl, rfl, rfl⟩ hno)

/-- How a Close of an open wire channel ends: the device is closed first, and taken
off the bus last. -/
theorem wp_PassThruClose_torn (hwire : l.device.wire_channel_open = true) (id : UInt32) :
    wp (PassThruClose id) (fun _ => l.TornDown) (fun _ => l.TornDown) l := by
  rw [PassThruClose_eq]
  simp only [wp_bind, wp_update, wp_alter]
  refine wp_retire_channel fun s ls hs => ?_
  let c : Locked := { l with device := { l.device with closed := true } }
  have hdevice {t : Locked} {o k : Option Exchange} {error : Option Exception} (ht : c.Torn t o k) :
      wp (end_device error) (fun _ => l.TornDown) (fun _ => l.TornDown) t := by
    have hkeeps : Keeps (t.Within False True True fun e => e.command.opcode = 5) (end_device error) :=
      keeps_end_device (keeps_command fun _ _ => rfl) keeps_close error
    have hend {u : Locked} (hu : t.Within False True True (fun e => e.command.opcode = 5) u) :
        l.TornDown u := by
      obtain ⟨es, hlog, hes⟩ := hu.device.log
      exact ⟨t, o, k, es, ht, hlog, hes⟩
    exact Triple.call hkeeps (.refl t) (fun _ _ => hend) fun _ _ => hend
  have hclose {t : Locked} {o : Option Exchange} {error : Option Exception} (ht : c.Cleared t o) :
      wp (end_wire error) (fun _ => l.TornDown) (fun _ => l.TornDown) t := by
    rw [end_wire, wp_bind, wp_read]
    refine (wp_ite _ _ _).mpr ⟨fun _ => ?_, fun hshut => absurd (ht.wire.trans hwire) hshut⟩
    rw [wp_bind, wp_attempt]
    exact wp_close_cleared ht (fun _ _ hu => hdevice hu) fun _ _ _ hu => hdevice hu
  simp only [wp_read]
  refine wp_clear_if.mpr ⟨fun hperiodic => ?_, fun hperiodic => ?_⟩
  · exact wp_clear_retired (l := c) ⟨rfl, rfl, rfl, rfl, rfl, rfl, rfl⟩ hperiodic.2 fun _ _ _ ht => hclose ht
  · have hno : c.device.periodic = false := by
      simpa [c, hwire, Device.periodic] using hperiodic
    exact hclose (Locked.Retired.cleared (l := c) ⟨rfl, rfl, rfl, rfl, rfl, rfl, rfl⟩ hno)

end teardown

/-! ## what is remembered -/

/-- What may be running on an open wire channel is in the map, or the flag is set. -/
def Device.Remembers (d : Device) : Prop :=
  d.closed = false → d.wire_channel_open = true → held d.log ≠ [] →
    d.periodics ≠ [] ∨ d.periodic_untracked = true

/-- A close comes after a clear of the periodic table. -/
def Device.ClearsFirst (d d' : Device) : Prop :=
  ∀ a e b, d'.log = d.log ++ (a ++ e :: b) → e.command.opcode = 7 →
    ∃ x ∈ a, x.command.opcode = 0x10 ∧ x.command.table = some table_periodic

/-- Without a close nothing has to be cleared first. -/
theorem Device.ClearsFirst.of_eq {d d' : Device} (h : d'.log = d.log) : d.ClearsFirst d' := by
  intro a e b hlog
  rw [h] at hlog
  simp at hlog

/-- A device that tracks what it holds remembers that it does. -/
theorem Device.Tracked.remembers {d : Device} (h : d.Tracked) (hne : held d.log ≠ []) :
    d.periodics ≠ [] ∨ d.periodic_untracked = true := by
  refine h.symm.imp_left fun h => ?_
  obtain ⟨e, he⟩ := List.exists_mem_of_ne_nil _ hne
  obtain ⟨id, handle, -, hlookup⟩ := h e he
  intro hnil
  rw [hnil] at hlookup
  cases hlookup

/-- Something may be running if the map or the flag says so. -/
theorem Device.periodic_iff {d : Device} :
    d.periodic = true ↔ d.periodics ≠ [] ∨ d.periodic_untracked = true := by
  simp [Device.periodic, or_comm]

/-- Two commands of which the first is written if the second is. -/
def WritesFirst (script : List Turn) : Prop :=
  ∀ now steps now' steps' rest, script = .command now steps :: .command now' steps' :: rest →
    steps'.any Step.sends → steps.any Step.sends

namespace Locked.Torn

variable {l t : Locked} {o k : Option Exchange}

theorem o_refused (h : l.Torn t o k) (e : Exchange) (he : o = some e) : ¬ e.AddsPeriodic := by
  intro hadd
  have hop := hadd.1
  rw [h.clear e he, Device.channelCommand] at hop
  cases hop

theorem k_refused (h : l.Torn t o k) (e : Exchange) (he : k = some e) : ¬ e.AddsPeriodic := by
  intro hadd
  have hop := hadd.1
  rw [h.close e he, Device.channelCommand] at hop
  cases hop

/-- The close comes after the clear, if that was written. -/
theorem clearsFirst (h : l.Torn t o k) (hperiodic : l.device.periodic = true)
    (hwrites : WritesFirst l.script) {a b es : List Exchange} {e : Exchange}
    (hes : ∀ x ∈ es, x.command.opcode = 5) (heq : o.toList ++ k.toList ++ es = a ++ e :: b)
    (hop : e.command.opcode = 7) :
    ∃ x ∈ a, x.command.opcode = 0x10 ∧ x.command.table = some table_periodic := by
  obtain ⟨now, steps, now', steps', rest, hscript, ho, hk⟩ := h.turns hperiodic
  cases o with
  | some x =>
      have hx : x.command.opcode = 0x10 ∧ x.command.table = some table_periodic := by
        rw [h.clear x rfl]
        exact ⟨rfl, rfl⟩
      cases a with
      | nil =>
          simp only [Option.toList_some, List.cons_append, List.nil_append, List.cons.injEq] at heq
          rw [← heq.1, hx.1] at hop
          cases hop
      | cons y a =>
          simp only [Option.toList_some, List.cons_append, List.nil_append, List.cons.injEq] at heq
          exact ⟨y, List.mem_cons_self, heq.1 ▸ hx⟩
  | none =>
      cases k with
      | some x => exact absurd rfl (ho.mpr (hwrites _ _ _ _ _ hscript (hk.mp (by simp))))
      | none =>
          have he : e ∈ es := by
            simp only [Option.toList_none, List.nil_append] at heq
            rw [heq]
            exact List.mem_append_right _ List.mem_cons_self
          rw [hes e he] at hop
          cases hop

/-- A close that was written without its clear comes first. -/
theorem writesFirst (h : l.Torn t o k) (hperiodic : l.device.periodic = true)
    (hfirst : ∀ e, o = none → k = some e → False) : WritesFirst l.script := by
  intro now steps now' steps' rest hscript hsends
  obtain ⟨_, _, _, _, _, hscript', ho, hk⟩ := h.turns hperiodic
  rw [hscript] at hscript'
  simp only [List.cons.injEq, Turn.command.injEq] at hscript'
  obtain ⟨⟨-, rfl⟩, ⟨-, rfl⟩, -⟩ := hscript'
  refine ho.mp fun hnone => ?_
  obtain ⟨e, he⟩ := Option.ne_none_iff_exists'.mp (hk.mpr hsends)
  exact hfirst e hnone he

/-- What the adapter may hold when neither was accepted. -/
theorem held_eq (h : l.Torn t o k) (ho : o.any Exchange.accepted = false)
    (hk : k.any Exchange.accepted = false) : held t.device.log = held l.device.log := by
  rw [h.log, ← List.append_assoc]
  have hstep {x : Option Exchange} {log : List Exchange} (hx : x.any Exchange.accepted = false)
      (hadd : ∀ e, x = some e → ¬ e.AddsPeriodic) : held (log ++ x.toList) = held log := by
    cases x with
    | none => simp
    | some e => exact held_concat.trans (held_step_refused hx (.inl (hadd e rfl)))
  rw [hstep hk h.k_refused, hstep ho h.o_refused]

/-- The device still knows of what may be running, if nothing was or the adapter
accepted one of the two. -/
theorem tracked (h : l.Torn t o k) (hopen : t.device.wire_channel_open = true)
    (haccepted : held l.device.log ≠ [] → l.device.periodic_untracked = false →
      ∃ e ∈ o.toList ++ k.toList, e.accepted = true) : t.device.Tracked := by
  have hk : k.any Exchange.accepted = false := by
    have hwire := h.wire
    rw [hopen, eq_comm, Bool.and_eq_true, Bool.not_eq_true'] at hwire
    exact hwire.2
  cases ho : o.any Exchange.accepted with
  | true =>
      obtain ⟨e, rfl, hacc⟩ : ∃ e, o = some e ∧ e.accepted = true := by
        cases o with
        | none => cases ho
        | some e => exact ⟨e, rfl, ho⟩
      refine .of_nil (List.eq_nil_iff_forall_not_mem.mpr fun x hx => ?_)
      have hclear : e.clearsPeriodic = true := by
        rw [Exchange.clearsPeriodic, h.clear e rfl, hacc]
        rfl
      rw [h.log, ← List.append_assoc] at hx
      have hx := held_subset (fun y hy => h.k_refused y (Option.mem_toList.mp hy)) hx
      rw [Option.toList_some, held_concat, held_step_clears hclear] at hx
      cases hx
  | false =>
      have huntracked := h.untracked
      rw [ho, Bool.not_false, Bool.and_true] at huntracked
      cases hl : l.device.periodic_untracked with
      | true => exact .inl (huntracked.trans hl)
      | false =>
          refine .of_nil ((h.held_eq ho hk).trans (by_contra fun hne => ?_))
          obtain ⟨e, he, hacc⟩ := haccepted hne hl
          have hnone {x : Option Exchange} (hx : x.any Exchange.accepted = false) (hmem : e ∈ x.toList) :
              False := by
            rw [Option.mem_toList.mp hmem] at hx
            exact absurd hacc (by simpa using hx)
          exact (List.mem_append.mp he).elim (hnone ho) (hnone hk)

end Locked.Torn

/-! ## runs -/

namespace ApiCall

/-- Disconnect and Close. -/
def tears : ApiCall → Bool
  | .PassThruDisconnect _ | .PassThruClose _ => true
  | _ => false

end ApiCall

/-- A Connect that finds a channel, or a device to be reopened, does nothing. -/
theorem wp_PassThruConnect_busy {l : Locked} (protocol flags baud : UInt32)
    (h : l.device.reopen_required = true ∨ l.device.channel ≠ 0) :
    wp (PassThruConnect protocol flags baud) (fun _ t => t.device = l.device)
      (fun _ t => t.device = l.device) l := by
  refine wp_PassThruConnect_within (F := True) (P := True) (R := fun t => t.device = l.device) rfl
    (fun _ _ _ _ _ => trivial) (fun _ _ _ => trivial) (fun _ _ _ => trivial) rfl
    fun t hreopen hchannel (_ : Locked.Within False True True (fun _ => True) _ _) => ?_
  obtain h | h := h
  · rw [hreopen] at h
    cases h
  · exact absurd hchannel h

namespace Process

variable {p p' : Process} {script : List Turn} {c : ApiCall} {r : Except Exception Unit} {out : Out}

/-- Every open device keeps track of what may be running on its open wire channel. -/
def Tracked (p : Process) : Prop :=
  ∀ ref, (p.objects ref).closed = false → (p.objects ref).wire_channel_open = true →
    (p.objects ref).Tracked

/-- What a step leaves is remembered, and a teardown of a channel on which something
may be running clears before it closes. -/
def Remembered (p : Process) (l : Label) (t : Process) : Prop :=
  (∀ ref, (t.objects ref).Remembers) ∧
  ∀ c script ref, l = .call c script → c.tears = true → (p.objects ref).closed = false →
    (p.objects ref).wire_channel_open = true → held (p.objects ref).log ≠ [] →
      (p.objects ref).ClearsFirst (t.objects ref)

/-- A teardown of a channel on which something may be running writes its clear if it
writes its close, and of the two commands of a Disconnect that has only its map the
adapter accepts one. -/
def Heard (p : Process) (l : Label) (t : Process) : Prop :=
  ∀ c script ref, l = .call c script → c.tears = true → p.lookup c.target.1 c.target.2 = .ok ref →
    (p.objects ref).wire_channel_open = true → held (p.objects ref).log ≠ [] →
      WritesFirst script ∧
      ∀ id, c = .PassThruDisconnect id → (p.objects ref).periodic_untracked = false →
        ∃ es, (t.objects ref).log = (p.objects ref).log ++ es ∧ ∃ e ∈ es, e.accepted = true

/-- At first nothing is held. -/
theorem tracked_empty : ({} : Process).Tracked := fun _ _ h => nomatch h

/-- One device was put back. -/
theorem Tracked.put (h : p.Tracked) {ref : DeviceRef} {t : Locked}
    (ht : t.device.closed = false → t.device.wire_channel_open = true → t.device.Tracked) :
    (p.put ref t).Tracked := by
  intro ref'
  by_cases hr : ref' = ref
  · subst hr
    rw [put_objects_self]
    exact ht
  · rw [put_objects_of_ne hr]
    exact h ref'

/-- A step that adds nothing to an open device. -/
theorem Tracked.within {C F : Prop} {ok : Exchange → Prop} {d d' : Device}
    (h : d.closed = false → d.wire_channel_open = true → d.Tracked) (hC : C)
    (hw : d.Within C F True ok d') (hok : ∀ e, ok e → ¬ e.AddsPeriodic) :
    d'.closed = false → d'.wire_channel_open = true → d'.Tracked := by
  rw [hw.closed hC, hw.wire_channel_open hC]
  exact fun hc ho => (h hc ho).within hw hok

/-- A Connect opens a channel on which nothing runs. -/
theorem Tracked.connect {l t : Locked} {id protocol flags baud : UInt32} {channel : Bool}
    (h : l.device.Tracked ∨ l.device.wire_channel_open = false) (hsound : l.Sound)
    (hclosed : l.device.closed = false)
    (ht : (ApiCall.PassThruConnect id protocol flags baud channel).program.exec l = some (r, t)) :
    t.device.wire_channel_open = true → t.device.Tracked := by
  intro hopen
  have hafter := wp_end (ApiCall.wp_after l (.PassThruConnect id protocol flags baud channel)) ht
  obtain ⟨es, hlog, hes⟩ := hafter.log
  have hsettled : t.device.Settled := by
    refine wp_end (P := fun t => t.device.Settled) (wp_mono (wp_PassThruConnect hsound hclosed _ _ _)
      (fun _ _ h => h.sound.settled) fun _ _ h => h.toLeaves.sound.settled) ht
  cases hwire : l.device.wire_channel_open with
  | false =>
      refine .of_nil ?_
      rw [hlog]
      refine held_of_opened (fun e he => (hes e he).not_addsPeriodic fun _ _ _ _ => nofun)
        (hsound.settled.isOpen.trans hwire) ?_
      rw [← hlog, hsettled.isOpen]
      exact hopen
  | true =>
      have hbusy := wp_end (P := fun t => t.device = l.device)
        (wp_PassThruConnect_busy protocol flags baud (hsound.settled.wire hclosed hwire).symm) ht
      rw [hbusy]
      exact h.resolve_right (by simp [hwire])

/-- Steps that are heard keep track of everything. -/
theorem Tracked.call (h : p.Tracked) (hsound : p.Sound) (htabled : p.Tabled)
    (hcall : p.call script c = some (r, out, p')) (hheard : p.Heard (.call c script) p') :
    p'.Tracked := by
  obtain ⟨e, -, -, rfl⟩ | ⟨id, rfl, hlocked⟩ | ⟨hopen, ref, hlookup, hlocked⟩ := call_cases hcall
  · exact h
  · obtain ⟨t, ht, -, rfl⟩ := locked_cases hlocked
    let q : Process := { p with made := p.made + 1 }
    have hq : q.Tracked := h
    have hwithin {t : Locked} (ht : (q.view p.made script).Within True True True
        (fun e => ∃ opcode ∈ [0x103, 3, 0x109, 5], e.command = { opcode := opcode }) t) :
        t.device.closed = false → t.device.wire_channel_open = true → t.device.Tracked :=
      Tracked.within (h p.made) trivial ht.device fun e he hadd => by
        obtain ⟨opcode, hop, he⟩ := he
        have h0d := hadd.1
        rw [he] at h0d
        simp only at h0d
        rw [h0d] at hop
        exact absurd hop (by decide)
    exact hq.put (wp_end (wp_PassThruOpen_within (fun opcode hop _ _ => ⟨opcode, hop, rfl⟩)
      (fun _ _ ht _ _ => hwithin ht) fun _ _ => hwithin) ht)
  · obtain ⟨t, ht, -, rfl⟩ := locked_cases hlocked
    have hclosed := (lookup_ok hlookup).2.1
    refine h.put fun hc hw => ?_
    cases hlife : c.lifecycle with
    | false =>
        cases hwire : (p.objects ref).wire_channel_open with
        | true =>
            exact wp_end (P := fun t => t.device.Tracked)
              (ApiCall.wp_tracked (l := p.view ref script) (h ref hclosed hwire) (htabled ref hclosed).1 hlife) ht
        | false =>
            have hkept := wp_end (P := fun t => t.device.wire_channel_open = _)
              (Triple.call (ApiCall.keeps_program hlife) (.refl (p.view ref script))
                (fun _ _ ht => ht.device.wire_channel_open trivial)
                fun _ _ ht => ht.device.wire_channel_open trivial) ht
            rw [hkept] at hw
            exact absurd (hwire.symm.trans hw) (by decide)
    | true =>
        cases c with
        | PassThruOpen id => exact absurd rfl (hopen id)
        | PassThruConnect id protocol flags baud channel =>
            refine Tracked.connect ?_ (hsound.view ref script) hclosed ht hw
            cases hwire : (p.objects ref).wire_channel_open with
            | true => exact .inl (h ref hclosed hwire)
            | false => exact .inr hwire
        | PassThruClose id =>
            have hend := (wp_end (wp_PassThruClose (hsound.view ref script) id) ht).closed
            rw [hend] at hc
            cases hc
        | PassThruDisconnect id =>
            have hopen := hsound.open_of_lookup hlookup
            obtain ⟨o, k, htorn⟩ := wp_end wp_PassThruDisconnect_torn ht
            refine htorn.tracked hw fun hne huntracked => ?_
            obtain ⟨es, hlog, he⟩ := (hheard _ script ref rfl rfl hlookup hopen hne).2 id rfl huntracked
            rw [put_objects_self, htorn.log] at hlog
            rw [List.append_cancel_left hlog]
            exact he
        | _ => cases hlife

/-- A step whose teardown is heard keeps track. -/
theorem Tracked.step (h : p.Tracked) (hsound : p.Sound) (htabled : p.Tabled) {l : Label}
    (hs : p.step l = some p') (hheard : p.Heard l p') : p'.Tracked := by
  cases l with
  | call c script =>
      obtain ⟨⟨r, out, t⟩, hcall, rfl⟩ := Option.map_eq_some_iff.mp hs
      exact h.call hsound htabled hcall hheard
  | event ref e =>
      obtain ⟨-, hs⟩ := Option.ite_none_right_eq_some.mp hs
      obtain ⟨s, hrun, rfl⟩ := Option.map_eq_some_iff.mp hs
      let t : Locked := { p.view ref [] with device := { p.objects ref with session := s } }
      exact h.put (t := t) (h ref)

/-- A teardown of a channel on which something may be running, in full. -/
theorem torn_of_tears {ref : DeviceRef} {t : Locked} (h : p.Tracked)
    (htears : c.tears = true) (hlookup : p.lookup c.target.1 c.target.2 = .ok ref)
    (hwire : (p.objects ref).wire_channel_open = true) (hne : held (p.objects ref).log ≠ [])
    (ht : c.program.exec (p.view ref script) = some (r, t)) :
    ∃ u v o k es, (u : Locked).Torn v o k ∧ u.device.log = (p.objects ref).log ∧ u.script = script ∧
      u.device.periodic = true ∧ t.device.log = v.device.log ++ es ∧
      ∀ e ∈ es, e.command.opcode = 5 := by
  have hperiodic : (p.objects ref).periodic = true :=
    Device.periodic_iff.mpr ((h ref (lookup_ok hlookup).2.1 hwire).remembers hne)
  cases c with
  | PassThruClose id =>
      obtain ⟨v, o, k, es, htorn, hlog, hes⟩ := wp_end (wp_PassThruClose_torn hwire id) ht
      exact ⟨_, v, o, k, es, htorn, rfl, rfl, hperiodic, hlog, hes⟩
  | PassThruDisconnect id =>
      obtain ⟨o, k, htorn⟩ := wp_end wp_PassThruDisconnect_torn ht
      exact ⟨_, t, o, k, [], htorn, rfl, rfl, hperiodic, by simp, by simp⟩
  | _ => cases htears

/-- A teardown that finds its handle runs its program. -/
theorem call_tears {ref : DeviceRef} (htears : c.tears = true)
    (hlookup : p.lookup c.target.1 c.target.2 = .ok ref) :
    p.call script c = p.locked ref script c.program := by
  have hopen (id : Bool) : c ≠ .PassThruOpen id := by
    rintro rfl
    cases htears
  have hchecks : c.checks = .ok () := by
    cases c with
    | PassThruClose | PassThruDisconnect => rfl
    | _ => cases htears
  rw [call_eq hopen, hchecks, on_ok hlookup]

/-- What is tracked is remembered, and torn down in order. -/
theorem Tracked.remembered (h : p.Tracked) (h' : p'.Tracked) {l : Label} (hs : p.step l = some p')
    (hheard : p.Heard l p') : p.Remembered l p' := by
  refine ⟨fun ref hc hw hne => (h' ref hc hw).remembers hne, ?_⟩
  rintro c script ref rfl htears hclosed hwire hne
  obtain ⟨⟨r, out, t⟩, hcall, rfl⟩ := Option.map_eq_some_iff.mp hs
  obtain ⟨e, -, -, rfl⟩ | ⟨id, rfl, -⟩ | ⟨-, ref', hlookup, hlocked⟩ := call_cases hcall
  · exact .of_eq rfl
  · cases htears
  · obtain ⟨t, ht, -, rfl⟩ := locked_cases hlocked
    by_cases hr : ref = ref'
    · subst hr
      obtain ⟨u, v, o, k, es, htorn, hlog, hscript, hperiodic, hlog', hes⟩ :=
        torn_of_tears h htears hlookup hwire hne ht
      intro a e b hab hop
      have hwrites := (hheard c script ref rfl htears hlookup hwire hne).1
      rw [put_objects_self, hlog', htorn.log, hlog, List.append_assoc] at hab
      exact htorn.clearsFirst hperiodic (hscript ▸ hwrites) hes (List.append_cancel_left hab) hop
    · exact .of_eq (by rw [put_objects_of_ne hr])

/-- A step that remembers had its teardown heard. -/
theorem Remembered.heard {l : Label} (h : p.Tracked) (hs : p.step l = some p')
    (hrem : p.Remembered l p') : p.Heard l p' := by
  rintro c script ref rfl htears hlookup hwire hne
  have hclosed := (lookup_ok hlookup).2.1
  obtain ⟨⟨r, out, t⟩, hcall, rfl⟩ := Option.map_eq_some_iff.mp hs
  rw [call_tears htears hlookup] at hcall
  obtain ⟨t, ht, -, rfl⟩ := locked_cases hcall
  obtain ⟨u, v, o, k, es, htorn, hlog, hscript, hperiodic, hlog', hes⟩ :=
    torn_of_tears h htears hlookup hwire hne ht
  constructor
  · refine hscript ▸ htorn.writesFirst hperiodic fun e ho hk => ?_
    have hfirst := hrem.2 c script ref rfl htears hclosed hwire hne [] e es ?_ ?_
    · obtain ⟨x, hx, -⟩ := hfirst
      cases hx
    · rw [put_objects_self, hlog', htorn.log, hlog, ho, hk]
      simp
    · rw [htorn.close e hk]
      rfl
  · rintro id rfl huntracked
    obtain ⟨o, k, htorn⟩ := wp_end wp_PassThruDisconnect_torn ht
    refine ⟨o.toList ++ k.toList, by rw [put_objects_self]; exact htorn.log, by_contra fun hnone => ?_⟩
    have hrefused {x : Option Exchange} (hx : ∀ e ∈ x.toList, e ∈ o.toList ++ k.toList) :
        x.any Exchange.accepted = false := by
      cases x with
      | none => rfl
      | some e =>
          rw [Option.any_some, ← Bool.not_eq_true]
          exact fun hacc => hnone ⟨e, hx e (by simp), hacc⟩
    have ho := hrefused (x := o) fun e he => List.mem_append_left _ he
    have hk := hrefused (x := k) fun e he => List.mem_append_right _ he
    have hopen : t.device.wire_channel_open = true := by
      rw [htorn.wire, hk]
      simp [view, hwire]
    have hheld : held t.device.log ≠ [] := by
      rw [htorn.held_eq ho hk]
      exact hne
    have hend := hrem.1 ref
    rw [put_objects_self] at hend
    obtain hmap | hflag := hend (htorn.closed.trans hclosed) hopen hheld
    · exact hmap htorn.periodics
    · rw [htorn.untracked] at hflag
      simp [view, huntracked] at hflag

/-- **When a running periodic message is remembered.** Along a run every open device
remembers what may be running on its open wire channel, and every teardown of such a
channel clears before it closes, exactly when every teardown is heard. -/
theorem remembered_iff {ls : List Label} (h : Run.run step {} ls = some p) :
    Run.Along step Remembered {} ls ↔ Run.Along step Heard {} ls := by
  refine (Run.run_induction
    (P := fun ls p => (Run.Along step Remembered {} ls ↔ Run.Along step Heard {} ls) ∧
      (Run.Along step Heard {} ls → p.Tracked))
    ⟨Iff.rfl, fun _ => tracked_empty⟩ (fun ls m l t hm ⟨hiff, htracked⟩ hs => ?_) h).1
  constructor
  · rw [Run.along_concat_iff hm hs, Run.along_concat_iff hm hs, hiff]
    refine and_congr_right fun hheard => ?_
    have ht := htracked hheard
    exact ⟨Remembered.heard ht hs,
      fun hl => ht.remembered (ht.step (sound_run hm) (tabled_run hm) hs hl) hs hl⟩
  · rw [Run.along_concat_iff hm hs]
    exact fun ⟨hheard, hl⟩ => (htracked hheard).step (sound_run hm) (tabled_run hm) hs hl

/-- A Disconnect of channel 2 whose clear and close the adapter both accepts. -/
def disconnecting_heard (sequence : Nat) : Label :=
  .call (.PassThruDisconnect 2) [.answered 0x10 (channel_node CAN.toNat) sequence,
    .answered 7 (channel_node CAN.toNat) (sequence + 1)]

/-- A periodic message is started and remembered until the teardown clears it. -/
theorem remembered_iff_starting :
    ∃ p t, Run.run step {} [opening, connecting CAN 4, starting 6] = some p ∧
      held (p.objects 0).log ≠ [] ∧ p.step (disconnecting_heard 7) = some t ∧
      Run.Along step Remembered {} [opening, connecting CAN 4, starting 6, disconnecting_heard 7] := by
  have heval : (Run.run step {} [opening, connecting CAN 4, starting 6]).bind (fun p =>
      (p.step (disconnecting_heard 7)).map fun t =>
        ((held (p.objects 0).log).length, (p.lookup 2 true).toOption,
          ((t.objects 0).log.drop (p.objects 0).log.length).map Exchange.accepted)) =
      some (1, some 0, [true, true]) := by
    decide +kernel
  obtain ⟨p, hp, heval⟩ := Option.bind_eq_some_iff.mp heval
  obtain ⟨t, ht, heval⟩ := Option.map_eq_some_iff.mp heval
  simp only [Prod.mk.injEq] at heval
  obtain ⟨hheld, hlookup, haccepted⟩ := heval
  have hrun := Run.run_concat hp ht
  refine ⟨p, t, hp, fun h => by simp [h] at hheld, ht, (remembered_iff hrun).mpr ?_⟩
  rw [Run.along_concat_iff hp ht]
  refine ⟨Run.along_of_mem fun l hl m u _ => ?_, ?_⟩
  · simp only [List.mem_cons, List.not_mem_nil, or_false] at hl
    obtain rfl | rfl | rfl := hl <;>
    · intro c script ref hc htears
      cases hc
      cases htears
  · intro c script ref hc _ hlookup' _ _
    cases hc
    obtain rfl : ref = 0 := by
      change p.lookup 2 true = _ at hlookup'
      rw [hlookup'] at hlookup
      exact Option.some.inj hlookup
    refine ⟨fun now steps now' steps' rest hscript _ => ?_, fun _ _ _ => ?_⟩
    · cases hscript
      rfl
    · obtain ⟨es, hlog⟩ : ∃ es, (t.objects 0).log = (p.objects 0).log ++ es := log_grows ht 0
      rw [hlog, List.drop_left] at haccepted
      obtain ⟨e, he, hacc⟩ := List.mem_map.mp (haccepted ▸ List.mem_cons_self)
      exact ⟨es, hlog, e, he, hacc⟩

/-! ## what is forgotten -/

/-- A Disconnect of channel 2 whose clear and close the adapter both refuses. -/
def disconnecting_refused (sequence : Nat) : Label :=
  .call (.PassThruDisconnect 2) [.answered 0x10 (channel_node CAN.toNat) sequence 1,
    .answered 7 (channel_node CAN.toNat) (sequence + 1) 1]

/-- A Close of device 1, which closes a channel first. -/
def closing (sequence : Nat) : Label :=
  .call (.PassThruClose 1) [.answered 7 (channel_node CAN.toNat) sequence, .answered 5 1 (sequence + 1),
    .transport none]

/-- The refused Disconnect forgets the periodic message, and the Close that follows
closes the channel without a clear. -/
theorem forgotten :
    ∃ p t, Run.run step {} [opening, connecting CAN 4, starting 6, disconnecting_refused 7] = some p ∧
      p.step (closing 9) = some t ∧ ¬ (p.objects 0).Remembers ∧
      (p.objects 0).closed = false ∧ (p.objects 0).wire_channel_open = true ∧
      held (p.objects 0).log ≠ [] ∧ ¬ (p.objects 0).ClearsFirst (t.objects 0) := by
  have hrun : (Run.run step {} [opening, connecting CAN 4, starting 6, disconnecting_refused 7]).map
      (fun p => (((p.objects 0).closed, (p.objects 0).wire_channel_open, (held (p.objects 0).log).length),
        ((p.objects 0).periodics, (p.objects 0).periodic_untracked),
        (p.step (closing 9)).map fun t =>
          ((t.objects 0).log.drop (p.objects 0).log.length).map fun e => e.command.opcode)) =
      some ((false, true, 1), ([], false), some [7, 5]) := by
    decide +kernel
  obtain ⟨p, hp, heval⟩ := Option.map_eq_some_iff.mp hrun
  simp only [Prod.mk.injEq] at heval
  obtain ⟨⟨hclosed, hwire, hheld⟩, ⟨hperiodics, huntracked⟩, heval⟩ := heval
  obtain ⟨t, ht, hopcodes⟩ := Option.map_eq_some_iff.mp heval
  have hne : held (p.objects 0).log ≠ [] := fun h => by simp [h] at hheld
  refine ⟨p, t, hp, ht, fun h => ?_, hclosed, hwire, hne, fun h => ?_⟩
  · obtain h | h := h hclosed hwire hne
    · exact h hperiodics
    · rw [huntracked] at h
      cases h
  · have hlog : ∃ es, (t.objects 0).log = (p.objects 0).log ++ es := log_grows ht 0
    obtain ⟨es, hlog⟩ := hlog
    rw [hlog, List.drop_left] at hopcodes
    cases es with
    | nil => cases hopcodes
    | cons e b =>
        obtain ⟨x, hx, -⟩ := h [] e b hlog (List.cons.inj hopcodes).1
        cases hx

end Process

end Mongoose
