import Mongoose.Api.Refine

/-!
# Mongoose.Api.Mirrored

The maps of every open device, over all runs of calls.

Each call but Close leaves the maps tabled; so does every step of the process for
every device that is still open, and with it every run.
-/

namespace Mongoose

open Prog Lifecycle

/-! ## every call -/

section calls

variable {l : Locked}

/-- The IOCTLs of a channel. -/
theorem wp_channel_ioctl_tabled (h : l.Tabled) (hchannel : l.device.channel ≠ 0) (ioctl_id : UInt32) :
    wp (channel_ioctl ioctl_id) (fun _ => Locked.Tabled) (fun _ => Locked.Tabled) l := by
  have hbuffer (selector : UInt8) (op : ReceiverOp) :
      wp (clear_buffer selector op) (fun _ => Locked.Tabled) (fun _ => Locked.Tabled) l :=
    Triple.call (keeps_clear_buffer fun _ _ => by simp [Locked.Tabled.Plain, Device.channelCommand])
      (.refl l) (fun _ _ => h.within) fun _ _ => h.within
  rw [channel_ioctl, session]
  simp only [wp_bind, wp_read, wp_throw_if]
  refine ⟨fun _ => h, fun _ => ?_⟩
  refine (wp_ite _ _ _).mpr ⟨fun _ => hbuffer _ _, fun _ => (wp_ite _ _ _).mpr ⟨fun _ => hbuffer _ _,
    fun _ => (wp_ite _ _ _).mpr ⟨fun _ => ?_, fun _ => (wp_ite _ _ _).mpr ⟨fun _ => ?_, fun _ => ?_⟩⟩⟩⟩
  · exact wp_clear_filters_tabled h hchannel fun _ => id
  · simp only [wp_bind, wp_read, wp_when]
    exact ⟨fun _ => wp_clear_periodic_tabled h, fun _ => h⟩
  · exact (wp_throw _).mpr h

/-- Every call but Close leaves the maps tabled. -/
theorem ApiCall.wp_tabled {c : ApiCall} (h : l.Tabled) (hc : ∀ id, c ≠ .PassThruClose id)
    (hchannel : c.target.2 = true → l.device.channel ≠ 0) :
    wp c.program (fun _ => Locked.Tabled) (fun _ => Locked.Tabled) l := by
  have hkeeps {m : Lifecycle Unit} (hm : Keeps (l.Within True True True Locked.Tabled.Plain) m) :
      wp m (fun _ => Locked.Tabled) (fun _ => Locked.Tabled) l :=
    Triple.call hm (.refl l) (fun _ _ => h.within) fun _ _ => h.within
  have hplain {cmd : Command} (hop : cmd.opcode ∉ [7, 0x0d, 0x0e, 0x10]) (q : Nat)
      (response : Option Bytes) : Locked.Tabled.Plain ⟨cmd, q, response⟩ := hop
  cases c with
  | PassThruOpen =>
      refine wp_PassThruOpen_within (fun opcode hop => hplain (by simp at hop ⊢; omega))
        (fun t id ht _ _ => ?_) fun _ _ => h.within
      have ht := h.within ht
      exact ⟨ht.maps, ht.refines⟩
  | PassThruClose id => exact absurd rfl (hc id)
  | PassThruConnect => exact wp_Connect_tabled h _ _ _
  | PassThruDisconnect => exact wp_Disconnect_tabled h
  | PassThruReadMsgs => exact hkeeps (keeps_PassThruReadMsgs _ _)
  | PassThruWriteMsgs =>
      exact hkeeps (keeps_PassThruWriteMsgs
        (fun _ _ _ => hplain (by simp [Device.channelCommand])) _ _ _)
  | PassThruStartPeriodicMsg => exact wp_StartPeriodic_tabled h (hchannel rfl) _ _
  | PassThruStopPeriodicMsg => exact wp_StopPeriodic_tabled h (hchannel rfl) _
  | PassThruStartMsgFilter => exact wp_StartFilter_tabled h (hchannel rfl) _ _ _ _
  | PassThruStopMsgFilter => exact wp_StopFilter_tabled h (hchannel rfl) _
  | PassThruSetProgrammingVoltage => exact (wp_throw _).mpr h
  | PassThruReadVersion => exact hkeeps (keeps_PassThruReadVersion (hplain (by decide)))
  | PassThruIoctl id ioctl_id input output =>
      rw [program]
      simp only [target, decide_eq_true_eq] at hchannel
      split
      · next hid =>
          exact hkeeps (keeps_config_ioctl hid
            (fun _ => hplain (by simp [Device.channelCommand]))
            fun _ _ _ _ _ _ _ _ _ _ q r _ _ _ => hplain (by simp [Device.channelCommand]) q r)
      · split
        · exact wp_channel_ioctl_tabled h (hchannel (by tauto)) _
        · exact hkeeps (keeps_read_voltage fun _ => hplain (by simp))

/-! ## calls that fail -/

/-- The calls that take entries away. -/
def ApiCall.Retracts : ApiCall → Prop
  | .PassThruStopMsgFilter .. | .PassThruStopPeriodicMsg .. => True
  | .PassThruIoctl _ ioctl_id _ _ => ioctl_id = CLEAR_MSG_FILTERS ∨ ioctl_id = CLEAR_PERIODIC_MSGS
  | _ => False

/-- The map entries that went are in no table the adapter may have. -/
def Device.Forgets (d d' : Device) : Prop :=
  ∀ a, Tables.Runs d'.log a →
    (∀ id f, d.filters.lookup id = some f → f ∈ a.filters → d'.filters.lookup id = some f) ∧
    ∀ id handle, d.periodics.lookup id = some handle → handle ∈ a table_periodic →
      d'.periodics.lookup id = some handle

theorem Device.Forgets.of_eq {d d' : Device} (hfilters : d'.filters = d.filters)
    (hperiodics : d'.periodics = d.periodics) : d.Forgets d' :=
  fun _ _ => ⟨fun _ _ hid _ => by rw [hfilters, hid], fun _ _ hid _ => by rw [hperiodics, hid]⟩

/-- A failed step after what was forgotten. -/
theorem Device.Forgets.failed {d : Device} {t : Locked} {opcode : Nat} (h : d.Forgets l.device)
    (ht : l.Failed t opcode) (hop : opcode ≠ 0x0d) : d.Forgets t.device := by
  obtain ⟨o, ht, ho⟩ := ht.turned
  intro a' ha'
  have hfilters : t.device.filters = l.device.filters := by rw [ht.moved.eq]
  have hperiodics : t.device.periodics = l.device.periodics := by rw [ht.moved.eq]
  have hlog : t.device.log = l.device.log ++ o.toList := by rw [ht.moved.eq]
  rw [hfilters, hperiodics]
  rw [hlog] at ha'
  cases o with
  | none => exact h a' (by simpa using ha')
  | some r =>
      obtain ⟨a, ha, hs⟩ := Tables.runs_concat_iff.mp ha'
      have hsub (t : UInt8) : a' t ⊆ a t := hs.subset (by rw [(ho r rfl).1]; exact hop)
      exact ⟨fun id f hid hf => (h a ha).1 id f hid (Tables.filters_subset hsub hf),
        fun id handle hid hh => (h a ha).2 id handle hid (hsub _ hh)⟩

theorem wp_clear_filters_forgets {d : Device} {tables : List UInt8} (h : l.device.filters.Keyed)
    (hd : d.Forgets l.device) :
    wp (clear_filters tables) (fun _ _ => True) (fun _ t => d.Forgets t.device) l := by
  induction tables generalizing l with
  | nil => exact (wp_pure _).mpr trivial
  | cons table tables ih =>
      refine wp_clear_filters_cons (fun _ => ih h hd) (fun t e ht he => ?_) fun _ _ ht =>
        hd.failed ht (by decide)
      have hfilters : t.device.filters = l.device.filters.filter fun x => x.2.table ≠ table := by
        rw [ht.moved.eq]
      have hperiodics : t.device.periodics = l.device.periodics := by rw [ht.moved.eq]
      have hlog : t.device.log = l.device.log ++ [e] := by rw [ht.moved.eq]
      refine ih (hfilters ▸ h.filter _) fun a' ha' => ?_
      obtain ⟨a, ha, hs⟩ := Tables.runs_concat_iff.mp (hlog ▸ ha')
      have hsub (t : UInt8) : a' t ⊆ a t :=
        hs.subset (by simp [he.command, Device.channelCommand])
      obtain ⟨c, hop, hc, rfl⟩ := hs.clears he
      constructor
      · intro id f hid hf
        have hne : f.table ≠ table := fun heq => by
          have := hf.2
          rw [Tables.exec_clear hop hc, if_pos heq] at this
          exact this
        rw [hfilters, h.lookup_filter (fun f => f.table ≠ table) id,
          (hd a ha).1 id f hid (Tables.filters_subset hsub hf), Option.filter_some,
          if_pos (by simpa using hne)]
      · intro id handle hid hh
        rw [hperiodics]
        exact (hd a ha).2 id handle hid (hsub _ hh)

/-- A Stop or a clear that fails forgets only what is gone. -/
theorem ApiCall.wp_retracts {c : ApiCall} (h : l.Tabled) (hc : c.Retracts) :
    wp c.program (fun _ _ => True) (fun _ t => l.device.Forgets t.device) l := by
  have hsame : l.device.Forgets l.device := .of_eq rfl rfl
  cases c with
  | PassThruStopPeriodicMsg =>
      exact wp_PassThruStopPeriodicMsg (fun _ => hsame) (fun _ _ _ _ _ _ => trivial)
        fun _ _ ht => hsame.failed ht (by decide)
  | PassThruStopMsgFilter =>
      exact wp_PassThruStopMsgFilter (fun _ => hsame) (fun _ _ _ _ _ _ => trivial)
        fun _ _ ht => hsame.failed ht (by decide)
  | PassThruIoctl id ioctl_id input output =>
      obtain rfl | rfl := hc
      · change wp (channel_ioctl CLEAR_MSG_FILTERS) _ _ l
        rw [channel_ioctl, session]
        simp only [wp_bind, wp_read, wp_throw_if]
        exact ⟨fun _ => hsame, fun _ => wp_clear_filters_forgets h.maps.filters hsame⟩
      · change wp (channel_ioctl CLEAR_PERIODIC_MSGS) _ _ l
        rw [channel_ioctl, session]
        simp only [wp_bind, wp_read, wp_throw_if]
        refine ⟨fun _ => hsame, fun _ => ?_⟩
        change wp (read >>= _) _ _ l
        simp only [wp_bind, wp_read, wp_when]
        exact ⟨fun _ => wp_clear_periodic_table (fun _ _ _ _ => trivial)
          fun _ _ ht => hsame.failed ht (by decide), fun _ => trivial⟩
  | _ => exact hc.elim

end calls

/-! ## runs -/

namespace Process

variable {p p' : Process} {script : List Turn} {c : ApiCall} {r : Except Exception Unit} {out : Out}

/-- The maps of the devices that are open mirror the tables. -/
def Tabled (p : Process) : Prop :=
  ∀ ref, (p.objects ref).closed = false →
    (p.objects ref).Maps p.registry.next_handle ∧ (p.objects ref).Refines

theorem tabled_empty : ({} : Process).Tabled := by
  intro ref _
  have h : (({} : Process).view ref []).Tabled := .of_empty rfl rfl fun _ _ a ha => by
    obtain rfl := Tables.runs_nil ha
    exact ⟨Tables.filters_empty, rfl⟩
  exact ⟨h.maps, h.refines⟩

theorem Tabled.view (h : p.Tabled) {ref : DeviceRef} (hclosed : (p.objects ref).closed = false)
    (script : List Turn) : (p.view ref script).Tabled :=
  ⟨(h ref hclosed).1, (h ref hclosed).2⟩

theorem Tabled.put (h : p.Tabled) {ref : DeviceRef} {t : Locked}
    (hnext : p.registry.next_handle ≤ t.registry.next_handle)
    (ht : t.device.closed = true ∨ t.Tabled) : (p.put ref t).Tabled := by
  intro ref' hclosed
  by_cases hr : ref' = ref
  · subst hr
    rw [put_objects_self] at hclosed ⊢
    obtain hc | ht := ht
    · rw [hc] at hclosed
      cases hclosed
    · exact ⟨ht.maps, ht.refines⟩
  · rw [put_objects_of_ne hr] at hclosed ⊢
    obtain ⟨hmaps, hrefines⟩ := h ref' hclosed
    exact ⟨hmaps.congr hnext rfl rfl id, hrefines⟩

/-- A channel is found on a device that has it. -/
theorem Sound.channel_of_lookup (h : p.Sound) {ref : DeviceRef} {id : UInt32} {channel : Bool}
    (hlookup : p.lookup id channel = .ok ref) : channel = true → (p.objects ref).channel ≠ 0 := by
  rintro rfl
  obtain ⟨hid, -, hchannel⟩ := lookup_ok hlookup
  rw [if_pos rfl] at hid
  have hne := (h.fresh.allocated _ _ hid).1
  rw [(hchannel rfl).resolve_left hne]
  exact hne

theorem Tabled.call (h : p.Tabled) (hsound : p.Sound) (hcall : p.call script c = some (r, out, p')) :
    p'.Tabled := by
  obtain ⟨e, -, -, rfl⟩ | ⟨id, rfl, hlocked⟩ | ⟨-, ref, hlookup, hlocked⟩ := call_cases hcall
  · exact h
  · obtain ⟨t, ht, -, rfl⟩ := locked_cases hlocked
    let q : Process := { p with made := p.made + 1 }
    have hq : q.Tabled := h
    have hafter := wp_end (ApiCall.wp_after (q.view p.made script) (.PassThruOpen id)) ht
    refine hq.put hafter.next_handle ?_
    cases hclosed : (p.objects p.made).closed with
    | true =>
        left
        have hkept {t : Locked} (ht : (q.view p.made script).Within True True True (fun _ => True) t) :
            t.device.closed = true := (ht.device.closed trivial).trans hclosed
        exact wp_end (P := fun t => t.device.closed = true)
          (wp_PassThruOpen_within (fun _ _ _ _ => trivial) (fun _ _ ht _ _ => hkept ht) fun _ _ => hkept) ht
    | false =>
        exact .inr (wp_end (ApiCall.wp_tabled (c := .PassThruOpen id) (hq.view hclosed script)
          (fun _ h => (nomatch h))
          fun h => (nomatch h)) ht)
  · obtain ⟨t, ht, -, rfl⟩ := locked_cases hlocked
    have hclosed := (lookup_ok hlookup).2.1
    have hafter := wp_end (ApiCall.wp_after (p.view ref script) c) ht
    refine h.put hafter.next_handle ?_
    by_cases hc : ∃ id, c = .PassThruClose id
    · obtain ⟨id, rfl⟩ := hc
      exact .inl (wp_end (wp_PassThruClose (hsound.view ref script) id) ht).closed
    · exact .inr (wp_end (ApiCall.wp_tabled (h.view hclosed script) (fun id hid => hc ⟨id, hid⟩)
        (hsound.channel_of_lookup hlookup)) ht)

theorem Tabled.step (h : p.Tabled) (hsound : p.Sound) {l : Label} (hs : p.step l = some p') :
    p'.Tabled := by
  cases l with
  | call c script =>
      obtain ⟨⟨r, out, t⟩, hcall, rfl⟩ := Option.map_eq_some_iff.mp hs
      exact h.call hsound hcall
  | event ref e =>
      obtain ⟨-, hs⟩ := Option.ite_none_right_eq_some.mp hs
      obtain ⟨s, hrun, rfl⟩ := Option.map_eq_some_iff.mp hs
      let t : Locked := { p.view ref [] with device := { p.objects ref with session := s } }
      refine h.put (t := t) (Nat.le_refl _) ?_
      by_cases hclosed : (p.objects ref).closed = true
      · exact .inl hclosed
      · have hview := h.view (by simpa using hclosed) []
        exact .inr (hview.within (.step (.refl _) rfl rfl (.of_moved (.of_run hrun) (by simp) (by simp))))

theorem tabled_run {ls : List Label} (h : Run.run step {} ls = some p) : p.Tabled := by
  refine (Run.invariant (I := fun p => p.Sound ∧ p.Tabled) (fun m l t hm hs => ?_)
    ⟨sound_empty, tabled_empty⟩ h).2
  exact ⟨hm.1.step hs, hm.2.step hm.1 hs⟩

/-- What a map holds. -/
theorem mirrors_eq {β : Type} {m : IdMap β} {s : Set β} (h : Mirrors (fun id => m.lookup id) s) :
    {x | ∃ id, m.lookup id = some x} = s := by
  ext x
  exact (h.mem x).symm

/-- **The maps of the host mirror the tables of the adapter**, whatever the adapter
may have done, on a channel that is in order; and a Stop or a clear that fails
forgets no entry the adapter still has. -/
theorem maps_mirror_tables {ls : List Label} (h : Run.run step {} ls = some p) :
    (∀ ref, (p.objects ref).channel ≠ 0 →
      ((p.objects ref).reopen_required = false → (p.objects ref).usable →
        ∀ a, Tables.Runs (p.objects ref).log a →
          {f | ∃ id, (p.objects ref).filters.lookup id = some f} = a.filters ∧
          ((p.objects ref).periodic_untracked = false →
            {handle | ∃ id, (p.objects ref).periodics.lookup id = some handle} = a table_periodic)) ∧
      (p.objects ref).filters.countP (fun e => e.2.table = table_flow_control) ≤ 64 ∧
      (p.objects ref).periodics.length ≤ 10) ∧
    ∀ script c e out p', c.Retracts → p.call script c = some (.error e, out, p') →
      ∀ ref a, Tables.Runs (p'.objects ref).log a →
        (∀ id f, (p.objects ref).filters.lookup id = some f → f ∈ a.filters →
          (p'.objects ref).filters.lookup id = some f) ∧
        ∀ id handle, (p.objects ref).periodics.lookup id = some handle → handle ∈ a table_periodic →
          (p'.objects ref).periodics.lookup id = some handle := by
  have hsound := sound_run h
  have htabled := tabled_run h
  refine ⟨fun ref hchannel => ?_, fun script c e out p' hc hcall ref => ?_⟩
  · have hclosed := (hsound.listed _ _ (hsound.published ref hchannel)).1
    obtain ⟨hmaps, hrefines⟩ := htabled ref hclosed
    refine ⟨fun hr hu a ha => ?_, hmaps.flow, hmaps.few⟩
    have hm := hrefines hr hu a ha
    refine ⟨mirrors_eq hm.filters, fun hun => ?_⟩
    obtain ⟨s, -, hs, heq⟩ := hm.periodics
    rw [mirrors_eq hs, heq hun]
  · have hsame : (p.objects ref).Forgets (p.objects ref) := .of_eq rfl rfl
    obtain ⟨e, -, -, rfl⟩ | ⟨id, rfl, -⟩ | ⟨-, ref', hlookup, hlocked⟩ := call_cases hcall
    · exact hsame
    · exact hc.elim
    · obtain ⟨t, ht, -, rfl⟩ := locked_cases hlocked
      by_cases hr : ref = ref'
      · subst hr
        rw [put_objects_self]
        exact ApiCall.wp_retracts (htabled.view (lookup_ok hlookup).2.1 script) hc _ t ht
      · rw [put_objects_of_ne hr]
        exact hsame

/-- A periodic message is under handle 7 on both sides, the adapter having carried out every command. -/
theorem maps_mirror_tables_starting :
    ∃ p a, Run.run step {} [opening, connecting CAN 4, starting 6] = some p ∧
      Tables.Runs (p.objects 0).log a ∧ a table_periodic = {7} ∧
      {handle | ∃ id, (p.objects 0).periodics.lookup id = some handle} = a table_periodic := by
  have heval : (Run.run step {} [opening, connecting CAN 4, starting 6]).bind (fun p =>
      (p.objects 0).log.getLast?.map fun e =>
        (((p.objects 0).channel, (p.objects 0).reopen_required, decide (p.objects 0).usable,
            (p.objects 0).periodic_untracked),
          ((p.objects 0).log.dropLast.all fun x => x.accepted && decide (x.command.opcode ≠ 0x0d)) && e.accepted,
          decide (e.handle = some 7 ∧ e.command.opcode = 0x0d ∧ e.command.table = some table_periodic))) =
      some ((2, false, true, false), true, true) := by
    decide +kernel
  obtain ⟨p, hp, heval⟩ := Option.bind_eq_some_iff.mp heval
  obtain ⟨e, he, heval⟩ := Option.map_eq_some_iff.mp heval
  simp only [Prod.mk.injEq, decide_eq_true_eq, List.all_eq_true, Bool.and_eq_true] at heval
  obtain ⟨⟨hchannel, hreopen, husable, huntracked⟩, ⟨hothers, hacc⟩, hhandle, hop, htable⟩ := heval
  have hruns : Tables.Runs (p.objects 0).log (Tables.empty.exec e.command 7) := by
    rw [← List.dropLast_append_getLast? e he]
    refine .step (Tables.runs_of_accepted hothers) (.done 7 (.inl hacc) fun _ => ⟨fun _ _ => id, fun h hh => ?_⟩)
    exact Option.some.inj (hh.symm.trans hhandle)
  refine ⟨p, _, hp, hruns, ?_, ?_⟩
  · simp [Tables.exec, Tables.empty, hop, htable]
  · exact (((maps_mirror_tables hp).1 0 (by rw [hchannel]; decide)).1 hreopen husable _ hruns).2 huntracked

end Process

end Mongoose
