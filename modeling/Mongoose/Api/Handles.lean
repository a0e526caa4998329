import Mongoose.Api.Mirrored

/-!
# Mongoose.Api.Handles

What a call does to the IDs of the process.

IDs of four kinds come from one counter.  `Locked.Handled` says of every call which
IDs it may bring into use and which it ends, on the device whose lock it holds and
in the list of devices.
-/

namespace Mongoose

open Prog Lifecycle

/-! ## IDs -/

/-- What an ID names. -/
inductive Kind
  | device
  | channel
  | filter
  | periodic
  deriving DecidableEq, Repr

namespace ApiCall

/-- The kind of ID that a call returns. -/
def issues : ApiCall → Option Kind
  | .PassThruOpen _ => some .device
  | .PassThruConnect .. => some .channel
  | .PassThruStartMsgFilter .. => some .filter
  | .PassThruStartPeriodicMsg .. => some .periodic
  | _ => none

/-- A call that takes down, or one that did not throw, ends the IDs it names. -/
def Ends (r : Except Exception Unit) (id : UInt32) (c : ApiCall) : Kind → Prop
  | .device => c = .PassThruClose id
  | .channel => (∃ channel, c = .PassThruDisconnect channel) ∨ ∃ device, c = .PassThruClose device
  | .filter =>
      (∃ channel, c = .PassThruDisconnect channel) ∨ (∃ device, c = .PassThruClose device) ∨
        (r = .ok () ∧ ((∃ channel, c = .PassThruStopMsgFilter channel id) ∨
          ∃ channel input output, c = .PassThruIoctl channel CLEAR_MSG_FILTERS input output))
  | .periodic =>
      (∃ channel, c = .PassThruDisconnect channel) ∨ (∃ device, c = .PassThruClose device) ∨
        (r = .ok () ∧ ((∃ channel, c = .PassThruStopPeriodicMsg channel id) ∨
          ∃ channel input output, c = .PassThruIoctl channel CLEAR_PERIODIC_MSGS input output))

end ApiCall

/-- An ID is found if there is an entry for it. -/
theorem IdMap.isSome_lookup_iff {β : Type} {m : IdMap β} {id : UInt32} :
    (m.lookup id).isSome ↔ ∃ v, (id, v) ∈ m := by
  rw [← not_iff_not, Option.not_isSome_iff_eq_none, List.lookup_eq_none_iff]
  constructor
  · rintro h ⟨v, hv⟩
    simpa using h _ hv
  · intro h e he
    by_contra hne
    simp only [Bool.not_eq_true, bne_eq_false_iff_eq] at hne
    exact h ⟨e.2, hne ▸ he⟩

/-- An entry that is there was there before, or is the new one. -/
theorem IdMap.mem_emplace {β : Type} {m : IdMap β} {id : UInt32} {v : β} {e : UInt32 × β}
    (h : e ∈ m.emplace id v) : e ∈ m ∨ e = (id, v) := by
  rw [IdMap.emplace] at h
  split at h
  · exact .inl h
  · simpa using h

/-! ## the maps of a device -/

/-- The device has no filters and no periodic messages. -/
def Locked.Bare (l : Locked) : Prop := l.device.filters = [] ∧ l.device.periodics = []

/-- No entry is new. -/
structure Device.Fewer (d d' : Device) : Prop where
  filters : d'.filters ⊆ d.filters
  periodics : d'.periodics ⊆ d.periodics

/-- What leaves the maps adds nothing. -/
theorem Device.Fewer.of_eq {d d' : Device} (hfilters : d'.filters = d.filters)
    (hperiodics : d'.periodics = d.periodics) : d.Fewer d' :=
  ⟨by rw [hfilters]; exact List.Subset.refl _, by rw [hperiodics]; exact List.Subset.refl _⟩

/-- Nor does a command that failed. -/
theorem Locked.Failed.fewer {l t : Locked} {opcode : Nat} (h : l.Failed t opcode) :
    l.device.Fewer t.device := by
  obtain ⟨o, ht, -⟩ := h.turned
  exact .of_eq (by rw [ht.moved.eq]) (by rw [ht.moved.eq])

section calls

variable {l : Locked}

/-- What leaves the maps alone leaves an idle device idle. -/
theorem keeps_bare {α : Type} {m : Lifecycle α}
    (h : ∀ l : Locked, Keeps (l.Within False True True fun _ => True) m) :
    Keeps Locked.Bare m := by
  intro l hl
  have hbare {t : Locked} (ht : l.Within False True True (fun _ => True) t) : t.Bare :=
    ⟨(ht.device.filters trivial).trans hl.1, (ht.device.periodics trivial).1.trans hl.2⟩
  exact Triple.call (h l) (.refl l) (fun _ _ => hbare) fun _ _ => hbare

/-- A bare device stays bare in a teardown. -/
theorem keeps_clear_periodic_table_bare : Keeps Locked.Bare clear_periodic_table := by
  refine (keeps_bare fun l => keeps_accepted_command fun _ _ => trivial).bind fun _ => ?_
  exact fun t ht => (wp_update _).mpr ⟨ht.1, rfl⟩

/-- A channel that is retired is idle. -/
theorem wp_retire_channel_bare {m : Bool → Lifecycle Unit}
    (h : ∀ b, Keeps Locked.Bare (m b)) :
    wp (retire_channel >>= m) (fun _ => Locked.Bare) (fun _ => Locked.Bare) l := by
  rw [wp_bind]
  exact wp_retire_channel fun s ls hs => h _ _ ⟨rfl, rfl⟩

theorem keeps_close_channel_bare : Keeps Locked.Bare close_channel :=
  keeps_bare fun _ => keeps_close_channel fun _ _ => trivial

/-- A Disconnect leaves the device bare. -/
theorem wp_PassThruDisconnect_bare :
    wp PassThruDisconnect (fun _ => Locked.Bare) (fun _ => Locked.Bare) l := by
  rw [PassThruDisconnect_eq]
  exact wp_retire_channel_bare fun _ => keeps_clear_if keeps_clear_periodic_table_bare
    (keeps_end_channel keeps_close_channel_bare fun _ ht => (wp_update _).mpr ht)

/-- So does a Close. -/
theorem wp_PassThruClose_bare (id : UInt32) :
    wp (PassThruClose id) (fun _ => Locked.Bare) (fun _ => Locked.Bare) l := by
  rw [PassThruClose_eq, wp_bind, wp_update, wp_bind, wp_alter]
  have hboard : Keeps Locked.Bare (command { opcode := 5 }) :=
    keeps_bare fun _ => keeps_command fun _ _ => trivial
  exact wp_retire_channel_bare fun _ => Keeps.read.bind fun _ =>
    keeps_clear_if keeps_clear_periodic_table_bare
      (keeps_end_wire keeps_close_channel_bare hboard (keeps_bare fun _ => keeps_close))

end calls

/-! ## filters and periodic messages -/

/-- A call ends with a new ID of a kind. -/
def Locked.Returns (t : Locked) (c : ApiCall) (r : Except Exception Unit) (id : UInt32) (kind : Kind) :
    Prop :=
  r = .ok () ∧ c.issues = some kind ∧ id = t.out.id

/-- What a call makes of the filters and the periodic messages of its device. -/
structure Locked.Entered (l : Locked) (c : ApiCall) (r : Except Exception Unit) (t : Locked) : Prop where
  filters : ∀ e ∈ t.device.filters, e ∈ l.device.filters ∨
    (t.Returns c r e.1 .filter ∧ e.2.table ∈ filter_tables)
  periodics : ∀ e ∈ t.device.periodics, e ∈ l.device.periodics ∨ t.Returns c r e.1 .periodic
  entry_new : ∀ id, t.Returns c r id .filter ∨ t.Returns c r id .periodic →
    l.registry.next_handle ≤ id.toNat ∧ id.toNat < t.registry.next_handle
  filter_ended : ∀ id, c.Ends r id .filter → t.device.filters.lookup id = none
  periodic_ended : ∀ id, c.Ends r id .periodic → t.device.periodics.lookup id = none

section entered

variable {l t : Locked} {c : ApiCall} {r : Except Exception Unit}

/-- A call that ends no ID, and begins none. -/
theorem Device.Fewer.entered (h : l.device.Fewer t.device)
    (hissues : r = .ok () → c.issues ≠ some .filter ∧ c.issues ≠ some .periodic)
    (hends : ∀ id, ¬ c.Ends r id .filter ∧ ¬ c.Ends r id .periodic) : l.Entered c r t where
  filters := fun e he => .inl (h.filters he)
  periodics := fun e he => .inl (h.periodics he)
  entry_new := fun id hid => by
    obtain ⟨hr, hc, -⟩ | ⟨hr, hc, -⟩ := hid
    · exact absurd hc (hissues hr).1
    · exact absurd hc (hissues hr).2
  filter_ended := fun id h => absurd h (hends id).1
  periodic_ended := fun id h => absurd h (hends id).2

/-- A call that throws within its channel. -/
theorem Device.Fewer.entered_error (h : l.device.Fewer t.device) (hc : c.lifecycle = false)
    (e : Exception) : l.Entered c (.error e) t := by
  refine h.entered (fun he => (nomatch he)) fun id => ?_
  cases c with
  | PassThruOpen | PassThruClose | PassThruConnect | PassThruDisconnect => cases hc
  | _ => simp [ApiCall.Ends]

/-- A call that takes a channel down. -/
theorem Locked.Bare.entered (h : t.Bare)
    (hissues : c.issues ≠ some .filter ∧ c.issues ≠ some .periodic) : l.Entered c r t where
  filters := fun e he => by rw [h.1] at he; cases he
  periodics := fun e he => by rw [h.2] at he; cases he
  entry_new := fun id hid => by
    obtain ⟨-, hc, -⟩ | ⟨-, hc, -⟩ := hid
    · exact absurd hc hissues.1
    · exact absurd hc hissues.2
  filter_ended := fun id _ => by rw [h.1]; rfl
  periodic_ended := fun id _ => by rw [h.2]; rfl

/-- A call that leaves the maps alone adds nothing. -/
theorem Locked.Within.fewer {C : Prop} {ok : Exchange → Prop} (h : l.Within C True True ok t) :
    l.device.Fewer t.device :=
  .of_eq (h.device.filters trivial) (h.device.periodics trivial).1

theorem Device.Fewer.refl (d : Device) : d.Fewer d := .of_eq rfl rfl

/-- Clearing tables leaves no filter in them. -/
theorem wp_clear_filters_fewer {tables : List UInt8} :
    wp (clear_filters tables)
      (fun _ t => l.device.Fewer t.device ∧ ∀ e ∈ t.device.filters, e.2.table ∉ tables)
      (fun _ t => l.device.Fewer t.device) l := by
  induction tables generalizing l with
  | nil => exact (wp_pure _).mpr ⟨.refl _, by simp⟩
  | cons table tables ih =>
      refine wp_clear_filters_cons (fun hnone => ?_) (fun t e ht _ => ?_) fun _ _ ht => ht.fewer
      · refine wp_mono ih (fun _ t ht => ⟨ht.1, fun e he => ?_⟩) fun _ _ ht => ht
        rw [List.mem_cons, not_or]
        exact ⟨hnone e (ht.1.filters he), ht.2 e he⟩
      · have hfilters : t.device.filters = l.device.filters.filter fun x => x.2.table ≠ table := by
          rw [ht.moved.eq]
        have hperiodics : t.device.periodics = l.device.periodics := by rw [ht.moved.eq]
        have hfewer {u : Locked} (hu : t.device.Fewer u.device) : l.device.Fewer u.device :=
          ⟨fun e he => (List.mem_filter.mp (hfilters ▸ hu.filters he)).1, hperiodics ▸ hu.periodics⟩
        refine wp_mono ih (fun _ u hu => ⟨hfewer hu.1, fun e he => ?_⟩) fun _ _ hu => hfewer hu
        have hne := (List.mem_filter.mp (hfilters ▸ hu.1.filters he)).2
        rw [List.mem_cons, not_or]
        exact ⟨by simpa using hne, hu.2 e he⟩

/-- A Start that ends without an entry. -/
theorem Locked.Unstarted.fewer {table : UInt8} {payload : Bytes} {doubt : Device → Device}
    (h : l.Unstarted table payload doubt t) (hdoubt : l.device.Fewer (doubt l.device)) :
    l.device.Fewer t.device := by
  cases h with
  | doubtful es ht _ =>
      have hfilters : t.device.filters = (doubt l.device).filters := by rw [ht.moved.eq]
      have hperiodics : t.device.periodics = (doubt l.device).periodics := by rw [ht.moved.eq]
      exact ⟨hfilters ▸ hdoubt.filters, hperiodics ▸ hdoubt.periodics⟩
  | unsent ht => exact .of_eq (by rw [ht.moved.eq]) (by rw [ht.moved.eq])
  | refused e ht => exact .of_eq (by rw [ht.moved.eq]) (by rw [ht.moved.eq])
  | removed e r handle ht => exact .of_eq (by rw [ht.moved.eq]) (by rw [ht.moved.eq])

/-- The ID of a Start that ends with an entry is new. -/
theorem Locked.Started.new {payload : Bytes} {insert : UInt32 → Nat → Device → Device}
    (h : l.Started payload insert t) :
    l.registry.next_handle ≤ t.out.id.toNat ∧ t.out.id.toNat < t.registry.next_handle := by
  have hid := Registry.Fresh.toNat_next h.room
  rw [h.out, h.next_handle, hid]
  omega

/-- Starting a periodic message. -/
theorem wp_StartPeriodic_entered (channel : UInt32) (message : Option PASSTHRU_MSG) (id : Bool)
    (interval : UInt32) :
    wp (PassThruStartPeriodicMsg (message.getD {}) interval)
      (fun _ => l.Entered (.PassThruStartPeriodicMsg channel message id interval) (.ok ()))
      (fun e => l.Entered (.PassThruStartPeriodicMsg channel message id interval) (.error e)) l := by
  refine wp_PassThruStartPeriodicMsg (fun e => (Device.Fewer.refl _).entered_error rfl e)
    (fun t payload _ _ ht => ?_) fun e t payload _ ht => (ht.fewer (.of_eq rfl rfl)).entered_error rfl e
  obtain ⟨e, handle, hturned, -⟩ := ht.added
  refine ⟨fun e he => .inl ?_, fun e he => ?_, fun k hk => ?_, fun id => by simp [ApiCall.Ends],
    fun id => by simp [ApiCall.Ends]⟩
  · rwa [hturned.moved.eq] at he
  · rw [hturned.moved.eq] at he
    refine (IdMap.mem_emplace he).imp_right fun he => ?_
    rw [he, ← ht.out]
    exact ⟨rfl, rfl, rfl⟩
  · obtain ⟨-, -, rfl⟩ | ⟨-, -, rfl⟩ := hk <;> exact ht.new

/-- Starting a filter. -/
theorem wp_StartFilter_entered (channel type : UInt32) (mask pattern flow : Option PASSTHRU_MSG)
    (id : Bool) :
    wp (PassThruStartMsgFilter type (mask.getD {}) (pattern.getD {}) flow)
      (fun _ => l.Entered (.PassThruStartMsgFilter channel type mask pattern flow id) (.ok ()))
      (fun e => l.Entered (.PassThruStartMsgFilter channel type mask pattern flow id) (.error e)) l := by
  refine wp_PassThruStartMsgFilter (fun e => (Device.Fewer.refl _).entered_error rfl e)
    (fun t payload _ ht => ?_) fun e t payload _ ht => (ht.fewer (.refl _)).entered_error rfl e
  obtain ⟨e, handle, hturned, -⟩ := ht.added
  refine ⟨fun e he => ?_, fun e he => .inl ?_, fun k hk => ?_, fun id => by simp [ApiCall.Ends],
    fun id => by simp [ApiCall.Ends]⟩
  · rw [hturned.moved.eq] at he
    refine (IdMap.mem_emplace he).imp_right fun he => ?_
    rw [he, ← ht.out]
    exact ⟨⟨rfl, rfl, rfl⟩, filter_table_mem _ _⟩
  · rwa [hturned.moved.eq] at he
  · obtain ⟨-, -, rfl⟩ | ⟨-, -, rfl⟩ := hk <;> exact ht.new

/-- Stopping a periodic message. -/
theorem wp_StopPeriodic_entered (channel id : UInt32) :
    wp (PassThruStopPeriodicMsg id) (fun _ => l.Entered (.PassThruStopPeriodicMsg channel id) (.ok ()))
      (fun e => l.Entered (.PassThruStopPeriodicMsg channel id) (.error e)) l := by
  refine wp_PassThruStopPeriodicMsg (fun e => (Device.Fewer.refl _).entered_error rfl e)
    (fun t r handle _ ht _ => ?_) fun e t ht => ht.fewer.entered_error rfl e
  have hperiodics : t.device.periodics = l.device.periodics.erase id := by rw [ht.moved.eq]
  refine ⟨fun e he => .inl ?_, fun e he => .inl ?_,
    fun _ hk => absurd hk (by simp [Locked.Returns, ApiCall.issues]),
    fun id => by simp [ApiCall.Ends], fun id' hid => ?_⟩
  · rwa [ht.moved.eq] at he
  · rw [hperiodics] at he
    exact (List.mem_filter.mp he).1
  · obtain rfl : id = id' := by simpa [ApiCall.Ends] using hid
    rw [hperiodics, IdMap.lookup_erase, if_pos rfl]

/-- Stopping a filter. -/
theorem wp_StopFilter_entered (channel id : UInt32) :
    wp (PassThruStopMsgFilter id) (fun _ => l.Entered (.PassThruStopMsgFilter channel id) (.ok ()))
      (fun e => l.Entered (.PassThruStopMsgFilter channel id) (.error e)) l := by
  refine wp_PassThruStopMsgFilter (fun e => (Device.Fewer.refl _).entered_error rfl e)
    (fun t r f _ ht _ => ?_) fun e t ht => ht.fewer.entered_error rfl e
  have hfilters : t.device.filters = l.device.filters.erase id := by rw [ht.moved.eq]
  refine ⟨fun e he => .inl ?_, fun e he => .inl ?_,
    fun _ hk => absurd hk (by simp [Locked.Returns, ApiCall.issues]),
    fun id' hid => ?_, fun id => by simp [ApiCall.Ends]⟩
  · rw [hfilters] at he
    exact (List.mem_filter.mp he).1
  · rwa [ht.moved.eq] at he
  · obtain rfl : id = id' := by simpa [ApiCall.Ends] using hid
    rw [hfilters, IdMap.lookup_erase, if_pos rfl]

/-- Only an ID of the channel's own is stopped. -/
theorem wp_StopFilter_held (id : UInt32) :
    wp (PassThruStopMsgFilter id) (fun _ _ => (l.device.filters.lookup id).isSome) (fun _ _ => True) l :=
  wp_PassThruStopMsgFilter (fun _ => trivial) (fun _ _ _ hid _ _ => by simp [hid]) fun _ _ _ => trivial

/-- Only a message that is held is stopped. -/
theorem wp_StopPeriodic_held (id : UInt32) :
    wp (PassThruStopPeriodicMsg id) (fun _ _ => (l.device.periodics.lookup id).isSome)
      (fun _ _ => True) l :=
  wp_PassThruStopPeriodicMsg (fun _ => trivial) (fun _ _ _ hid _ _ => by simp [hid]) fun _ _ _ => trivial

/-- The filters of a channel are cleared. -/
theorem wp_clear_filters_entered (htables : ∀ e ∈ l.device.filters, e.2.table ∈ filter_tables)
    (id : UInt32) (input : Option SCONFIG_LIST) (output : Bool) :
    wp (channel_ioctl CLEAR_MSG_FILTERS)
      (fun _ => l.Entered (.PassThruIoctl id CLEAR_MSG_FILTERS input output) (.ok ()))
      (fun e => l.Entered (.PassThruIoctl id CLEAR_MSG_FILTERS input output) (.error e)) l := by
  rw [channel_ioctl, session]
  simp only [wp_bind, wp_read, wp_throw_if]
  refine ⟨fun _ => (Device.Fewer.refl _).entered_error rfl _, fun _ => ?_⟩
  refine wp_mono wp_clear_filters_fewer (fun _ t ht => ?_) fun e _ ht => ht.entered_error rfl e
  have hnil : t.device.filters = [] :=
    List.eq_nil_iff_forall_not_mem.mpr fun e he => ht.2 e he (htables e (ht.1.filters he))
  refine ⟨fun e he => .inl (ht.1.filters he), fun e he => .inl (ht.1.periodics he),
    fun _ hk => absurd hk (by simp [Locked.Returns, ApiCall.issues]), fun id' _ => by rw [hnil]; rfl,
    fun id' hid => ?_⟩
  simp [ApiCall.Ends, CLEAR_MSG_FILTERS, CLEAR_PERIODIC_MSGS] at hid

/-- The periodic messages of a channel are cleared. -/
theorem wp_clear_periodic_entered (id : UInt32) (input : Option SCONFIG_LIST) (output : Bool) :
    wp (channel_ioctl CLEAR_PERIODIC_MSGS)
      (fun _ => l.Entered (.PassThruIoctl id CLEAR_PERIODIC_MSGS input output) (.ok ()))
      (fun e => l.Entered (.PassThruIoctl id CLEAR_PERIODIC_MSGS input output) (.error e)) l := by
  have hcleared {t : Locked} (hfilters : t.device.filters = l.device.filters)
      (hperiodics : t.device.periodics = []) :
      l.Entered (.PassThruIoctl id CLEAR_PERIODIC_MSGS input output) (.ok ()) t := by
    refine ⟨fun e he => .inl (hfilters ▸ he), fun e he => ?_,
      fun _ hk => absurd hk (by simp [Locked.Returns, ApiCall.issues]),
      fun id' hid => ?_, fun id' _ => by rw [hperiodics]; rfl⟩
    · rw [hperiodics] at he
      cases he
    · simp [ApiCall.Ends, CLEAR_MSG_FILTERS, CLEAR_PERIODIC_MSGS] at hid
  rw [channel_ioctl, session]
  simp only [wp_bind, wp_read, wp_throw_if]
  refine ⟨fun _ => (Device.Fewer.refl _).entered_error rfl _, fun _ => ?_⟩
  change wp (read >>= _) _ _ l
  simp only [wp_bind, wp_read, wp_when]
  refine ⟨fun _ => wp_clear_periodic_table (fun t e ht _ => ?_) fun e t ht => ht.fewer.entered_error rfl e,
    fun hnone => ?_⟩
  · exact hcleared (by rw [ht.moved.eq]) (by rw [ht.moved.eq])
  · rw [not_or, not_not] at hnone
    exact hcleared rfl hnone.2

/-- **What a call makes of the filters and the periodic messages**: their IDs are new, or
were there. -/
theorem ApiCall.wp_entered (htables : ∀ e ∈ l.device.filters, e.2.table ∈ filter_tables) :
    wp c.program (fun _ => l.Entered c (.ok ())) (fun e => l.Entered c (.error e)) l := by
  have hkeeps (hc : c.lifecycle = false) (hf : c.LeavesFilters) (hp : c.LeavesPeriodics)
      (hissues : c.issues ≠ some .filter ∧ c.issues ≠ some .periodic)
      (hends : ∀ r id, ¬ c.Ends r id .filter ∧ ¬ c.Ends r id .periodic) :
      wp c.program (fun _ => l.Entered c (.ok ())) (fun e => l.Entered c (.error e)) l := by
    have hfewer {t : Locked} (ht : l.Within True c.LeavesFilters c.LeavesPeriodics
        (fun e => c.Issues l.device e.command) t) : l.device.Fewer t.device :=
      .of_eq (ht.device.filters hf) (ht.device.periodics hp).1
    exact Triple.call (keeps_program hc) (.refl l)
      (fun _ _ ht => (hfewer ht).entered (fun _ => hissues) (hends _))
      fun _ _ ht => (hfewer ht).entered (fun _ => hissues) (hends _)
  cases c with
  | PassThruOpen id =>
      have hsame {r : Except Exception Unit} {t : Locked} (ht : l.device.Fewer t.device) :
          l.Entered (.PassThruOpen id) r t :=
        ht.entered (fun _ => ⟨nofun, nofun⟩) fun id => by simp [Ends]
      refine wp_PassThruOpen_within (fun _ _ _ _ => trivial) (fun t id ht _ _ => ?_)
        fun _ t (ht : l.Within True True True (fun _ => True) t) => hsame ht.fewer
      have hfewer := Locked.Within.fewer ht
      exact hsame hfewer
  | PassThruClose id =>
      exact wp_mono (wp_PassThruClose_bare id) (fun _ _ ht => ht.entered ⟨nofun, nofun⟩)
        fun _ _ ht => ht.entered ⟨nofun, nofun⟩
  | PassThruDisconnect =>
      exact wp_mono wp_PassThruDisconnect_bare (fun _ _ ht => ht.entered ⟨nofun, nofun⟩)
        fun _ _ ht => ht.entered ⟨nofun, nofun⟩
  | PassThruConnect id protocol flags baud channel =>
      have hfewer : wp (Mongoose.PassThruConnect protocol flags baud) (fun _ t => l.device.Fewer t.device)
          (fun _ t => l.device.Fewer t.device) l := by
        have hset (t : Locked) (ht : Locked.Within False True True (fun _ => True)
            { l with device := { l.device with protocol := protocol } } t) : l.device.Fewer t.device :=
          .of_eq (ht.device.filters trivial) (ht.device.periodics trivial).1
        exact wp_PassThruConnect_within (R := fun t => l.device.Fewer t.device) rfl
          (fun _ _ _ _ _ => trivial) (fun _ _ _ => trivial) (fun _ _ _ => trivial) (Device.Fewer.refl _)
          fun t _ _ => hset t
      exact wp_mono hfewer (fun _ _ ht => ht.entered (fun _ => ⟨nofun, nofun⟩) fun id => by simp [Ends])
        fun _ _ ht => ht.entered (fun _ => ⟨nofun, nofun⟩) fun id => by simp [Ends]
  | PassThruStartPeriodicMsg => exact wp_StartPeriodic_entered _ _ _ _
  | PassThruStartMsgFilter => exact wp_StartFilter_entered _ _ _ _ _ _
  | PassThruStopPeriodicMsg => exact wp_StopPeriodic_entered _ _
  | PassThruStopMsgFilter => exact wp_StopFilter_entered _ _
  | PassThruIoctl id ioctl_id input output =>
      by_cases hf : ioctl_id = CLEAR_MSG_FILTERS
      · subst hf
        exact wp_clear_filters_entered htables id input output
      by_cases hp : ioctl_id = CLEAR_PERIODIC_MSGS
      · subst hp
        exact wp_clear_periodic_entered id input output
      exact hkeeps rfl hf hp ⟨nofun, nofun⟩ fun r id => by simp [Ends, hf, hp]
  | _ => exact hkeeps rfl trivial trivial ⟨nofun, nofun⟩ fun r id => by simp [Ends]

end entered

/-! ## devices and channels -/

/-- What a call makes of the list of devices, and of its device's channel. -/
structure Locked.Listed (l : Locked) (c : ApiCall) (r : Except Exception Unit) (t : Locked) : Prop where
  devices : ∀ id ref, t.registry.devices.lookup id = some ref ↔
    (l.registry.devices.lookup id = some ref ∧ c ≠ .PassThruClose id) ∨
      (t.Returns c r id .device ∧ ref = l.ref)
  closed : t.device.closed = true ↔ ∃ id, c = .PassThruClose id
  channel : t.device.channel = l.device.channel ∨ t.device.channel = 0 ∨
    t.Returns c r t.device.channel .channel
  handle_new : ∀ id, t.Returns c r id .device ∨ t.Returns c r id .channel →
    l.registry.next_handle ≤ id.toNat ∧ id.toNat < t.registry.next_handle
  channel_ended : ∀ id, c.Ends r id .channel → t.device.channel = 0

section listed

variable {l t : Locked} {c : ApiCall} {r : Except Exception Unit}

/-- A call that lists no device and publishes no channel. -/
theorem Locked.Stays.listed (h : l.Stays t) (hclosed : l.device.closed = false)
    (hissues : r = .ok () → c.issues ≠ some .device ∧ c.issues ≠ some .channel)
    (hc : ∀ id, c ≠ .PassThruClose id)
    (hchannel : t.device.channel = l.device.channel ∨ t.device.channel = 0)
    (hended : ∀ id, c.Ends r id .channel → t.device.channel = 0) : l.Listed c r t where
  devices := fun id ref => by
    rw [h.devices]
    exact ⟨fun hid => .inl ⟨hid, hc id⟩,
      fun hid => hid.elim And.left fun hid => absurd hid.1.2.1 (hissues hid.1.1).1⟩
  closed := by
    rw [h.closed, hclosed]
    exact ⟨fun h => (nomatch h), fun ⟨id, hid⟩ => absurd hid (hc id)⟩
  channel := hchannel.imp_right .inl
  handle_new := fun id hid => by
    obtain ⟨hr, hc, -⟩ | ⟨hr, hc, -⟩ := hid
    · exact absurd hc (hissues hr).1
    · exact absurd hc (hissues hr).2
  channel_ended := hended

/-- An Open lists its device under a new ID. -/
theorem wp_PassThruOpen_listed (hclosed : l.device.closed = false)
    (hdevices : ∀ id ref, l.registry.devices.lookup id = some ref → id.toNat < l.registry.next_handle)
    (id : Bool) :
    wp Mongoose.PassThruOpen (fun _ => l.Listed (.PassThruOpen id) (.ok ()))
      (fun e => l.Listed (.PassThruOpen id) (.error e)) l := by
  have hends (r : Except Exception Unit) (k : UInt32) : ¬ (ApiCall.PassThruOpen id).Ends r k .channel := by
    simp [ApiCall.Ends]
  refine wp_PassThruOpen_within (fun _ _ _ _ => trivial) (fun t allocated ht hle hlt => ?_)
    fun e t (ht : l.Within True True True (fun _ => True) t) => ?_
  · have hlookup (k : UInt32) : (t.registry.devices.emplace allocated t.ref).lookup k =
        if k = allocated then some l.ref else l.registry.devices.lookup k := by
      have hnone : l.registry.devices.lookup allocated = none := by
        by_contra hne
        obtain ⟨ref, href⟩ := Option.ne_none_iff_exists'.mp hne
        have := hdevices _ _ href
        omega
      rw [IdMap.lookup_emplace, ht.devices trivial, ht.ref, hnone, Option.getD_none]
    refine ⟨fun k ref => ?_, ?_, .inl (ht.device.channel trivial), fun k hk => ?_,
      fun k hk => absurd hk (hends _ k)⟩
    · change (t.registry.devices.emplace allocated t.ref).lookup k = some ref ↔ _
      rw [hlookup]
      split
      · next hk =>
          subst hk
          refine ⟨fun href => .inr ⟨⟨rfl, rfl, rfl⟩, (Option.some.inj href).symm⟩, ?_⟩
          rintro (⟨hold, -⟩ | ⟨-, rfl⟩)
          · have := hdevices _ _ hold
            omega
          · rfl
      · next hk =>
          exact ⟨fun hold => .inl ⟨hold, nofun⟩, fun hold => hold.elim And.left fun h => absurd h.1.2.2 hk⟩
    · rw [show _ = l.device.closed from ht.device.closed trivial, hclosed]
      simp
    · obtain ⟨-, -, rfl⟩ | ⟨-, -, rfl⟩ := hk <;> exact ⟨hle, hlt⟩
  · refine ⟨fun k ref => ?_, ?_, .inl (ht.device.channel trivial),
      fun k hk => absurd hk (by simp [Locked.Returns]), fun k hk => absurd hk (hends _ k)⟩
    · rw [ht.devices trivial]
      exact ⟨fun hold => .inl ⟨hold, nofun⟩, fun hold => hold.elim And.left fun h => (nomatch h.1.1)⟩
    · rw [ht.device.closed trivial, hclosed]
      simp

/-- **What a call makes of the list of devices and of the channel.** -/
theorem ApiCall.wp_listed (h : l.Sound) (hclosed : l.device.closed = false)
    (hdevices : ∀ id ref, l.registry.devices.lookup id = some ref → id.toNat < l.registry.next_handle)
    (hopen : c.target.2 = true → l.device.wire_channel_open = true) :
    wp c.program (fun _ => l.Listed c (.ok ())) (fun e => l.Listed c (.error e)) l := by
  have hkeeps (hc : c.lifecycle = false) (hissues : c.issues ≠ some .device ∧ c.issues ≠ some .channel)
      (hclose : ∀ id, c ≠ .PassThruClose id) (hends : ∀ r id, ¬ c.Ends r id .channel) :
      wp c.program (fun _ => l.Listed c (.ok ())) (fun e => l.Listed c (.error e)) l := by
    have hlisted {r : Except Exception Unit} {t : Locked}
        (ht : l.Within True c.LeavesFilters c.LeavesPeriodics (fun e => c.Issues l.device e.command) t) :
        l.Listed c r t := by
      have hstays := h.within (ht.mono id id id fun _ he => he.ordinary hc hopen)
      exact hstays.listed hclosed (fun _ => hissues) hclose (.inl (ht.device.channel trivial))
        fun id hid => absurd hid (hends _ id)
    exact Triple.call (keeps_program hc) (.refl l) (fun _ _ => hlisted) fun _ _ => hlisted
  cases c with
  | PassThruOpen id => exact wp_PassThruOpen_listed hclosed hdevices id
  | PassThruClose id =>
      have hshuts {r : Except Exception Unit} {t : Locked} (ht : l.Shuts id t) :
          l.Listed (.PassThruClose id) r t := by
        have hchannel : t.device.channel = 0 := by
          by_contra hne
          have hopened := (ht.sound.listed _ (ht.sound.published hne)).1
          rw [ht.closed] at hopened
          cases hopened
        refine ⟨fun k ref => ?_, ⟨fun _ => ⟨id, rfl⟩, fun _ => ht.closed⟩, .inr (.inl hchannel),
          fun _ hk => absurd hk (by simp [Locked.Returns, issues]), fun _ _ => hchannel⟩
        rw [ht.devices, IdMap.lookup_erase]
        split
        · next hk => simp [hk, Locked.Returns, issues]
        · next hk => simp [Ne.symm hk, Locked.Returns, issues]
      exact wp_mono (wp_PassThruClose h id) (fun _ _ => hshuts) fun _ _ => hshuts
  | PassThruConnect id protocol flags baud channel =>
      refine wp_mono (wp_PassThruConnect h hclosed protocol flags baud) (fun _ t ht => ?_) fun e t ht => ?_
      · have hid := Registry.Fresh.toNat_next ht.room
        have hnext := ht.next_handle
        refine ⟨fun k ref => ?_, ?_, .inr (.inr ⟨rfl, rfl, ht.channel.trans ht.out.symm⟩), fun k hk => ?_,
          fun k => by simp [Ends]⟩
        · rw [ht.devices]
          exact ⟨fun hold => .inl ⟨hold, nofun⟩, fun hold => hold.elim And.left fun h => (nomatch h.1.2.1)⟩
        · rw [ht.closed, hclosed]
          simp
        · obtain ⟨-, -, rfl⟩ | ⟨-, -, rfl⟩ := hk <;> (rw [ht.out]; omega)
      · exact ht.toStays.listed hclosed (fun h => (nomatch h)) nofun (.inl ht.channel) fun k => by simp [Ends]
  | PassThruDisconnect id =>
      exact wp_mono (wp_PassThruDisconnect h (hopen rfl))
        (fun _ _ ht => ht.1.listed hclosed (fun _ => ⟨nofun, nofun⟩) nofun (.inr ht.2) fun _ _ => ht.2)
        fun _ _ ht => ht.1.listed hclosed (fun _ => ⟨nofun, nofun⟩) nofun (.inr ht.2) fun _ _ => ht.2
  | _ => exact hkeeps rfl ⟨nofun, nofun⟩ nofun fun r id => by simp [Ends]

end listed

/-! ## every call -/

/-- What a call makes of the IDs of its device. -/
structure Locked.Handled (l : Locked) (c : ApiCall) (r : Except Exception Unit) (t : Locked) : Prop
    extends l.Leaves t, l.Entered c r t, l.Listed c r t where
  next_handle : l.registry.next_handle ≤ t.registry.next_handle
  bare : t.device.channel = 0 → t.Bare

/-- **Every call handles IDs.** -/
theorem ApiCall.handled {l t : Locked} {c : ApiCall} {r : Except Exception Unit} (h : l.Sound)
    (htabled : l.Tabled) (hclosed : l.device.closed = false)
    (htables : ∀ e ∈ l.device.filters, e.2.table ∈ filter_tables)
    (hdevices : ∀ id ref, l.registry.devices.lookup id = some ref → id.toNat < l.registry.next_handle)
    (hopen : c.target.2 = true → l.device.wire_channel_open = true ∧ l.device.channel ≠ 0)
    (ht : c.program.exec l = some (r, t)) : l.Handled c r t where
  toLeaves := wp_end (P := l.Leaves) (wp_program h hclosed fun hc => (hopen hc).1) ht
  toEntered := by
    have := wp_entered (c := c) htables r t ht
    cases r <;> exact this
  toListed := by
    have := wp_listed (c := c) h hclosed hdevices (fun hc => (hopen hc).1) r t ht
    cases r <;> exact this
  next_handle := (wp_end (P := l.After c) (wp_after l c) ht).next_handle
  bare := fun hchannel => by
    by_cases hc : ∃ id, c = .PassThruClose id
    · obtain ⟨id, rfl⟩ := hc
      exact wp_end (P := Locked.Bare) (wp_PassThruClose_bare id) ht
    · have htabled := wp_end (P := Locked.Tabled) (wp_tabled htabled (fun id hid => hc ⟨id, hid⟩)
        fun hc => (hopen hc).2) ht
      exact htabled.maps.idle hchannel

end Mongoose
