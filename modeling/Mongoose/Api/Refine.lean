import Mongoose.Api.Channel
import Mongoose.Api.Entries
import Mongoose.Api.Maps
import Mathlib.Order.BooleanAlgebra.Set

/-!
# Mongoose.Api.Refine

The host's maps mirror the adapter's tables.

`Device.Refines` says so of every table an adapter may have after the device's
log, as long as the device need not be reopened and its session is usable.  It is
carried through the ends of each call, and with `Device.Maps`, which says that the
keys of the maps are IDs that were handed out, through every run.
-/

namespace Mongoose

open Prog Lifecycle

/-! ## tables and maps -/

namespace Tables

variable {a a' : Tables} {e r : Exchange} {d : Device} {payload : Bytes} {t : UInt8} {handle : Nat}

/-- An accepted add puts its handle in its table, where it was not. -/
theorem Step.adds (h : Step a e a') (he : e.Adds d payload handle) (ht : payload.head? = some t) :
    handle ∉ a t ∧ a' = a.exec e.command handle := by
  obtain ⟨handle', hfresh, rfl⟩ := h.accepted he.accepted
  obtain ⟨hnew, hsame⟩ := hfresh (by rw [he.command, Device.channelCommand])
  obtain rfl := hsame handle he.handle
  exact ⟨hnew t (by rw [he.command, Device.channelCommand, Command.table, ht]), rfl⟩

/-- What an accepted removal does to its table. -/
theorem Step.removes (h : Step a r a') (hr : r.Removes d t handle) (hlt : handle < 2 ^ 32) :
    ∃ c : Command, c.opcode = 0x0e ∧ c.table = some t ∧ c.handle = handle ∧ a' = a.exec c 0 := by
  obtain ⟨hacc, payload, hp, hcmd⟩ := hr
  obtain ⟨h', -, rfl⟩ := h.accepted hacc
  obtain ⟨hhead, hhandle⟩ := remove_payload_ok hlt hp
  refine ⟨r.command, by rw [hcmd, Device.channelCommand], ?_, ?_, ?_⟩
  · rw [hcmd, Device.channelCommand, Command.table, hhead]
  · rw [hcmd, Device.channelCommand, Command.handle, hhandle]
  · funext t'
    simp [exec, hcmd, Device.channelCommand]

/-- What an accepted clear does. -/
theorem Step.clears (h : Step a e a') (he : e.Clears d t) :
    ∃ c : Command, c.opcode = 0x10 ∧ c.table = some t ∧ a' = a.exec c 0 := by
  obtain ⟨h', -, rfl⟩ := h.accepted he.accepted
  refine ⟨e.command, by rw [he.command, Device.channelCommand], ?_, ?_⟩
  · rw [he.command, Device.channelCommand, Command.table, List.head?_cons]
  · funext t'
    simp [exec, he.command, Device.channelCommand]

/-- An entry that is added and removed again leaves the tables as they were. -/
theorem add_remove {c c' : Command} (hadd : c.opcode = 0x0d) (ht : c.table = some t)
    (hremove : c'.opcode = 0x0e) (ht' : c'.table = some t) (hhandle : c'.handle = handle)
    (hnew : handle ∉ a t) : (a.exec c handle).exec c' 0 = a := by
  funext t'
  rw [exec_remove hremove ht', exec_add hadd ht, hhandle]
  split
  · next heq =>
      subst heq
      rw [Set.insert_sdiff_of_mem _ (Set.mem_singleton _), Set.sdiff_singleton_eq_self hnew]
  · rfl

end Tables

/-- The maps mirror the tables; some periodic messages may not be held, if they are
said to be untracked. -/
structure Device.Mirrored (d : Device) (a : Tables) : Prop where
  filters : Mirrors (fun id => d.filters.lookup id) a.filters
  periodics : ∃ s ⊆ a table_periodic, Mirrors (fun id => d.periodics.lookup id) s ∧
    (d.periodic_untracked = false → s = a table_periodic)

/-- While the device is in order its maps mirror the adapter's tables. -/
def Device.Refines (d : Device) : Prop :=
  d.reopen_required = false → d.usable → ∀ a, Tables.Runs d.log a → d.Mirrored a

/-- A filter goes to a table of filters. -/
theorem filter_table_mem (d : Device) (type : UInt32) : filter_table d type ∈ filter_tables := by
  rw [filter_table]
  split
  · decide
  · split <;> decide

namespace Device.Refines

variable {d d' : Device} {es : List Exchange}

/-- Exchanges that do not touch the tables, on maps that stay. -/
theorem of_other (h : d.Refines) (hlog : d'.log = d.log ++ es)
    (hes : ∀ e ∈ es, e.command.opcode ∉ [7, 0x0d, 0x0e, 0x10]) (hfilters : d'.filters = d.filters)
    (hperiodics : d'.periodics = d.periodics)
    (huntracked : d'.periodic_untracked = false → d.periodic_untracked = false)
    (hreopen : d.reopen_required = true → d'.reopen_required = true)
    (husable : ¬ d.usable → ¬ d'.usable) : d'.Refines := by
  intro hr hu a ha
  rw [hlog] at ha
  have hm := h (by simpa using mt hreopen (by simp [hr])) (by_contra fun h => husable h hu) a
    (Tables.runs_append_other hes ha)
  refine ⟨by rw [hfilters]; exact hm.filters, ?_⟩
  rw [hperiodics]
  obtain ⟨s, hs, hms, heq⟩ := hm.periodics
  exact ⟨s, hs, hms, fun hun => heq (huntracked hun)⟩

/-- Where the device is in doubt there is nothing to show. -/
theorem of_doubt (h : ¬ d.usable ∨ d.reopen_required = true) : d.Refines := by
  intro hr hu
  rw [hr] at h
  simp [hu] at h

end Device.Refines

/-- A handle fits its field. -/
theorem Exchange.Adds.handle_lt {e : Exchange} {d : Device} {payload : Bytes} {handle : Nat}
    (h : e.Adds d payload handle) : handle < 2 ^ 32 := by
  have hh := h.handle
  rw [Exchange.handle, Option.bind_eq_some_iff] at hh
  obtain ⟨body, -, hbody⟩ := hh
  split at hbody
  · rw [← Option.some.inj hbody]
    exact le32At_lt _ _
  · cases hbody

namespace Device.Refines

variable {l t : Locked} {payload : Bytes} {table : UInt8} {doubt : Device → Device} {e : Exchange}
  {handle : Nat}

/-- What a call made of the device, whose session and log moved on. -/
theorem of_turned {d : Device} {es : List Exchange} (h : l.device.Refines) (ht : l.Turned t d es)
    (hd : d.log = l.device.log ∧ d.session = l.device.session ∧
      d.reopen_required = l.device.reopen_required)
    (hstep : t.device.usable → ∀ a', Tables.Runs (l.device.log ++ es) a' →
      ∃ a, Tables.Runs l.device.log a ∧ (l.device.Mirrored a → d.Mirrored a')) :
    t.device.Refines := by
  intro hr hu a' ha'
  obtain ⟨hlog, hsession, hreopen⟩ := hd
  have heq := ht.moved.eq
  have hreopen' : l.device.reopen_required = false := by
    rw [← hreopen]
    simpa using mt ht.moved.reopen (by simp [hr])
  have husable : l.device.usable := by
    have hu' : d.usable := by_contra fun h => ht.moved.usable h hu
    rwa [Device.usable, hsession] at hu'
  have hlog' : t.device.log = l.device.log ++ es := by rw [heq, hlog]
  obtain ⟨a, ha, himp⟩ := hstep hu a' (hlog' ▸ ha')
  have hm := himp (h hreopen' husable a ha)
  have hfilters : t.device.filters = d.filters := by rw [heq]
  have hperiodics : t.device.periodics = d.periodics := by rw [heq]
  have huntracked : t.device.periodic_untracked = d.periodic_untracked := by rw [heq]
  exact ⟨hfilters ▸ hm.filters, by rw [hperiodics, huntracked]; exact hm.periodics⟩

/-- A Start call that ends without an entry. -/
theorem unstarted (h : l.device.Refines) (ht : l.Unstarted table payload doubt t)
    (htable : payload.head? = some table)
    (hdoubt : ∀ d : Device, ∃ u, doubt d = { d with periodic_untracked := u } ∧
      (u = false → d.periodic_untracked = false)) : t.device.Refines := by
  cases ht with
  | unsent ht => exact h.of_turned ht ⟨rfl, rfl, rfl⟩ fun _ a ha => ⟨a, by simpa using ha, id⟩
  | doubtful es ht hes =>
      obtain ⟨u, hu, himp⟩ := hdoubt l.device
      rw [hu] at ht
      obtain rfl | hes := hes
      · refine h.of_turned ht ⟨rfl, rfl, rfl⟩ fun _ a ha => ⟨a, by simpa using ha, fun hm => ?_⟩
        obtain ⟨s, hs, hms, heq⟩ := hm.periodics
        exact ⟨hm.filters, s, hs, hms, fun hun => heq (himp hun)⟩
      · exact .of_doubt hes
  | refused e ht _ hresp hacc =>
      refine h.of_turned ht ⟨rfl, rfl, rfl⟩ fun _ a' ha' => ?_
      obtain ⟨a, ha, hs⟩ := Tables.runs_concat_iff.mp ha'
      rw [hs.refused hresp hacc]
      exact ⟨a, ha, id⟩
  | removed e r handle ht he hr =>
      refine h.of_turned ht ⟨rfl, rfl, rfl⟩ fun _ a' ha' => ?_
      rw [show l.device.log ++ [e, r] = l.device.log ++ [e] ++ [r] by simp] at ha'
      obtain ⟨b, hb, hs'⟩ := Tables.runs_concat_iff.mp ha'
      obtain ⟨a, ha, hs⟩ := Tables.runs_concat_iff.mp hb
      obtain ⟨hnew, rfl⟩ := hs.adds he htable
      obtain ⟨c, hop, hc, hhandle, rfl⟩ := hs'.removes hr he.handle_lt
      rw [Tables.add_remove (by rw [he.command, Device.channelCommand])
        (by rw [he.command, Device.channelCommand, Command.table, htable]) hop hc hhandle hnew]
      exact ⟨a, ha, id⟩

/-- A removal or a clear that was not accepted. -/
theorem failed {opcode : Nat} (h : l.device.Refines) (ht : l.Failed t opcode) : t.device.Refines := by
  obtain ⟨o, ht, ho⟩ := ht.turned
  refine h.of_turned ht ⟨rfl, rfl, rfl⟩ fun hu a' ha' => ?_
  cases o with
  | none => exact ⟨a', by simpa using ha', id⟩
  | some r =>
      obtain ⟨-, hacc, hnone⟩ := ho r rfl
      obtain ⟨a, ha, hs⟩ := Tables.runs_concat_iff.mp ha'
      rw [hs.refused (fun hresp => hnone hresp hu) hacc]
      exact ⟨a, ha, id⟩

/-- A new filter is in its table and under its ID. -/
theorem started_filter {type : UInt32} (h : l.device.Refines) (hmaps : l.device.Maps l.registry.next_handle)
    (htable : payload.head? = some (filter_table l.device type))
    (ht : l.Started payload (fun id handle d => { d with
      filters := d.filters.emplace id ⟨handle, filter_table l.device type⟩ }) t) :
    t.device.Refines := by
  have hroom := ht.room
  obtain ⟨e, handle, ht, he⟩ := ht.added
  refine h.of_turned ht ⟨rfl, rfl, rfl⟩ fun _ a' ha' => ?_
  obtain ⟨a, ha, hs⟩ := Tables.runs_concat_iff.mp ha'
  obtain ⟨hnew, rfl⟩ := hs.adds he htable
  refine ⟨a, ha, fun hm => ?_⟩
  have hop : e.command.opcode = 0x0d := by rw [he.command, Device.channelCommand]
  have hc : e.command.table = some (filter_table l.device type) := by
    rw [he.command, Device.channelCommand, Command.table, htable]
  have hmem := filter_table_mem l.device type
  have hnone := (hmaps.lookup_next hroom).1
  constructor
  · rw [Tables.filters_add hop hc hmem]
    refine hm.filters.insert hnone (fun hx => hnew hx.2) fun k => ?_
    rw [IdMap.lookup_emplace, hnone, Option.getD_none]
  · rw [Tables.periodic_eq fun _ => ⟨_, hmem, hc⟩]
    exact hm.periodics

/-- So is a new periodic message. -/
theorem started_periodic (h : l.device.Refines) (hmaps : l.device.Maps l.registry.next_handle)
    (htable : payload.head? = some table_periodic)
    (ht : l.Started payload
      (fun id handle d => { d with periodics := d.periodics.emplace id handle }) t) :
    t.device.Refines := by
  have hroom := ht.room
  obtain ⟨e, handle, ht, he⟩ := ht.added
  refine h.of_turned ht ⟨rfl, rfl, rfl⟩ fun _ a' ha' => ?_
  obtain ⟨a, ha, hs⟩ := Tables.runs_concat_iff.mp ha'
  obtain ⟨hnew, rfl⟩ := hs.adds he htable
  refine ⟨a, ha, fun hm => ?_⟩
  have hop : e.command.opcode = 0x0d := by rw [he.command, Device.channelCommand]
  have hc : e.command.table = some table_periodic := by
    rw [he.command, Device.channelCommand, Command.table, htable]
  have hnone := (hmaps.lookup_next hroom).2
  constructor
  · rw [Tables.filters_eq (by rw [hop]; decide) hc]
    exact hm.filters
  · obtain ⟨s, hs, hms, heq⟩ := hm.periodics
    rw [Tables.exec_add hop hc, if_pos rfl]
    refine ⟨insert handle s, Set.insert_subset_insert hs,
      hms.insert hnone (fun hx => hnew (hs hx)) fun k => ?_, fun hu => by rw [heq hu]⟩
    rw [IdMap.lookup_emplace, hnone, Option.getD_none]

/-- A removal takes the entry from its table and from the map. -/
theorem stopped_filter {id : UInt32} {f : Filter} {r : Exchange} (h : l.device.Refines)
    (hmaps : l.device.Maps l.registry.next_handle) (hlookup : l.device.filters.lookup id = some f)
    (ht : l.Turned t { l.device with filters := l.device.filters.erase id } [r])
    (hr : r.Removes l.device f.table f.handle) : t.device.Refines := by
  refine h.of_turned ht ⟨rfl, rfl, rfl⟩ fun _ a' ha' => ?_
  obtain ⟨a, ha, hs⟩ := Tables.runs_concat_iff.mp ha'
  obtain ⟨c, hop, hc, hhandle, rfl⟩ := hs.removes hr (hmaps.filter _ _ hlookup).2
  refine ⟨a, ha, fun hm => ?_⟩
  have hmem : f.table ∈ filter_tables := ((hm.filters.mem f).mpr ⟨id, hlookup⟩).1
  constructor
  · rw [Tables.filters_remove hop hc, hhandle]
    exact hm.filters.erase hlookup fun k => IdMap.lookup_erase ..
  · rw [Tables.periodic_eq fun _ => ⟨_, hmem, hc⟩]
    exact hm.periodics

/-- A message that was stopped is gone on both sides. -/
theorem stopped_periodic {id : UInt32} {r : Exchange} (h : l.device.Refines)
    (hmaps : l.device.Maps l.registry.next_handle) (hlookup : l.device.periodics.lookup id = some handle)
    (ht : l.Turned t { l.device with periodics := l.device.periodics.erase id } [r])
    (hr : r.Removes l.device table_periodic handle) : t.device.Refines := by
  refine h.of_turned ht ⟨rfl, rfl, rfl⟩ fun _ a' ha' => ?_
  obtain ⟨a, ha, hs⟩ := Tables.runs_concat_iff.mp ha'
  obtain ⟨c, hop, hc, hhandle, rfl⟩ := hs.removes hr (hmaps.periodic _ _ hlookup).2
  refine ⟨a, ha, fun hm => ?_⟩
  constructor
  · rw [Tables.filters_eq (by rw [hop]; decide) hc]
    exact hm.filters
  · obtain ⟨s, hs, hms, heq⟩ := hm.periodics
    rw [Tables.exec_remove hop hc, if_pos rfl, hhandle]
    exact ⟨s \ {handle}, Set.sdiff_subset_sdiff_left hs,
      hms.erase hlookup fun k => IdMap.lookup_erase .., fun hu => by rw [heq hu]⟩

/-- Filters that were cleared are gone on both sides. -/
theorem cleared_filters {e : Exchange} (h : l.device.Refines) (hmaps : l.device.Maps l.registry.next_handle)
    (hmem : table ∈ filter_tables)
    (ht : l.Turned t
      { l.device with filters := l.device.filters.filter fun x => x.2.table ≠ table } [e])
    (he : e.Clears l.device table) : t.device.Refines := by
  refine h.of_turned ht ⟨rfl, rfl, rfl⟩ fun _ a' ha' => ?_
  obtain ⟨a, ha, hs⟩ := Tables.runs_concat_iff.mp ha'
  obtain ⟨c, hop, hc, rfl⟩ := hs.clears he
  refine ⟨a, ha, fun hm => ?_⟩
  constructor
  · rw [Tables.filters_clear hop hc]
    exact hm.filters.filter fun k => hmaps.filters.lookup_filter (fun f => f.table ≠ table) k
  · rw [Tables.periodic_eq fun _ => ⟨_, hmem, hc⟩]
    exact hm.periodics

/-- So are messages. -/
theorem cleared_periodics {e : Exchange} (h : l.device.Refines)
    (ht : l.Turned t { l.device with periodics := [], periodic_untracked := false } [e])
    (he : e.Clears l.device table_periodic) : t.device.Refines := by
  refine h.of_turned ht ⟨rfl, rfl, rfl⟩ fun _ a' ha' => ?_
  obtain ⟨a, ha, hs⟩ := Tables.runs_concat_iff.mp ha'
  obtain ⟨c, hop, hc, rfl⟩ := hs.clears he
  refine ⟨a, ha, fun hm => ?_⟩
  constructor
  · rw [Tables.filters_eq (by rw [hop]; decide) hc]
    exact hm.filters
  · rw [Tables.exec_clear hop hc, if_pos rfl]
    exact ⟨∅, Set.Subset.rfl, .empty, fun _ => rfl⟩

end Device.Refines

/-! ## the calls -/

/-- A periodic message goes into the periodic table. -/
theorem can_periodic_head? {message : PASSTHRU_MSG} {interval : UInt32} {payload : Bytes}
    (h : can_periodic message interval = .ok payload) : payload.head? = some table_periodic := by
  obtain ⟨-, -, rfl⟩ := can_periodic_ok h
  rfl

/-- A flow-control filter is added only where there is room for one. -/
theorem filter_payload_room {d : Device} {type : UInt32} {mask pattern : PASSTHRU_MSG}
    {flow : Option PASSTHRU_MSG} {payload : Bytes}
    (h : filter_payload d type mask pattern flow = .ok payload)
    (htable : filter_table d type = table_flow_control) :
    (d.filters.countP fun e => e.2.table = table_flow_control) < 64 := by
  have hiso : d.protocol = ISO15765 := by
    by_contra hne
    rw [filter_table, if_neg hne] at htable
    split at htable <;> exact absurd htable (by decide)
  unfold filter_payload at h
  rw [if_pos hiso] at h
  split at h
  · cases h
  · split at h
    · cases h
    · split at h
      · cases h
      · omega

/-- What a call finds of the maps, and leaves. -/
structure Locked.Tabled (l : Locked) : Prop where
  maps : l.device.Maps l.registry.next_handle
  refines : l.device.Refines

namespace Locked.Tabled

variable {l t : Locked} {d : Device} {es : List Exchange}

/-- Not a table command, and not a close. -/
def Plain (e : Exchange) : Prop := e.command.opcode ∉ [7, 0x0d, 0x0e, 0x10]

/-- A call that leaves the tables alone keeps the maps in step with them. -/
theorem within (h : l.Tabled) (hw : l.Within True True True Plain t) : t.Tabled := by
  obtain ⟨es, hlog, hes⟩ := hw.device.log
  have hfilters := hw.device.filters trivial
  obtain ⟨hperiodics, huntracked⟩ := hw.device.periodics trivial
  refine ⟨h.maps.congr hw.next_handle hfilters hperiodics fun hc => ?_, ?_⟩
  · rw [← hc, hw.device.channel trivial]
  · exact h.refines.of_other hlog hes hfilters hperiodics (fun hu => by rw [← huntracked, hu])
      hw.device.reopen_required hw.device.usable

/-- The maps of what a call made of the device. -/
theorem of_turned {n : Nat} (ht : l.Turned t d es) (hmaps : d.Maps n)
    (hn : n ≤ t.registry.next_handle) (hrefines : t.device.Refines) : t.Tabled :=
  ⟨hmaps.congr hn (by rw [ht.moved.eq]) (by rw [ht.moved.eq]) fun hc => by rwa [ht.moved.eq] at hc,
    hrefines⟩

theorem unstarted {table : UInt8} {payload : Bytes} {doubt : Device → Device} (h : l.Tabled)
    (htable : payload.head? = some table) (ht : l.Unstarted table payload doubt t)
    (hdoubt : ∀ d : Device, ∃ u, doubt d = { d with periodic_untracked := u } ∧
      (u = false → d.periodic_untracked = false)) : t.Tabled := by
  have hrefines := h.refines.unstarted ht htable hdoubt
  have hmaps {es : List Exchange} (ht : l.Turned t l.device es) : t.Tabled :=
    .of_turned ht h.maps ht.next_handle hrefines
  cases ht with
  | unsent ht => exact hmaps ht
  | doubtful es ht =>
      obtain ⟨u, hu, -⟩ := hdoubt l.device
      refine of_turned ht ?_ ht.next_handle hrefines
      rw [hu]
      exact h.maps.congr (Nat.le_refl _) rfl rfl id
  | refused e ht => exact hmaps ht
  | removed e r handle ht => exact hmaps ht

/-- A command that failed and adds nothing changes no table for sure. -/
theorem failed {opcode : Nat} (h : l.Tabled) (ht : l.Failed t opcode) : t.Tabled := by
  have hrefines := h.refines.failed ht
  obtain ⟨o, ht, -⟩ := ht.turned
  exact .of_turned ht h.maps ht.next_handle hrefines

end Locked.Tabled

section tables

variable {l : Locked}

/-- Starting a periodic message keeps the maps in step, also when it throws. -/
theorem wp_StartPeriodic_tabled (h : l.Tabled) (hchannel : l.device.channel ≠ 0)
    (message : PASSTHRU_MSG) (interval : UInt32) :
    wp (PassThruStartPeriodicMsg message interval) (fun _ => Locked.Tabled) (fun _ => Locked.Tabled)
      l := by
  refine wp_PassThruStartPeriodicMsg (fun _ => h) (fun t payload hpayload hcount ht => ?_)
    fun e t payload hpayload ht => ?_
  · have hrefines := h.refines.started_periodic h.maps (can_periodic_head? hpayload) ht
    have hnext := ht.next_handle
    have hroom := ht.room
    obtain ⟨e, handle, ht, he⟩ := ht.added
    exact .of_turned ht (h.maps.emplace_periodic hroom hchannel he.handle_lt hcount) (by omega)
      hrefines
  · exact h.unstarted (can_periodic_head? hpayload) ht fun d => ⟨true, rfl, nofun⟩

/-- So does starting a filter. -/
theorem wp_StartFilter_tabled (h : l.Tabled) (hchannel : l.device.channel ≠ 0) (type : UInt32)
    (mask pattern : PASSTHRU_MSG) (flow : Option PASSTHRU_MSG) :
    wp (PassThruStartMsgFilter type mask pattern flow) (fun _ => Locked.Tabled)
      (fun _ => Locked.Tabled) l := by
  refine wp_PassThruStartMsgFilter (fun _ => h) (fun t payload hpayload ht => ?_)
    fun e t payload hpayload ht => ?_
  · have hrefines := h.refines.started_filter h.maps (filter_payload_head? hpayload) ht
    have hnext := ht.next_handle
    have hroom := ht.room
    obtain ⟨e, handle, ht, he⟩ := ht.added
    exact .of_turned ht (h.maps.emplace_filter hroom hchannel he.handle_lt
      (filter_payload_room hpayload)) (by omega) hrefines
  · exact h.unstarted (filter_payload_head? hpayload) ht fun d => ⟨_, rfl, id⟩

/-- Stopping a message forgets it once the adapter has. -/
theorem wp_StopPeriodic_tabled (h : l.Tabled) (hchannel : l.device.channel ≠ 0) (id : UInt32) :
    wp (PassThruStopPeriodicMsg id) (fun _ => Locked.Tabled) (fun _ => Locked.Tabled) l :=
  wp_PassThruStopPeriodicMsg (fun _ => h) (fun _ _ _ hlookup ht hr =>
      .of_turned ht (h.maps.erase_periodic hchannel id) ht.next_handle
        (h.refines.stopped_periodic h.maps hlookup ht hr))
    fun _ _ ht => h.failed ht

/-- So does stopping a filter. -/
theorem wp_StopFilter_tabled (h : l.Tabled) (hchannel : l.device.channel ≠ 0) (id : UInt32) :
    wp (PassThruStopMsgFilter id) (fun _ => Locked.Tabled) (fun _ => Locked.Tabled) l := by
  refine wp_PassThruStopMsgFilter (fun _ => h) (fun t r f hlookup ht hr => ?_) fun _ _ ht => h.failed ht
  refine .of_turned ht (h.maps.filter_filters hchannel _ fun k g hk => ?_) ht.next_handle
    (h.refines.stopped_filter h.maps hlookup ht hr)
  rw [← IdMap.erase, IdMap.lookup_erase] at hk
  split at hk
  · cases hk
  · exact hk

/-- Clears forget the filters of each table that was cleared. -/
theorem wp_clear_filters_tabled (h : l.Tabled) (hchannel : l.device.channel ≠ 0) {tables : List UInt8}
    (htables : ∀ table ∈ tables, table ∈ filter_tables) :
    wp (clear_filters tables) (fun _ => Locked.Tabled) (fun _ => Locked.Tabled) l := by
  induction tables generalizing l with
  | nil => exact (wp_pure _).mpr h
  | cons table tables ih =>
      have ih {l : Locked} (h : l.Tabled) (hchannel : l.device.channel ≠ 0) :=
        ih h hchannel fun x hx => htables x (List.mem_cons_of_mem _ hx)
      refine wp_clear_filters_cons (fun _ => ih h hchannel) (fun t e ht he => ?_) fun _ _ ht => h.failed ht
      have hmem := htables table List.mem_cons_self
      refine ih (.of_turned ht (h.maps.filter_filters hchannel _ fun k g hk => ?_) ht.next_handle
        (h.refines.cleared_filters h.maps hmem ht he)) ?_
      · rw [h.maps.filters.lookup_filter (fun f => f.table ≠ table) k, Option.filter_eq_some_iff] at hk
        exact hk.1
      · rw [ht.moved.eq]
        exact hchannel

/-- The clear of a teardown forgets the messages. -/
theorem wp_clear_periodic_tabled (h : l.Tabled) :
    wp clear_periodic_table (fun _ => Locked.Tabled) (fun _ => Locked.Tabled) l := by
  have hmaps : ({ l.device with periodics := [], periodic_untracked := false } : Device).Maps
      l.registry.next_handle :=
    ⟨h.maps.filters, List.nodup_nil, h.maps.filter, fun _ _ hid => (nomatch hid),
      fun hc => ⟨(h.maps.idle hc).1, rfl⟩, h.maps.flow, Nat.zero_le _⟩
  exact wp_clear_periodic_table
    (fun t e ht he => .of_turned ht hmaps ht.next_handle (h.refines.cleared_periodics ht he))
    fun _ _ ht => h.failed ht

end tables

/-! ## Connect and Disconnect -/

namespace Locked.Tabled

variable {l : Locked}

/-- A device whose maps are empty, and whose adapter holds nothing for it. -/
theorem of_empty (hfilters : l.device.filters = []) (hperiodics : l.device.periodics = [])
    (h : l.device.reopen_required = false → l.device.usable →
      ∀ a, Tables.Runs l.device.log a → a.filters = ∅ ∧ a table_periodic = ∅) : l.Tabled where
  maps := .empty hfilters hperiodics
  refines := fun hr hu a ha => by
    obtain ⟨hf, hp⟩ := h hr hu a ha
    constructor
    · rw [hfilters, hf]
      exact .empty
    · rw [hperiodics, hp]
      exact ⟨∅, Set.Subset.rfl, .empty, fun _ => rfl⟩

end Locked.Tabled

/-- A Connect finds empty maps, and fills neither. -/
theorem wp_Connect_tabled {l : Locked} (h : l.Tabled) (protocol flags baud : UInt32) :
    wp (PassThruConnect protocol flags baud) (fun _ => Locked.Tabled) (fun _ => Locked.Tabled) l := by
  let b : Locked := { l with device := { l.device with protocol := protocol } }
  have hopened (t : Locked) (hreopen : l.device.reopen_required = false)
      (hchannel : l.device.channel = 0)
      (ht : b.Within False True True (fun e => e.command.opcode ∈ [6, 7, 0x12]) t) : t.Tabled := by
    obtain ⟨hfilters, hperiodics⟩ := h.maps.idle hchannel
    have hfilters' := (ht.device.filters trivial).trans hfilters
    obtain ⟨hperiodics', huntracked⟩ := ht.device.periodics trivial
    refine ⟨.empty hfilters' (hperiodics'.trans hperiodics), fun hr hu a' ha' => ?_⟩
    obtain ⟨es, hlog, hes⟩ := ht.device.log
    rw [hlog] at ha'
    obtain ⟨a, ha, hperiodic, hsub⟩ := Tables.runs_append_reset hes ha'
    have hm := h.refines hreopen (by_contra fun hu' => ht.device.usable hu' hu) a ha
    constructor
    · have hnone := hm.filters
      rw [hfilters] at hnone
      rw [hfilters', Set.subset_empty_iff.mp (hsub.trans (Set.subset_empty_iff.mpr hnone.eq_empty))]
      exact .empty
    · rw [hperiodics', huntracked, hperiodic]
      exact hm.periodics
  exact wp_PassThruConnect_within rfl (fun _ _ _ _ _ => List.mem_cons_self)
    (fun _ _ _ => by simp [Device.channelCommand])
    (fun _ _ _ => by simp [Device.channelCommand]) h hopened

/-- The adapter's periodic table is empty, as far as the device knows. -/
def Device.Idle (d : Device) : Prop :=
  d.reopen_required = false → d.usable → ∀ a, Tables.Runs d.log a → a table_periodic = ∅

/-- The end of a Disconnect: an accepted close empties the tables of filters. -/
theorem wp_close_tabled {l : Locked} {error : Option Exception} (hfilters : l.device.filters = [])
    (hperiodics : l.device.periodics = []) (hidle : error = none → l.device.Idle) :
    wp (end_channel error) (fun _ => Locked.Tabled) (fun _ => Locked.Tabled) l := by
  have hempty {t : Locked} {es : List Exchange} (ht : l.Commanded t es) :
      t.device.filters = [] ∧ t.device.periodics = [] := by
    rw [ht.moved.eq]
    exact ⟨hfilters, hperiodics⟩
  have hreopen {t : Locked} {d : Device} (hf : d.filters = []) (hp : d.periodics = [])
      (hr : d.reopen_required = true) : Locked.Tabled { t with device := d } :=
    .of_empty hf hp fun h => by cases hr.symm.trans h
  rw [end_channel]
  simp only [wp_bind, wp_tryCatch, wp_update, wp_throw, wp_when, wp_rethrow]
  refine wp_close_channel (fun t e ht he hacc _ => ?_) fun _ t o ht _ => ?_
  · obtain ⟨hf, hp⟩ := hempty ht
    refine ⟨fun _ => ⟨fun _ => hreopen hf hp rfl, fun _ _ => hreopen hf hp rfl⟩, fun hnone => ?_⟩
    have hnone : error = none := by simpa using hnone
    refine ⟨fun _ => .of_empty hf hp fun hr hu a' ha' => ?_, fun _ h => by cases hnone.symm.trans h⟩
    have hlog : t.device.log = l.device.log ++ [e] := by rw [ht.moved.eq]
    obtain ⟨a, ha, hs⟩ := Tables.runs_concat_iff.mp (hlog ▸ ha')
    obtain ⟨handle, -, rfl⟩ := hs.accepted hacc
    have hop : e.command.opcode = 7 := by rw [he, Device.channelCommand]
    have hr' : l.device.reopen_required = false := by
      simpa using mt ht.moved.reopen (by simpa using hr)
    have hu' : l.device.usable := by_contra fun h => ht.moved.usable h hu
    rw [Tables.filters_close hop, Tables.periodic_eq fun h => absurd hop h]
    exact ⟨rfl, hidle hnone hr' hu' a ha⟩
  · obtain ⟨hf, hp⟩ := hempty ht
    exact hreopen hf hp rfl

/-- A Disconnect empties the maps and the tables, or leaves the device to be reopened. -/
theorem wp_Disconnect_tabled {l : Locked} (h : l.Tabled) :
    wp PassThruDisconnect (fun _ => Locked.Tabled) (fun _ => Locked.Tabled) l := by
  rw [PassThruDisconnect_eq, wp_bind]
  refine wp_retire_channel fun s ls hs => ?_
  refine wp_clear_if.mpr ⟨fun _ => ?_, fun hperiodic => ?_⟩
  · rw [wp_attempt]
    refine wp_clear_periodic_table (fun t e ht he => ?_) fun err t ht => ?_
    · refine wp_close_tabled (by rw [ht.moved.eq]) (by rw [ht.moved.eq]) fun _ _ _ a' ha' => ?_
      have hlog : t.device.log = l.device.log ++ [e] := by rw [ht.moved.eq]
      obtain ⟨a, -, hs'⟩ := Tables.runs_concat_iff.mp (hlog ▸ ha')
      obtain ⟨c, hop, hc, rfl⟩ := hs'.clears he
      rw [Tables.exec_clear hop hc, if_pos rfl]
    · obtain ⟨o, ht, -⟩ := ht.turned
      exact wp_close_tabled (by rw [ht.moved.eq]) (by rw [ht.moved.eq]) (by simp)
  · refine wp_close_tabled rfl rfl fun _ hr hu a ha => ?_
    have hnone : l.device.periodic_untracked = false ∧ l.device.periodics = [] := by
      simpa using hperiodic
    obtain ⟨s', -, hm, heq⟩ := (h.refines hr (by_contra fun h => Live.not_usable_of_run hs h hu) a ha).periodics
    rw [hnone.2] at hm
    rw [← heq hnone.1]
    exact hm.eq_empty

end Mongoose
