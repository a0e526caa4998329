import Mongoose.Api.Adapter

/-!
# Mongoose.Api.Entries

How the calls that add, remove and clear table entries end.

A Start call adds an entry and holds it in its map, or ends without one: nothing
was added, or it was taken back, or the device is left in doubt.  A Stop call
forgets an entry once its removal was accepted.  Each rule below says all the ways
a call can end, so that what is proved of the calls follows from their ends.
-/

namespace Mongoose

open Prog Lifecycle

/-- A call turned the device into `d`, but for its session and the exchanges it made. -/
structure Locked.Turned (l t : Locked) (d : Device) (es : List Exchange) : Prop where
  ref : t.ref = l.ref
  next_handle : l.registry.next_handle ≤ t.registry.next_handle
  moved : d.Moved t.device es

/-- A removal of an entry. -/
structure Exchange.Removes (r : Exchange) (d : Device) (table : UInt8) (handle : Nat) : Prop where
  accepted : r.accepted = true
  command : ∃ payload, remove_payload table handle = .ok payload ∧
    r.command = d.channelCommand 0x0e payload 10000 0 none

theorem Exchange.Removes.congr {r : Exchange} {d d' : Device} {table : UInt8} {handle : Nat}
    (h : r.Removes d table handle) (hprotocol : d.protocol = d'.protocol) :
    r.Removes d' table handle := by
  obtain ⟨hacc, payload, hp, hcmd⟩ := h
  refine ⟨hacc, payload, hp, ?_⟩
  rw [hcmd, Device.channelCommand, Device.channelCommand, hprotocol]

/-- An accepted add, and the handle it was given. -/
structure Exchange.Adds (e : Exchange) (d : Device) (payload : Bytes) (handle : Nat) : Prop where
  command : e.command = d.channelCommand 0x0d payload 10000 0 none
  accepted : e.accepted = true
  handle : e.handle = some handle

/-- A Start call that ends without an entry. -/
inductive Locked.Unstarted (l : Locked) (table : UInt8) (payload : Bytes) (doubt : Device → Device)
    (t : Locked) : Prop
  | unsent : l.Turned t l.device [] → l.Unstarted table payload doubt t
  | doubtful (es : List Exchange) : l.Turned t (doubt l.device) es →
      es = [] ∨ ¬ t.device.usable ∨ t.device.reopen_required = true →
      l.Unstarted table payload doubt t
  | refused (e : Exchange) : l.Turned t l.device [e] →
      e.command = l.device.channelCommand 0x0d payload 10000 0 none → e.response ≠ none →
      e.accepted = false → l.Unstarted table payload doubt t
  | removed (e r : Exchange) (handle : Nat) : l.Turned t l.device [e, r] →
      e.Adds l.device payload handle → r.Removes l.device table handle →
      l.Unstarted table payload doubt t

/-- A Start call that ends with an entry in its map, under a new ID. -/
structure Locked.Started (l : Locked) (payload : Bytes) (insert : UInt32 → Nat → Device → Device)
    (t : Locked) : Prop where
  added : ∃ e handle,
    l.Turned t (insert (UInt32.ofNat l.registry.next_handle) handle l.device) [e] ∧
      e.Adds l.device payload handle
  room : l.registry.next_handle ≤ 0xffffffff
  next_handle : t.registry.next_handle = l.registry.next_handle + 1
  out : t.out.id = UInt32.ofNat l.registry.next_handle

section moved

variable {d d' : Device} {es : List Exchange}

/-- The flag is put back. -/
theorem Device.Moved.restore
    (h : ({ d with periodic_untracked := true } : Device).Moved d' es) :
    d.Moved { d' with periodic_untracked := d.periodic_untracked } es where
  eq := by rw [h.eq]
  reopen := h.reopen
  usable := h.usable

/-- And the entry is held. -/
theorem Device.Moved.hold {id : UInt32} {handle : Nat}
    (h : ({ d with periodic_untracked := true } : Device).Moved d' es) :
    ({ d with periodics := d.periodics.emplace id handle } : Device).Moved
      { d' with
        periodics := d'.periodics.emplace id handle
        periodic_untracked := d.periodic_untracked } es where
  eq := by rw [h.eq]
  reopen := h.reopen
  usable := h.usable

theorem Device.Moved.hold_filter {id : UInt32} {f : Filter} (h : d.Moved d' es) :
    ({ d with filters := d.filters.emplace id f } : Device).Moved
      { d' with filters := d'.filters.emplace id f } es where
  eq := by rw [h.eq]
  reopen := h.reopen
  usable := h.usable

end moved

section turned

variable {l t u : Locked} {d : Device} {es es' : List Exchange}

/-- A command turns the device into what it was made to be before. -/
theorem Locked.Commanded.turned {l₀ : Locked} (h : l₀.Commanded t es) (href : l₀.ref = l.ref)
    (hnext : l.registry.next_handle ≤ l₀.registry.next_handle) : l.Turned t l₀.device es :=
  ⟨h.kept.ref.trans href, h.kept.registry ▸ hnext, h.moved⟩

theorem Locked.Turned.trans (h : l.Turned t d es) (hkept : t.Kept u) (hmoved : t.device.Moved u.device es') :
    l.Turned u d (es ++ es') :=
  ⟨hkept.ref.trans h.ref, hkept.registry ▸ h.next_handle, h.moved.trans hmoved⟩

/-- An accepted answer that is long enough carries the handle. -/
theorem Exchange.adds_of_accepted {payload body : Bytes} {q : Nat} (hlen : 24 ≤ body.length)
    (hacc : Mongoose.accepted body = .ok ()) :
    Exchange.Adds ⟨d.channelCommand 0x0d payload 10000 0 none, q, some body⟩ d payload (le32At body 20) where
  command := rfl
  accepted := Exchange.accepted_of_ok (by omega) hacc
  handle := by simp [Exchange.handle, hlen]

end turned

section remove

variable {l : Locked} {Q : Unit → Locked → Prop} {E : Exception → Locked → Prop} {table : UInt8}
  {handle : Nat}

/-- A removal is accepted, or it is not. -/
theorem wp_remove_entry
    (hok : ∀ t r, l.Commanded t [r] → r.Removes l.device table handle → Q () t)
    (herr : ∀ err t (o : Option Exchange), l.Commanded t o.toList →
      (∀ r, o = some r → r.accepted = false ∧ (r.response = none → ¬ t.device.usable) ∧
        ∃ payload, remove_payload table handle = .ok payload ∧
          r.command = l.device.channelCommand 0x0e payload 10000 0 none) → E err t) :
    wp (remove_entry table handle) Q E l := by
  rw [remove_entry, wp_bind, wp_of]
  refine ⟨fun payload hp => ?_, fun e he => ?_⟩
  · refine wp_accepted_command (by decide) (fun t r hc hr hacc _ => hok t r hc ⟨hacc, payload, hp, hr⟩)
      fun err t o hc ho => herr err t o hc fun r hr => ?_
    obtain ⟨hcmd, hacc, hnone⟩ := ho r hr
    exact ⟨hacc, hnone, payload, hp, hcmd⟩
  · rw [remove_payload_eq] at he
    cases he

end remove

/-! ## Start calls -/

/-- A new periodic message is held, or it is not there, or in doubt. -/
theorem wp_PassThruStartPeriodicMsg {l : Locked} {message : PASSTHRU_MSG} {interval : UInt32}
    {Q : Unit → Locked → Prop} {E : Exception → Locked → Prop} (hsame : ∀ e, E e l)
    (hok : ∀ t payload, can_periodic message interval = .ok payload →
      l.device.periodics.length < 10 →
      l.Started payload
        (fun id handle d => { d with periodics := d.periodics.emplace id handle }) t → Q () t)
    (herr : ∀ e t payload, can_periodic message interval = .ok payload →
      l.Unstarted table_periodic payload (fun d => { d with periodic_untracked := true }) t → E e t) :
    wp (PassThruStartPeriodicMsg message interval) Q E l := by
  rw [PassThruStartPeriodicMsg, session]
  simp only [wp_bind, wp_read, wp_throw_if, wp_of]
  refine ⟨fun _ => hsame _, fun _ => ⟨fun _ => hsame _, fun _ => ⟨fun payload hpayload =>
    ⟨fun _ => hsame _, fun hcount => ?_⟩, fun _ _ => hsame _⟩⟩⟩
  refine wp_allocate_handle (fun hle => ?_) fun _ => hsame _
  simp only [wp_update, wp_tryCatch, wp_of, wp_throw, wp_when, wp_bind, wp_output]
  have herr (e : Exception) (t : Locked) := herr e t payload hpayload
  refine wp_channel_command (fun t q body hc hlen _ => ?_) (fun e t hc => ?_) fun e t q hc hu hr => ?_
  · have hlen := hlen (by decide)
    have ht : l.Turned t { l.device with periodic_untracked := true } _ := hc.turned rfl (Nat.le_succ _)
    refine ⟨fun _ hacc => ⟨fun hshort => ?_, fun hlong => ⟨fun handle hhandle => ?_, fun e he => ?_⟩⟩,
      fun e hacc => ?_⟩
    · -- accepted, but too short to carry the handle
      refine wp_uncertain_channel fun u hkept _ hmoved hreopen => ?_
      exact herr _ u (.doubtful _ (ht.trans hkept hmoved) (.inr (.inr hreopen)))
    · rw [le32_of_le (by omega)] at hhandle
      cases hhandle
      have hadds : Exchange.Adds ⟨l.device.channelCommand 0x0d payload 10000 0 none, q, some body⟩ l.device
          payload (le32At body 20) := Exchange.adds_of_accepted (by omega) hacc
      refine wp_room (fun u hkept hu => ?_) fun err u hkept hu => ?_
      · have hregistry := hkept.registry.trans hc.kept.registry
        refine hok _ payload hpayload (by omega) ⟨⟨_, le32At body 20, ⟨hkept.ref.trans ht.ref, ?_, ?_⟩, hadds⟩,
          hle, ?_, rfl⟩
        · rw [hregistry]
          exact Nat.le_succ _
        · rw [hu]
          exact hc.moved.hold
        · rw [hregistry]
      · -- no room: the entry is taken back, or the channel left uncertain
        have hturned : l.Turned u { l.device with periodic_untracked := true } _ :=
          ⟨hkept.ref.trans ht.ref, hkept.registry ▸ ht.next_handle, hu ▸ ht.moved⟩
        have hprotocol : u.device.protocol = l.device.protocol := by rw [hturned.moved.eq]
        refine wp_remove_entry (fun v r hv hr => ?_) fun err' v o hv _ => ?_
        · obtain ⟨href, hnext, hmoved⟩ := hturned.trans hv.kept hv.moved
          exact herr err _ (.removed _ r _ ⟨href, hnext, hmoved.restore⟩ hadds (hr.congr hprotocol))
        · refine wp_uncertain_channel fun w hkept' _ hmoved' hreopen => ?_
          exact herr err w (.doubtful _ ((hturned.trans hv.kept hv.moved).trans hkept' hmoved')
            (.inr (.inr hreopen)))
    · rw [le32_of_le (by omega)] at he
      cases he
    · exact herr e _ (.refused _ ⟨ht.ref, ht.next_handle, ht.moved.restore⟩ rfl (Option.some_ne_none body)
        (Exchange.accepted_of_error hlen hacc))
  · exact herr e t (.doubtful [] (hc.turned rfl (Nat.le_succ _)) (.inl rfl))
  · exact herr e t (.doubtful _ (hc.turned rfl (Nat.le_succ _)) (.inr (.inl hu)))

/-- A new filter is held, or it is not there, or in doubt. -/
theorem wp_PassThruStartMsgFilter {l : Locked} {type : UInt32} {mask pattern : PASSTHRU_MSG}
    {flow : Option PASSTHRU_MSG} {Q : Unit → Locked → Prop} {E : Exception → Locked → Prop}
    (hsame : ∀ e, E e l)
    (hok : ∀ t payload, filter_payload l.device type mask pattern flow = .ok payload →
      l.Started payload (fun id handle d => { d with
        filters := d.filters.emplace id ⟨handle, filter_table l.device type⟩ }) t → Q () t)
    (herr : ∀ e t payload, filter_payload l.device type mask pattern flow = .ok payload →
      l.Unstarted (filter_table l.device type) payload id t → E e t) :
    wp (PassThruStartMsgFilter type mask pattern flow) Q E l := by
  rw [PassThruStartMsgFilter, session]
  simp only [wp_bind, wp_read, wp_throw_if, wp_of]
  refine ⟨fun _ => hsame _, fun _ => ⟨fun payload hpayload => ?_, fun _ _ => hsame _⟩⟩
  refine wp_allocate_handle (fun hle => ?_) fun _ => hsame _
  simp only [wp_update, wp_tryCatch, wp_throw, wp_when, wp_bind, wp_output]
  have herr (e : Exception) (t : Locked) := herr e t payload hpayload
  refine wp_channel_command (fun t q body hc hlen _ => ?_) (fun e t hc => ?_) fun e t q hc hu hr => ?_
  · have hlen := hlen (by decide)
    have ht : l.Turned t l.device _ := hc.turned rfl (Nat.le_succ _)
    refine ⟨fun _ hacc => ⟨fun hshort => ?_, fun hlong => ⟨fun handle hhandle => ?_, fun e he => ?_⟩⟩,
      fun e hacc => ?_⟩
    · -- accepted, but too short to carry the handle
      refine wp_uncertain_channel fun u hkept _ hmoved hreopen => ?_
      exact herr _ u (.doubtful _ (ht.trans hkept hmoved) (.inr (.inr hreopen)))
    · rw [le32_of_le (by omega)] at hhandle
      cases hhandle
      have hadds : Exchange.Adds ⟨l.device.channelCommand 0x0d payload 10000 0 none, q, some body⟩ l.device
          payload (le32At body 20) := Exchange.adds_of_accepted (by omega) hacc
      refine wp_room (fun u hkept hu => ?_) fun err u hkept hu => ?_
      · have hregistry := hkept.registry.trans hc.kept.registry
        refine hok _ payload hpayload ⟨⟨_, le32At body 20, ⟨hkept.ref.trans ht.ref, ?_, ?_⟩, hadds⟩, hle,
          ?_, rfl⟩
        · rw [hregistry]
          exact Nat.le_succ _
        · rw [hu]
          exact hc.moved.hold_filter
        · rw [hregistry]
      · -- no room: the entry is taken back, or the channel left uncertain
        have hturned : l.Turned u l.device _ :=
          ⟨hkept.ref.trans ht.ref, hkept.registry ▸ ht.next_handle, hu ▸ ht.moved⟩
        have hprotocol : u.device.protocol = l.device.protocol := by rw [hturned.moved.eq]
        refine wp_remove_entry (fun v r hv hr => ?_) fun err' v o hv _ => ?_
        · exact herr err _ (.removed _ r _ (hturned.trans hv.kept hv.moved) hadds (hr.congr hprotocol))
        · refine wp_uncertain_channel fun w hkept' _ hmoved' hreopen => ?_
          exact herr err w (.doubtful _ ((hturned.trans hv.kept hv.moved).trans hkept' hmoved')
            (.inr (.inr hreopen)))
    · rw [le32_of_le (by omega)] at he
      cases he
    · exact herr e _ (.refused _ ht rfl (Option.some_ne_none body) (Exchange.accepted_of_error hlen hacc))
  · exact herr e t (.doubtful [] (hc.turned rfl (Nat.le_succ _)) (.inl rfl))
  · exact herr e t (.doubtful _ (hc.turned rfl (Nat.le_succ _)) (.inr (.inl hu)))

/-! ## Stop calls and clears -/

/-- A removal or a clear that was not accepted: the maps stay. -/
structure Locked.Failed (l t : Locked) (opcode : Nat) : Prop where
  turned : ∃ o : Option Exchange, l.Turned t l.device o.toList ∧
    ∀ r, o = some r → r.command.opcode = opcode ∧ r.accepted = false ∧
      (r.response = none → ¬ t.device.usable)

theorem Locked.Failed.of_commanded {l t : Locked} {opcode : Nat} {o : Option Exchange}
    (hc : l.Commanded t o.toList)
    (ho : ∀ r, o = some r → r.command.opcode = opcode ∧ r.accepted = false ∧
      (r.response = none → ¬ t.device.usable)) : l.Failed t opcode where
  turned := ⟨o, ⟨hc.kept.ref, by rw [hc.kept.registry], hc.moved⟩, ho⟩

/-- An accepted clear of a table. -/
structure Exchange.Clears (e : Exchange) (d : Device) (table : UInt8) : Prop where
  accepted : e.accepted = true
  command : e.command = d.channelCommand 0x10 [table, 0, 0, 0] 10000 0 none

section stop

variable {l : Locked} {Q : Unit → Locked → Prop} {E : Exception → Locked → Prop}

/-- An entry of the map whose removal the adapter accepts, or does not. -/
theorem wp_PassThruStopPeriodicMsg {id : UInt32} (hsame : ∀ e, E e l)
    (hok : ∀ t r handle, l.device.periodics.lookup id = some handle →
      l.Turned t { l.device with periodics := l.device.periodics.erase id } [r] →
      r.Removes l.device table_periodic handle → Q () t)
    (herr : ∀ e t, l.Failed t 0x0e → E e t) : wp (PassThruStopPeriodicMsg id) Q E l := by
  rw [PassThruStopPeriodicMsg, session]
  simp only [wp_bind, wp_read, wp_throw_if]
  refine ⟨fun _ => hsame _, fun _ => ?_⟩
  split
  · exact (wp_throw _).mpr (hsame _)
  · next handle hlookup =>
      rw [wp_bind]
      refine wp_remove_entry (fun t r hc hr => ?_) fun err t o hc ho => ?_
      · rw [wp_update]
        refine hok _ r handle hlookup ⟨hc.kept.ref, by rw [hc.kept.registry], ?_⟩ hr
        exact ⟨by rw [hc.moved.eq], hc.moved.reopen, hc.moved.usable⟩
      · refine herr err t (.of_commanded hc fun r hr => ?_)
        obtain ⟨hacc, hnone, payload, -, hcmd⟩ := ho r hr
        exact ⟨by rw [hcmd, Device.channelCommand], hacc, hnone⟩

theorem wp_PassThruStopMsgFilter {id : UInt32} (hsame : ∀ e, E e l)
    (hok : ∀ t r f, l.device.filters.lookup id = some f →
      l.Turned t { l.device with filters := l.device.filters.erase id } [r] →
      r.Removes l.device f.table f.handle → Q () t)
    (herr : ∀ e t, l.Failed t 0x0e → E e t) : wp (PassThruStopMsgFilter id) Q E l := by
  rw [PassThruStopMsgFilter, session]
  simp only [wp_bind, wp_read, wp_throw_if]
  refine ⟨fun _ => hsame _, fun _ => ?_⟩
  split
  · exact (wp_throw _).mpr (hsame _)
  · next f hlookup =>
      rw [wp_bind]
      refine wp_remove_entry (fun t r hc hr => ?_) fun err t o hc ho => ?_
      · rw [wp_update]
        refine hok _ r f hlookup ⟨hc.kept.ref, by rw [hc.kept.registry], ?_⟩ hr
        exact ⟨by rw [hc.moved.eq], hc.moved.reopen, hc.moved.usable⟩
      · refine herr err t (.of_commanded hc fun r hr => ?_)
        obtain ⟨hacc, hnone, payload, -, hcmd⟩ := ho r hr
        exact ⟨by rw [hcmd, Device.channelCommand], hacc, hnone⟩

/-- A clear of the wire table empties the map, unless it is not accepted. -/
theorem wp_clear_periodic_table
    (hok : ∀ t e, l.Turned t { l.device with periodics := [], periodic_untracked := false } [e] →
      e.Clears l.device table_periodic → Q () t)
    (herr : ∀ e t, l.Failed t 0x10 → E e t) : wp clear_periodic_table Q E l := by
  rw [clear_periodic_table, wp_bind]
  refine wp_accepted_command (by decide) (fun t e hc he hacc _ => ?_) fun err t o hc ho => ?_
  · rw [wp_update]
    refine hok _ e ⟨hc.kept.ref, by rw [hc.kept.registry], ?_⟩ ⟨hacc, he⟩
    exact ⟨by rw [hc.moved.eq], hc.moved.reopen, hc.moved.usable⟩
  · refine herr err t (.of_commanded hc fun e he => ?_)
    obtain ⟨hcmd, hacc, hnone⟩ := ho e he
    exact ⟨by rw [hcmd, Device.channelCommand], hacc, hnone⟩

/-- One step of the loop that clears the tables of filters. -/
theorem wp_clear_filters_cons {table : UInt8} {tables : List UInt8}
    (hskip : (∀ x ∈ l.device.filters, x.2.table ≠ table) → wp (clear_filters tables) Q E l)
    (hok : ∀ t e, l.Turned t
        { l.device with filters := l.device.filters.filter fun x => x.2.table ≠ table } [e] →
      e.Clears l.device table → wp (clear_filters tables) Q E t)
    (herr : ∀ e t, l.Failed t 0x10 → E e t) : wp (clear_filters (table :: tables)) Q E l := by
  rw [clear_filters]
  simp only [wp_bind, wp_read, wp_when, wp_update]
  refine ⟨fun _ => ?_, fun hnone => hskip fun x hx htable => hnone ?_⟩
  · refine wp_accepted_command (by decide) (fun t e hc he hacc _ => ?_) fun err t o hc ho => ?_
    · refine hok _ e ⟨hc.kept.ref, by rw [hc.kept.registry], ?_⟩ ⟨hacc, he⟩
      exact ⟨by rw [hc.moved.eq], hc.moved.reopen, hc.moved.usable⟩
    · refine herr err t (.of_commanded hc fun e he => ?_)
      obtain ⟨hcmd, hacc, hnone⟩ := ho e he
      exact ⟨by rw [hcmd, Device.channelCommand], hacc, hnone⟩
  · exact List.any_eq_true.mpr ⟨x, hx, by simpa using htable⟩

end stop

end Mongoose
