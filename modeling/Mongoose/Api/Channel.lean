import Mongoose.Api.Calls
import Mongoose.Api.Wire

/-!
# Mongoose.Api.Channel

The calls that open and close a channel, and what holds between calls.

`Locked.Sound` is what a call finds when it takes the lifecycle lock, and leaves:
its device is settled, and the registry knows the channel it has published.
`Locked.Leaves` adds that the channels of other devices stay where they are.
-/

namespace Mongoose

open Prog Lifecycle

/-! ## the registry -/

/-- The channel IDs that are published were allocated, and zero never is. -/
structure Registry.Fresh (r : Registry) : Prop where
  next : 1 ≤ r.next_handle
  allocated : ∀ id ref, r.channels.lookup id = some ref → id ≠ 0 ∧ id.toNat < r.next_handle

namespace Registry.Fresh

variable {r r' : Registry}

/-- An empty registry is in order. -/
theorem empty : ({} : Registry).Fresh where
  next := Nat.le_refl 1
  allocated := fun _ _ h => nomatch h

/-- Fewer channels and more IDs. -/
theorem mono (h : r.Fresh) (hnext : r.next_handle ≤ r'.next_handle)
    (hsub : ∀ id ref, r'.channels.lookup id = some ref → r.channels.lookup id = some ref) :
    r'.Fresh where
  next := Nat.le_trans h.next hnext
  allocated := fun id ref hid =>
    have ⟨hne, hlt⟩ := h.allocated id ref (hsub id ref hid)
    ⟨hne, Nat.lt_of_lt_of_le hlt hnext⟩

/-- The next handle fits its type. -/
theorem toNat_next (hle : r.next_handle ≤ 0xffffffff) :
    (UInt32.ofNat r.next_handle).toNat = r.next_handle := by
  rw [UInt32.toNat_ofNat']
  exact Nat.mod_eq_of_lt (by omega)

/-- And is not 0. -/
theorem next_ne_zero (h : r.Fresh) (hle : r.next_handle ≤ 0xffffffff) :
    UInt32.ofNat r.next_handle ≠ 0 := by
  intro h0
  have h1 := h.next
  have hnat := toNat_next hle
  rw [h0, UInt32.toNat_zero] at hnat
  omega

/-- The next ID is no channel yet. -/
theorem lookup_next (h : r.Fresh) (hle : r.next_handle ≤ 0xffffffff) :
    r.channels.lookup (UInt32.ofNat r.next_handle) = none := by
  cases hid : r.channels.lookup (UInt32.ofNat r.next_handle) with
  | none => rfl
  | some ref =>
      have hlt := (h.allocated _ _ hid).2
      rw [toNat_next hle] at hlt
      omega

/-- The next ID is published. -/
theorem emplace (h : r.Fresh) (hle : r.next_handle ≤ 0xffffffff) (ref : DeviceRef) :
    Registry.Fresh { r with
      next_handle := r.next_handle + 1
      channels := r.channels.emplace (UInt32.ofNat r.next_handle) ref } where
  next := Nat.le_succ_of_le h.next
  allocated := fun id ref' hid => by
    rw [IdMap.lookup_emplace] at hid
    split at hid
    · next heq =>
        subst heq
        exact ⟨h.next_ne_zero hle, by rw [toNat_next hle]; exact Nat.lt_succ_self _⟩
    · have ⟨hne, hlt⟩ := h.allocated id ref' hid
      exact ⟨hne, Nat.lt_succ_of_lt hlt⟩

end Registry.Fresh

/-! ## between calls -/

/-- What a call finds when it takes the lifecycle lock. -/
structure Locked.Sound (l : Locked) : Prop where
  settled : l.device.Settled
  fresh : l.registry.Fresh
  published : l.device.channel ≠ 0 → l.registry.channels.lookup l.device.channel = some l.ref
  listed : ∀ id, l.registry.channels.lookup id = some l.ref →
    l.device.closed = false ∧ l.device.channel = id

/-- What a call leaves: all is sound again, and other devices keep their channels. -/
structure Locked.Leaves (l t : Locked) : Prop where
  sound : t.Sound
  ref : t.ref = l.ref
  others : ∀ id ref, ref ≠ l.ref →
    (t.registry.channels.lookup id = some ref ↔ l.registry.channels.lookup id = some ref)

/-- So the device is neither listed nor closed anew. -/
structure Locked.Stays (l t : Locked) : Prop extends l.Leaves t where
  devices : t.registry.devices = l.registry.devices
  closed : t.device.closed = l.device.closed

namespace Locked

variable {l t : Locked} {F P : Prop}

/-- What does nothing leaves a process sound. -/
theorem Sound.stays (h : l.Sound) : l.Stays l := ⟨⟨h, rfl, fun _ _ _ => Iff.rfl⟩, rfl, rfl⟩

/-- The channels stay, and more IDs may be taken. -/
theorem Sound.kept (h : l.Sound) (href : t.ref = l.ref) (hsettled : t.device.Settled)
    (hchannels : t.registry.channels = l.registry.channels)
    (hnext : l.registry.next_handle ≤ t.registry.next_handle)
    (hchannel : t.device.channel = l.device.channel) (hclosed : t.device.closed = l.device.closed) :
    l.Leaves t where
  sound :=
    { settled := hsettled
      fresh := h.fresh.mono hnext fun id ref hid => hchannels ▸ hid
      published := by
        rw [hchannel, hchannels, href]
        exact h.published
      listed := by
        rw [hchannel, hchannels, href, hclosed]
        exact h.listed }
  ref := href
  others := fun id ref _ => by rw [hchannels]

/-- A call whose exchanges are ordinary. -/
theorem Sound.within (h : l.Sound) (hw : l.Within True F P (Exchange.Ordinary l.device) t) :
    l.Stays t where
  toLeaves := h.kept hw.ref (h.settled.within hw.device) (hw.channels trivial) hw.next_handle
    (hw.device.channel trivial) (hw.device.closed trivial)
  devices := hw.devices trivial
  closed := hw.device.closed trivial

/-- A device that retires its channel. -/
theorem Sound.retired (h : l.Sound) (href : t.ref = l.ref) (hsettled : t.device.Settled)
    (hregistry : t.registry.channels = l.registry.channels.erase l.device.channel)
    (hnext : t.registry.next_handle = l.registry.next_handle) (hchannel : t.device.channel = 0) :
    l.Leaves t where
  sound :=
    { settled := hsettled
      fresh := h.fresh.mono (Nat.le_of_eq hnext.symm) fun id ref hid => by
        rw [hregistry, IdMap.lookup_erase] at hid
        split at hid
        · cases hid
        · exact hid
      published := fun hne => absurd hchannel hne
      listed := fun id hid => by
        rw [hregistry, IdMap.lookup_erase, href] at hid
        split at hid
        · cases hid
        · next hne => exact absurd (h.listed id hid).2.symm hne }
  ref := href
  others := fun id ref hne => by
    rw [hregistry, IdMap.lookup_erase]
    split
    · next hid =>
        subst hid
        refine ⟨fun h => (nomatch h), fun hlookup => absurd ?_ hne⟩
        exact Option.some.inj (hlookup.symm.trans (h.published (h.fresh.allocated _ _ hlookup).1))
    · exact Iff.rfl

/-- A device that publishes the next ID. -/
theorem Sound.published_next (h : l.Sound) (href : t.ref = l.ref) (hsettled : t.device.Settled)
    (hle : l.registry.next_handle ≤ 0xffffffff) (hchannel : l.device.channel = 0)
    (hclosed : t.device.closed = false)
    (hregistry : t.registry = { l.registry with
      next_handle := l.registry.next_handle + 1
      channels := l.registry.channels.emplace (UInt32.ofNat l.registry.next_handle) l.ref })
    (ht : t.device.channel = UInt32.ofNat l.registry.next_handle) : l.Leaves t := by
  have hnext := h.fresh.lookup_next hle
  have hlookup (id : UInt32) : t.registry.channels.lookup id =
      if id = UInt32.ofNat l.registry.next_handle then some l.ref
      else l.registry.channels.lookup id := by
    rw [hregistry, IdMap.lookup_emplace, hnext, Option.getD_none]
  refine ⟨⟨hsettled, hregistry ▸ h.fresh.emplace hle l.ref, fun _ => ?_, fun id hid => ?_⟩, href,
    fun id ref hne => ?_⟩
  · rw [ht, href, hlookup, if_pos rfl]
  · rw [href, hlookup] at hid
    split at hid
    · next heq => exact ⟨hclosed, ht.trans heq.symm⟩
    · have hzero := (h.listed id hid).2
      exact absurd (hchannel.symm.trans hzero) (h.fresh.allocated _ _ hid).1.symm
  · rw [hlookup]
    split
    · next heq =>
        rw [heq, hnext]
        exact ⟨fun h => absurd (Option.some.inj h).symm hne, fun h => (nomatch h)⟩
    · exact Iff.rfl

end Locked

/-! ## clears and closes -/

namespace Device

variable {d d' : Device} {es : List Exchange}

/-- Ordinary commands keep a channel in step with the adapter. -/
theorem Synced.moved (h : d.Synced) (hm : d.Moved d' es) (hes : ∀ e ∈ es, e.Ordinary d) :
    d'.Synced :=
  h.append (by rw [hm.eq]) hes (by rw [hm.eq]) (by rw [hm.eq]) hm.usable

/-- The wire channel goes the way of the last close. -/
structure Closing (d d' : Device) : Prop where
  synced : d'.Synced
  closed : d'.closed = d.closed
  channel : d'.channel = d.channel

/-- A channel goes on closing. -/
theorem Closing.trans {d'' : Device} (h : d.Closing d') (h' : d'.Closing d'') : d.Closing d'' :=
  ⟨h'.synced, h'.closed.trans h.closed, h'.channel.trans h.channel⟩

end Device

theorem Locked.Kept.update {l t : Locked} (h : l.Kept t) (d : Device) :
    l.Kept { t with device := d } :=
  ⟨h.ref, h.registry, h.out⟩

/-- A teardown moves a device and keeps the registry. -/
structure Locked.Closing (l t : Locked) : Prop where
  kept : l.Kept t
  device : l.device.Closing t.device

namespace Locked.Closing

variable {l t u : Locked} {es : List Exchange}

theorem refl (h : l.device.Synced) : l.Closing l := ⟨⟨rfl, rfl, rfl⟩, h, rfl, rfl⟩

theorem trans (h : l.Closing t) (h' : t.Closing u) : l.Closing u :=
  ⟨h.kept.trans h'.kept, h.device.trans h'.device⟩

/-- An ordinary command belongs to the closing of a channel. -/
theorem commanded (h : l.device.Synced) (hc : l.Commanded t es)
    (hes : ∀ e ∈ es, e.Ordinary l.device) : l.Closing t where
  kept := hc.kept
  device := ⟨h.moved hc.moved hes, by rw [hc.moved.eq], by rw [hc.moved.eq]⟩

/-- So do steps of the session. -/
theorem performed {s : Live} {ls : List Label} (h : l.device.Synced)
    (hs : l.device.session.run ls = some s) :
    l.Closing { l with device := { l.device with session := s } } where
  kept := ⟨rfl, rfl, rfl⟩
  device := ⟨h.moved (.of_run hs) (by simp), rfl, rfl⟩

end Locked.Closing

section teardown

variable {l : Locked} {Q : Unit → Locked → Prop} {E : Exception → Locked → Prop}

/-- A close of an open channel closes it, or leaves it open. -/
theorem wp_close_open (h : l.device.Synced) (hopen : l.device.wire_channel_open = true)
    (hok : ∀ t, l.Closing t → t.device.wire_channel_open = false → Q () t)
    (herr : ∀ e t, l.Closing t → t.device.wire_channel_open = true → E e t) :
    wp close_channel Q E l := by
  refine wp_close_channel (fun t e hc he hacc _ => ?_) fun err t o hc ho => ?_
  · refine hok _ ⟨hc.kept.update _, h.closed hopen hc.moved he hacc, ?_, ?_⟩ rfl
    · rw [hc.moved.eq]
    · rw [hc.moved.eq]
  · have hnot : ∀ e, o = some e → e.command = l.device.channelCommand 7 [] 10000 0 none ∧
        e.accepted = false := fun e he => ⟨(ho e he).1, (ho e he).2.1⟩
    refine herr err t ⟨hc.kept, h.not_closed hopen hc.moved hnot, ?_, ?_⟩ ?_
    · rw [hc.moved.eq]
    · rw [hc.moved.eq]
    · rw [hc.moved.eq]
      exact hopen

/-- A clear of an open channel. -/
theorem wp_clear_open {P : Option Exception → Locked → Prop} (h : l.device.Synced)
    (hopen : l.device.wire_channel_open = true)
    (hP : ∀ error t, l.Closing t → t.device.wire_channel_open = true → P error t) :
    wp (attempt clear_periodic_table) P E l := by
  rw [wp_attempt, clear_periodic_table, wp_bind]
  have hmoved {t : Locked} {o : Option Exchange} (hc : l.Commanded t o.toList)
      (ho : ∀ e, o = some e →
        e.command = l.device.channelCommand 0x10 [table_periodic, 0, 0, 0] 10000 0 none) :
      l.Closing t ∧ t.device.wire_channel_open = true := by
    refine ⟨.commanded h hc fun e he => ?_, by rw [hc.moved.eq]; exact hopen⟩
    rw [Exchange.Ordinary, ho e (Option.mem_toList.mp he)]
    simp [Device.channelCommand, hopen]
  refine wp_accepted_command (by decide) (fun t e hc he _ _ => ?_) fun err t o hc ho => ?_
  · obtain ⟨hclosing, hw⟩ := hmoved (o := some e) hc fun _ h => Option.some.inj h ▸ he
    rw [wp_update]
    refine hP _ _ ⟨hclosing.kept.update _, ?_, hclosing.device.closed, hclosing.device.channel⟩ hw
    exact hclosing.device.synced.congr rfl rfl (fun _ => rfl) id
  · obtain ⟨hclosing, hw⟩ := hmoved hc fun e he => (ho e he).1
    exact hP _ _ hclosing hw

end teardown

/-! ## the calls -/

/-- The handler of a failed Connect closes the channel, or leaves the device to be
reopened. -/
theorem wp_connect_failed {l : Locked} {e : Exception} {Q : Unit → Locked → Prop}
    {E : Exception → Locked → Prop} (h : l.device.Synced) (hopen : l.device.wire_channel_open = true)
    (hE : ∀ t, l.Closing t →
      (t.device.wire_channel_open = true → t.device.reopen_required = true) → E e t) :
    wp (do
      perform [.set_can_receiver none]
      let l ← read
      when (¬ l.device.reopen_required)
        (tryCatch close_channel fun _ => update fun d => { d with reopen_required := true })
      throw e) Q E l := by
  rw [wp_bind]
  refine wp_perform fun s hs => ?_
  have hperformed := Locked.Closing.performed h hs
  simp only [wp_bind, wp_read, wp_when, wp_throw, wp_tryCatch, wp_update, not_not]
  refine ⟨fun _ => ?_, fun hreopen => hE _ hperformed fun _ => hreopen⟩
  refine wp_close_open hperformed.device.synced hopen (fun t ht hw => ?_) fun _ t ht _ => ?_
  · exact hE t (hperformed.trans ht) fun ho => by rw [hw] at ho; cases ho
  · have := hperformed.trans ht
    refine hE _ ⟨this.kept.update _, ?_, this.device.closed, this.device.channel⟩ fun _ => rfl
    exact this.device.synced.congr rfl rfl (fun _ => rfl) id

/-- Setting up an open channel publishes it, or leaves it as it was. -/
theorem wp_connect_setup {l : Locked} {id flags : UInt32} {r : ReceiverRef} {Q : Unit → Locked → Prop}
    {E : Exception → Locked → Prop} (h : l.device.Synced) (hopen : l.device.wire_channel_open = true)
    (hQ : ∀ t : Locked, l.device.Closing t.device → t.device.wire_channel_open = true → t.ref = l.ref →
      t.registry = l.registry → Q () { t with
        registry := { t.registry with channels := t.registry.channels.emplace id t.ref }
        device := { t.device with channel := id, channel_flags := flags, receiver := some r }
        out := { t.out with id := id } })
    (hE : ∀ e t, l.Closing t → t.device.wire_channel_open = true → E e t) :
    wp (do
      perform [.set_can_receiver (some r)]
      accepted_command 0x12 [1, 0, 0, 0, 6, 0, 0, 0, 14, 0, 0, 0]
      room
      alter fun l =>
        { l with registry := { l.registry with channels := l.registry.channels.emplace id l.ref } }
      update fun d => { d with channel := id, channel_flags := flags, receiver := some r }
      output fun o => { o with id := id }) Q E l := by
  simp only [wp_bind, wp_alter, wp_update, wp_output]
  refine wp_perform fun s hs => ?_
  have hperformed := Locked.Closing.performed h hs
  have hcommanded {t : Locked} {o : Option Exchange}
      (hc : Locked.Commanded { l with device := { l.device with session := s } } t o.toList)
      (ho : ∀ e, o = some e → e.command.opcode = 0x12) :
      l.Closing t ∧ t.device.wire_channel_open = true := by
    refine ⟨hperformed.trans (.commanded hperformed.device.synced hc fun e he => ?_), ?_⟩
    · exact ordinary_of_opcode 0x12 (ho e (Option.mem_toList.mp he)) (by decide)
    · rw [hc.moved.eq]
      exact hopen
  refine wp_accepted_command (by decide) (fun t e hc he _ _ => ?_) fun err t o hc ho => ?_
  · obtain ⟨hclosing, hw⟩ := hcommanded (o := some e) hc fun x hx => by
      rw [← Option.some.inj hx, he, Device.channelCommand]
    refine wp_room (fun u hkept hu => ?_) fun err u hkept hu => ?_
    · exact hQ u (hu ▸ hclosing.device) (hu ▸ hw) (hkept.ref.trans hclosing.kept.ref)
        (hkept.registry.trans hclosing.kept.registry)
    · exact hE err u ⟨hclosing.kept.trans hkept, hu ▸ hclosing.device⟩ (hu ▸ hw)
  · obtain ⟨hclosing, hw⟩ := hcommanded hc fun e he => by rw [(ho e he).1, Device.channelCommand]
    exact hE err t hclosing hw

/-- What a Connect that throws leaves besides: nothing is published. -/
structure Locked.Unpublished (l t : Locked) : Prop extends l.Stays t where
  out : t.out = l.out
  channels : t.registry.channels = l.registry.channels
  channel : t.device.channel = l.device.channel

/-- What a Connect that does not throw leaves: the next ID is the device's channel. -/
structure Locked.Published (l t : Locked) : Prop extends l.Stays t where
  room : l.registry.next_handle ≤ 0xffffffff
  next_handle : t.registry.next_handle = l.registry.next_handle + 1
  out : t.out.id = UInt32.ofNat l.registry.next_handle
  channel : t.device.channel = UInt32.ofNat l.registry.next_handle
  before : l.device.channel = 0

/-- A channel that was not published, on a device whose ID counter moved on. -/
theorem Locked.Sound.unpublished {l t : Locked} (h : l.Sound) (hchannel : l.device.channel = 0)
    (href : t.ref = l.ref) (hout : t.out = l.out)
    (hregistry : t.registry = { l.registry with next_handle := l.registry.next_handle + 1 })
    (hsynced : t.device.Synced) (ht : t.device.channel = 0)
    (hclosed : t.device.closed = l.device.closed)
    (hreopen : t.device.wire_channel_open = true → t.device.reopen_required = true) :
    l.Unpublished t where
  toLeaves := by
    refine h.kept href ⟨hsynced, fun hne => absurd ht hne, fun _ hw => .inr (hreopen hw)⟩ ?_ ?_
      (ht.trans hchannel.symm) hclosed
    · rw [hregistry]
    · rw [hregistry]
      exact Nat.le_succ _
  devices := by rw [hregistry]
  closed := hclosed
  out := hout
  channels := by rw [hregistry]
  channel := ht.trans hchannel.symm

/-- **Connect opens a channel that is closed, and publishes it or nothing.** -/
theorem wp_PassThruConnect {l : Locked} (h : l.Sound) (hclosed : l.device.closed = false)
    (protocol flags baud : UInt32) :
    wp (PassThruConnect protocol flags baud) (fun _ => l.Published) (fun _ => l.Unpublished) l := by
  have hfail : l.Unpublished l := ⟨h.stays, rfl, rfl, rfl⟩
  rw [PassThruConnect]
  simp only [wp_bind, wp_read, wp_throw_if]
  refine ⟨fun _ => hfail, fun _ => ⟨fun _ => hfail, fun _ => ⟨fun _ => hfail, fun hreopen =>
    ⟨fun _ => hfail, fun huse => ⟨fun _ => hfail, fun hproto => ⟨fun _ => hfail, fun _ =>
      ⟨fun _ => hfail, fun _ => ?_⟩⟩⟩⟩⟩⟩⟩
  have hchannel : l.device.channel = 0 := by
    by_contra hne
    exact huse ⟨by simpa [or_iff_not_imp_left] using hproto, hne⟩
  have hshut : l.device.wire_channel_open = false := by
    by_contra hw
    obtain hne | hr := h.settled.wire hclosed (by simpa using hw)
    · exact hne hchannel
    · exact hreopen hr
  refine wp_allocate_handle (fun hle => ?_) fun _ => hfail
  simp only [wp_update]
  -- the protocol is written first, which the wire channel does not mind while it is closed
  have hready : ({ l.device with
      receivers := l.device.receivers + 1, protocol := protocol } : Device).Synced :=
    h.settled.congr rfl rfl (fun hw => absurd hw (by simp [hshut])) id
  refine wp_accepted_command (by decide) (fun t e hc he hacc _ => ?_) fun err t o hc ho => ?_
  · have hopened := hready.opened hshut hc.moved he hacc
    have hmoved := hc.moved.eq
    rw [wp_tryCatch]
    refine wp_connect_setup hopened rfl (fun u hu hw href hreg => ?_) fun err u hu hw => ?_
    · have hregistry : u.registry =
          { l.registry with next_handle := l.registry.next_handle + 1 } := hreg.trans hc.kept.registry
      have hclosed' : u.device.closed = l.device.closed := by
        refine hu.closed.trans ?_
        rw [hmoved]
      refine ⟨⟨h.published_next (href.trans hc.kept.ref) ?_ hle hchannel ?_ ?_ rfl, ?_, hclosed'⟩, hle, ?_,
        rfl, rfl, hchannel⟩
      · refine ⟨hu.synced.congr rfl rfl (fun _ => rfl) id, fun _ => hw, fun _ _ => .inl ?_⟩
        exact h.fresh.next_ne_zero hle
      · exact hclosed'.trans hclosed
      · rw [hregistry, href]
        simp only [hc.kept.ref]
      · rw [hregistry]
      · rw [hregistry]
    · refine wp_connect_failed hu.device.synced hw fun v hv hreopen => ?_
      have hall := hu.trans hv
      refine h.unpublished hchannel (hall.kept.ref.trans hc.kept.ref) (hall.kept.out.trans hc.kept.out)
        (hall.kept.registry.trans hc.kept.registry) hall.device.synced ?_ ?_ hreopen
      · rw [hall.device.channel, hmoved]
        exact hchannel
      · rw [hall.device.closed, hmoved]
  · have hmoved := hc.moved.eq
    refine h.unpublished hchannel hc.kept.ref hc.kept.out hc.kept.registry
      (hready.not_opened hshut hc.moved ho) ?_ ?_ fun hw => ?_
    · rw [hmoved]
      exact hchannel
    · rw [hmoved]
    · rw [hmoved] at hw
      exact absurd hw (by simp [hshut])

/-- A device whose channel was just retired is ready for its teardown. -/
theorem Device.Synced.retired {d : Device} (h : d.Synced) {s : Live} {ls : List Label}
    (hs : d.session.run ls = some s) :
    ({ d with session := s, receiver := none, filters := [], periodics := [],
              channel := 0 } : Device).Synced :=
  h.congr rfl rfl (fun _ => rfl) (Live.not_usable_of_run hs)

/-- **Disconnect closes the channel on its own node, or leaves the device to be reopened.** -/
theorem wp_PassThruDisconnect {l : Locked} (h : l.Sound) (hopen : l.device.wire_channel_open = true) :
    wp PassThruDisconnect (fun _ t => l.Stays t ∧ t.device.channel = 0)
      (fun _ t => l.Stays t ∧ t.device.channel = 0) l := by
  rw [PassThruDisconnect_eq, wp_bind]
  refine wp_retire_channel fun s ls hs => ?_
  have hretired := h.settled.retired hs
  let r : Locked := { l with
    device := { l.device with
      session := s, receiver := none, filters := [], periodics := [], channel := 0 }
    registry := { l.registry with channels := l.registry.channels.erase l.device.channel } }
  change wp _ _ _ r
  have hleaves {t : Locked} (ht : r.Closing t)
      (hw : t.device.wire_channel_open = true → t.device.reopen_required = true) :
      l.Stays t ∧ t.device.channel = 0 := by
    refine ⟨⟨h.retired ht.kept.ref ⟨ht.device.synced, fun hne => absurd ht.device.channel hne,
      fun _ hopen => .inr (hw hopen)⟩ ?_ ?_ ht.device.channel, ?_, ht.device.closed⟩, ht.device.channel⟩
    · rw [ht.kept.registry]
    · rw [ht.kept.registry]
    · rw [ht.kept.registry]
  have hreopen {t : Locked} (ht : r.Closing t) :
      r.Closing { t with device := { t.device with reopen_required := true } } :=
    ⟨ht.kept.update _, ht.device.synced.congr rfl rfl (fun _ => rfl) id, ht.device.closed,
      ht.device.channel⟩
  have hclose {error : Option Exception} {t : Locked} (ht : r.Closing t)
      (hw : t.device.wire_channel_open = true) :
      wp (end_channel error) (fun _ t => l.Stays t ∧ t.device.channel = 0)
        (fun _ t => l.Stays t ∧ t.device.channel = 0) t := by
    rw [end_channel]
    simp only [wp_bind, wp_tryCatch, wp_update, wp_throw, wp_when, wp_rethrow]
    refine wp_close_open ht.device.synced hw (fun u hu hshut => ?_) fun _ u hu _ =>
      hleaves (hreopen (ht.trans hu)) fun _ => rfl
    have hshut' := hleaves (ht.trans hu) fun ho => absurd ho (by simp [hshut])
    have hafter := hleaves (hreopen (ht.trans hu)) fun _ => rfl
    exact ⟨fun _ => ⟨fun _ => hafter, fun _ _ => hafter⟩,
      fun _ => ⟨fun _ => hshut', fun _ _ => hshut'⟩⟩
  refine wp_clear_if.mpr ⟨fun _ => ?_, fun _ => ?_⟩
  · exact wp_clear_open hretired hopen fun _ _ ht hw => hclose ht hw
  · exact hclose (.refl hretired) hopen

/-- Taking the device off the bus and stopping its session. -/
theorem wp_close_device {l : Locked} {error : Option Exception} {Q : Unit → Locked → Prop}
    {E : Exception → Locked → Prop} (h : l.device.Synced) (hQ : ∀ t, l.Closing t → Q () t)
    (hE : ∀ e t, l.Closing t → E e t) :
    wp (end_device error) Q E l := by
  have hend {error : Option Exception} {t : Locked} (ht : l.Closing t) :
      wp (do
        let error' ← attempt close
        rethrow (error.or error')) Q E t := by
    simp only [wp_bind, wp_attempt, wp_rethrow, close]
    refine wp_perform fun s hs => ?_
    have hstopped := ht.trans (.performed ht.device.synced hs)
    refine wp_transport (fun u hkept hu => ?_) fun _ u hkept hu => ?_
    all_goals
      have hclosing : l.Closing u := ⟨hstopped.kept.trans hkept, hu ▸ hstopped.device⟩
      exact ⟨fun _ => hQ u hclosing, fun e _ => hE e u hclosing⟩
  have hordinary {t : Locked} {es : List Exchange} (hc : l.Commanded t es)
      (hes : ∀ e ∈ es, e.command.opcode = 5) : l.Closing t :=
    .commanded h hc fun e he => ordinary_of_opcode 5 (hes e he) (by decide)
  rw [end_device, wp_bind, wp_attempt, wp_bind]
  refine wp_command (fun t q body hc _ _ => ?_) (fun _ t hc _ => hend (hordinary hc (by simp)))
    fun _ t q hc _ _ => hend (hordinary hc (by simp))
  have ht := hordinary hc (by simp)
  exact (wp_of _).mpr ⟨fun _ _ => hend ht, fun _ _ => hend ht⟩

/-- What a Close leaves: the device is closed and taken off the list. -/
structure Locked.Shuts (l : Locked) (id : UInt32) (t : Locked) : Prop extends l.Leaves t where
  closed : t.device.closed = true
  devices : t.registry.devices = l.registry.devices.erase id

/-- **Close leaves a closed device, which owes nobody anything.** -/
theorem wp_PassThruClose {l : Locked} (h : l.Sound) (id : UInt32) :
    wp (PassThruClose id) (fun _ => l.Shuts id) (fun _ => l.Shuts id) l := by
  rw [PassThruClose_eq]
  simp only [wp_bind, wp_update, wp_alter]
  refine wp_retire_channel fun s ls hs => ?_
  have hsynced : ({ l.device with closed := true } : Device).Synced :=
    h.settled.congr rfl rfl (fun _ => rfl) fun hu => hu
  have hretired := hsynced.retired hs
  let r : Locked := { l with
    device := { l.device with
      session := s, closed := true, receiver := none, filters := [], periodics := [], channel := 0 }
    registry := { l.registry with
      devices := l.registry.devices.erase id
      channels := l.registry.channels.erase l.device.channel } }
  change wp _ _ _ r
  have hleaves {t : Locked} (ht : r.Closing t) : l.Shuts id t := by
    refine ⟨h.retired ht.kept.ref ⟨ht.device.synced, fun hne => absurd ht.device.channel hne,
      fun hopen => ?_⟩ ?_ ?_ ht.device.channel, ht.device.closed, by rw [ht.kept.registry]⟩
    · exact absurd (ht.device.closed.symm.trans hopen) (by simp [r])
    · rw [ht.kept.registry]
    · rw [ht.kept.registry]
  have hend {error : Option Exception} {t : Locked} (ht : r.Closing t) :
      wp (end_device error) (fun _ => l.Shuts id) (fun _ => l.Shuts id) t :=
    wp_close_device ht.device.synced (fun _ hu => hleaves (ht.trans hu))
      fun _ _ hu => hleaves (ht.trans hu)
  have hclose {error : Option Exception} {t : Locked} (ht : r.Closing t) :
      wp (end_wire error) (fun _ => l.Shuts id) (fun _ => l.Shuts id) t := by
    rw [end_wire, wp_bind, wp_read]
    refine (wp_ite _ _ _).mpr ⟨fun hw => ?_, fun _ => ?_⟩
    · rw [wp_bind, wp_attempt]
      exact wp_close_open ht.device.synced hw (fun u hu _ => hend (ht.trans hu))
        fun _ u hu _ => hend (ht.trans hu)
    · rw [wp_bind, wp_pure]
      exact hend ht
  simp only [wp_read]
  refine wp_clear_if.mpr ⟨fun hw => ?_, fun _ => ?_⟩
  · exact wp_clear_open hretired hw.1 fun _ _ ht _ => hclose ht
  · exact hclose (.refl hretired)

/-- What an Open that does not throw leaves: a new ID names the device. -/
structure Locked.Lists (l t : Locked) : Prop extends l.Leaves t where
  closed : t.device.closed = l.device.closed
  fresh : l.registry.next_handle ≤ t.out.id.toNat ∧ t.out.id.toNat < t.registry.next_handle
  devices : t.registry.devices = l.registry.devices.emplace t.out.id l.ref

/-- **Open publishes a device, and no channel.** -/
theorem wp_PassThruOpen {l : Locked} (h : l.Sound) :
    wp PassThruOpen (fun _ => l.Lists) (fun _ => l.Stays) l := by
  have hordinary (opcode : Nat) (hop : opcode ∈ [0x103, 3, 0x109, 5]) (q : Nat)
      (response : Option Bytes) :
      (⟨{ opcode := opcode }, q, response⟩ : Exchange).Ordinary l.device :=
    ordinary_of_opcode opcode rfl (by simp at hop ⊢; omega)
  refine wp_PassThruOpen_within hordinary (fun t id ht hle hlt => ?_) fun _ _ => h.within
  refine ⟨h.kept ht.ref (h.settled.within ht.device) (ht.channels trivial) ht.next_handle
    (ht.device.channel trivial) (ht.device.closed trivial), ht.device.closed trivial, ⟨hle, hlt⟩, ?_⟩
  rw [ht.devices trivial, ht.ref]

/-- The commands within a channel are ordinary. -/
theorem ApiCall.Issues.ordinary {d : Device} {e : Exchange} {c : ApiCall} (h : c.Issues d e.command)
    (hc : c.lifecycle = false) (hopen : c.target.2 = true → d.wire_channel_open = true) :
    e.Ordinary d := by
  cases c with
  | PassThruOpen | PassThruClose | PassThruConnect | PassThruDisconnect => cases hc
  | PassThruReadMsgs | PassThruSetProgrammingVoltage => exact h.elim
  | PassThruWriteMsgs =>
      obtain ⟨payload, budget, known, h⟩ := h
      exact ordinary_of_opcode 8 (by rw [h, Device.channelCommand]) (by decide)
  | PassThruStartPeriodicMsg | PassThruStartMsgFilter =>
      obtain ⟨payload, h⟩ | ⟨table, handle, payload, -, h⟩ := h
      · first
          | exact ordinary_of_opcode 0x0d (by rw [h, Device.channelCommand]) (by decide)
          | exact ordinary_of_opcode 0x0d (by rw [h.2, Device.channelCommand]) (by decide)
      · exact ordinary_of_opcode 0x0e (by rw [h, Device.channelCommand]) (by decide)
  | PassThruStopPeriodicMsg | PassThruStopMsgFilter =>
      obtain ⟨table, handle, payload, -, h⟩ := h
      exact ordinary_of_opcode 0x0e (by rw [h, Device.channelCommand]) (by decide)
  | PassThruReadVersion =>
      obtain ⟨selector, h⟩ := h
      exact ordinary_of_opcode 0xc (by rw [h]) (by decide)
  | PassThruIoctl id ioctl_id input output =>
      rw [Issues] at h
      simp only [target, decide_eq_true_eq] at hopen
      split at h
      · obtain ⟨selector, h⟩ | ⟨-, list, items, -, -, -, item, -, route, payload, -, -, -, h⟩ := h
        · exact ordinary_of_opcode 0xc (by rw [h, Device.channelCommand]) (by decide)
        · exact ordinary_of_opcode 0xb (by rw [h, Device.channelCommand]) (by decide)
      · split at h
        · next hid =>
            have hwire := hopen (by tauto)
            obtain ⟨opcode, hop, selector, h⟩ := h
            simp only [List.mem_cons, List.not_mem_nil, or_false] at hop
            rw [Exchange.Ordinary, h, Device.channelCommand]
            refine ⟨?_, ?_, fun _ => ⟨hwire, rfl⟩⟩
            · dsimp only; omega
            · dsimp only; omega
        · obtain ⟨selector, h⟩ := h
          exact ordinary_of_opcode 0xc (by rw [h]) (by decide)

/-- Every call leaves what it found sound. -/
theorem ApiCall.wp_program {l : Locked} {c : ApiCall} (h : l.Sound) (hclosed : l.device.closed = false)
    (hopen : c.target.2 = true → l.device.wire_channel_open = true) :
    wp c.program (fun _ => l.Leaves) (fun _ => l.Leaves) l := by
  have hkeeps (hc : c.lifecycle = false) : wp c.program (fun _ => l.Leaves) (fun _ => l.Leaves) l := by
    have hleaves {t : Locked} (ht : l.Within True c.LeavesFilters c.LeavesPeriodics
        (fun e => c.Issues l.device e.command) t) : l.Leaves t :=
      (h.within (ht.mono id id id fun _ he => he.ordinary hc hopen)).toLeaves
    exact Triple.call (keeps_program hc) (.refl l) (fun _ _ => hleaves) fun _ _ => hleaves
  cases c with
  | PassThruOpen =>
      exact wp_mono (wp_PassThruOpen h) (fun _ _ ht => ht.toLeaves) fun _ _ ht => ht.toLeaves
  | PassThruClose =>
      exact wp_mono (wp_PassThruClose h _) (fun _ _ ht => ht.toLeaves) fun _ _ ht => ht.toLeaves
  | PassThruConnect =>
      exact wp_mono (wp_PassThruConnect h hclosed _ _ _) (fun _ _ ht => ht.toLeaves)
        fun _ _ ht => ht.toLeaves
  | PassThruDisconnect =>
      exact wp_mono (wp_PassThruDisconnect h (hopen rfl)) (fun _ _ ht => ht.1.toLeaves)
        fun _ _ ht => ht.1.toLeaves
  | _ => exact hkeeps rfl

/-! ## runs -/

namespace Process

variable {p p' : Process} {script : List Turn} {c : ApiCall} {r : Except Exception Unit} {out : Out}

/-- Between calls every device is settled, and the registry lists its channels. -/
structure Sound (p : Process) : Prop where
  settled : ∀ ref, (p.objects ref).Settled
  fresh : p.registry.Fresh
  published : ∀ ref, (p.objects ref).channel ≠ 0 →
    p.registry.channels.lookup (p.objects ref).channel = some ref
  listed : ∀ id ref, p.registry.channels.lookup id = some ref →
    (p.objects ref).closed = false ∧ (p.objects ref).channel = id

/-- An empty process is sound. -/
theorem sound_empty : ({} : Process).Sound where
  settled := fun _ => Device.settled_new
  fresh := .empty
  published := fun _ h => absurd rfl h
  listed := fun _ _ h => nomatch h

/-- What a call sees of a sound process is sound. -/
theorem Sound.view (h : p.Sound) (ref : DeviceRef) (script : List Turn) :
    (p.view ref script).Sound :=
  ⟨h.settled ref, h.fresh, h.published ref, fun id => h.listed id ref⟩

/-- What it leaves of it is, too. -/
theorem Sound.put (h : p.Sound) {ref : DeviceRef} {t : Locked}
    (ht : (p.view ref script).Leaves t) : (p.put ref t).Sound := by
  have href : t.ref = ref := ht.ref
  refine ⟨fun ref' => ?_, ht.sound.fresh, fun ref' hne => ?_, fun id ref' hid => ?_⟩
  all_goals
    by_cases hr : ref' = ref
    · subst hr
      simp only [put_objects_self] at *
      first
        | exact ht.sound.settled
        | exact href ▸ ht.sound.published hne
        | exact ht.sound.listed id (href.symm ▸ hid)
    · rw [put_objects_of_ne hr] at *
      first
        | exact h.settled ref'
        | exact (ht.others _ ref' hr).mpr (h.published ref' hne)
        | exact h.listed id ref' ((ht.others id ref' hr).mp hid)

/-- The channel a call is found on is open on the wire. -/
theorem Sound.open_of_lookup (h : p.Sound) {ref : DeviceRef} {id : UInt32}
    (hlookup : p.lookup id true = .ok ref) : (p.objects ref).wire_channel_open = true := by
  obtain ⟨hid, -, hchannel⟩ := lookup_ok hlookup
  rw [if_pos rfl] at hid
  have hne := (h.fresh.allocated _ _ hid).1
  refine (h.settled ref).channel ?_
  rw [(hchannel rfl).resolve_left hne]
  exact hne

/-- Every call keeps a process sound. -/
theorem Sound.call (h : p.Sound) (hcall : p.call script c = some (r, out, p')) : p'.Sound := by
  obtain ⟨e, -, -, rfl⟩ | ⟨id, rfl, hlocked⟩ | ⟨-, ref, hlookup, hlocked⟩ := call_cases hcall
  · exact h
  · obtain ⟨t, ht, -, rfl⟩ := locked_cases hlocked
    have hm : ({ p with made := p.made + 1 } : Process).Sound := ⟨h.settled, h.fresh, h.published, h.listed⟩
    exact hm.put (wp_end (P := Locked.Leaves _) (wp_mono (wp_PassThruOpen (hm.view p.made script))
      (fun _ _ ht => ht.toLeaves) fun _ _ ht => ht.toLeaves) ht)
  · obtain ⟨t, ht, -, rfl⟩ := locked_cases hlocked
    refine h.put (wp_end (ApiCall.wp_program (h.view ref script) (lookup_ok hlookup).2.1 ?_) ht)
    exact fun hc => h.open_of_lookup (hc ▸ hlookup)

/-- What the transport reports between calls moves one session. -/
theorem Sound.event (h : p.Sound) {ref : DeviceRef} {e : Event} {s : Live}
    (hs : (p.objects ref).session.run [e.label] = some s) :
    (p.put ref { p.view ref [] with device := { p.objects ref with session := s } }).Sound :=
  have hmoved : (p.objects ref).Within True True True (Exchange.Ordinary (p.objects ref))
      { p.objects ref with session := s } := .of_moved (.of_run hs) (by simp) (by simp)
  h.put ((h.view ref []).kept rfl ((h.settled ref).within hmoved) rfl (Nat.le_refl _) rfl rfl)

/-- So does every step. -/
theorem Sound.step (h : p.Sound) {l : Label} (hs : p.step l = some p') : p'.Sound := by
  cases l with
  | call c script =>
      obtain ⟨⟨r, out, t⟩, hcall, rfl⟩ := Option.map_eq_some_iff.mp hs
      exact h.call hcall
  | event ref e =>
      obtain ⟨-, hs⟩ := Option.ite_none_right_eq_some.mp hs
      obtain ⟨s, hrun, rfl⟩ := Option.map_eq_some_iff.mp hs
      exact h.event hrun

/-- Every process that can be reached is sound. -/
theorem sound_run {ls : List Label} (h : Run.run step {} ls = some p) : p.Sound :=
  Run.invariant (fun _ _ _ hm hs => Sound.step hm hs) sound_empty h

/-- A Connect that throws publishes nothing. -/
theorem Sound.connect_error (h : p.Sound) {id protocol flags baud : UInt32} {channel : Bool}
    {e : Exception}
    (hcall : p.call script (.PassThruConnect id protocol flags baud channel) = some (.error e, out, p')) :
    out.id = 0 ∧ p'.registry.channels = p.registry.channels ∧
      ∀ ref, (p'.objects ref).channel = (p.objects ref).channel := by
  obtain ⟨e, -, rfl, rfl⟩ | ⟨_, hc, -⟩ | ⟨-, ref, hlookup, hlocked⟩ := call_cases hcall
  · exact ⟨rfl, rfl, fun _ => rfl⟩
  · cases hc
  · obtain ⟨t, ht, rfl, rfl⟩ := locked_cases hlocked
    have hun := wp_PassThruConnect (h.view ref script) (lookup_ok hlookup).2.1 protocol flags baud _ t ht
    refine ⟨by rw [hun.out]; rfl, hun.channels, fun ref' => ?_⟩
    by_cases hr : ref' = ref
    · rw [hr, put_objects_self]
      exact hun.channel
    · rw [put_objects_of_ne hr]

/-- **A wire channel is opened once at a time and closed on its own node**, the
device of one that may be open says so, and a Connect that throws publishes
nothing. -/
theorem wire_channels {ls : List Label} (h : Run.run step {} ls = some p) :
    (∀ ref, (∀ a o b o' c, (p.objects ref).log = a ++ o :: b ++ o' :: c → o.opens → o'.opens →
          ∃ e ∈ b, e.closes) ∧
      (∀ a e b, (p.objects ref).log = a ++ e :: b →
        e.command.opcode = 7 ∨ e.command.opcode = 0x10 →
          (a.reverse.find? Exchange.opens).map (fun o => o.command.destination) =
            some e.command.destination) ∧
      ((p.objects ref).wire_channel_open = true →
        ((p.objects ref).log.reverse.find? Exchange.opens).map (fun o => o.command.destination) =
          some (channel_node (p.objects ref).protocol.toNat)) ∧
      (MayBeOpen (p.objects ref).log →
        ((p.objects ref).channel ≠ 0 ∧
            p.registry.channels.lookup (p.objects ref).channel = some ref) ∨
          (p.objects ref).reopen_required = true ∨ ¬ (p.objects ref).usable ∨
          (p.objects ref).closed = true)) ∧
    ∀ script id protocol flags baud channel e out p',
      p.call script (.PassThruConnect id protocol flags baud channel) = some (.error e, out, p') →
        out.id = 0 ∧ p'.registry.channels = p.registry.channels ∧
          ∀ ref, (p'.objects ref).channel = (p.objects ref).channel := by
  have hsound := sound_run h
  refine ⟨fun ref => ?_, fun _ _ _ _ _ _ _ _ _ hcall => hsound.connect_error hcall⟩
  have hsettled := hsound.settled ref
  refine ⟨fun a o b o' c hlog ho ho' => wire.exists_closes hsettled.lawful hlog ho ho',
    fun a e b hlog hop => ?_, fun hw => ?_, fun hmay => ?_⟩
  · rw [← wire.node_state]
    exact (hsettled.lawful a e b hlog).2 hop
  · rw [← wire.node_state]
    exact hsettled.node hw
  · obtain hw | hu := hsettled.possible hmay.possible
    · cases hclosed : (p.objects ref).closed with
      | true => simp
      | false =>
          obtain hne | hr := hsettled.wire hclosed hw
          · exact .inl ⟨hne, hsound.published ref hne⟩
          · exact .inr (.inl hr)
    · exact .inr (.inr (.inl hu))

/-- A CAN channel is closed before an ISO15765 one is opened, each on its own node. -/
theorem wire_channels_two :
    ∃ p, Run.run step {} [opening, connecting CAN 4,
        .call (.PassThruDisconnect 2) [.answered 7 (channel_node 5) 6], connecting ISO15765 7,
        .call (.PassThruDisconnect 3) [.answered 7 (channel_node 6) 9]] = some p ∧
      (p.objects 0).log.map (fun e => (e.command.opcode, e.command.destination)) =
        [(0x103, 1), (3, 1), (0x109, 1), (6, 0x501), (0x12, 0x501), (7, 0x501), (6, 0x601),
          (0x12, 0x601), (7, 0x601)] ∧
      ∀ a o b o' c, (p.objects 0).log = a ++ o :: b ++ o' :: c → o.opens → o'.opens →
        ∃ e ∈ b, e.closes := by
  have hlog : (Run.run step {} [opening, connecting CAN 4,
      .call (.PassThruDisconnect 2) [.answered 7 (channel_node 5) 6], connecting ISO15765 7,
      .call (.PassThruDisconnect 3) [.answered 7 (channel_node 6) 9]]).map (fun p =>
        (p.objects 0).log.map fun e => (e.command.opcode, e.command.destination)) =
      some [(0x103, 1), (3, 1), (0x109, 1), (6, 0x501), (0x12, 0x501), (7, 0x501), (6, 0x601),
        (0x12, 0x601), (7, 0x601)] := by
    decide +kernel
  obtain ⟨p, hp, hlog⟩ := Option.map_eq_some_iff.mp hlog
  exact ⟨p, hp, hlog, ((wire_channels hp).1 0).1⟩

end Process

end Mongoose
