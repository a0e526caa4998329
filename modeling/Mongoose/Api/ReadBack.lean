import Mongoose.Api.Store

/-!
# Mongoose.Api.ReadBack

GET_CONFIG reads back what SET_CONFIG wrote.

From its Connect on a channel holds, in the cell of each parameter, what was last set there,
or what a new channel holds: LOOPBACK off, and the adapter's value.  Steps that open and
close nothing keep it so, and a get hands it out.
-/

namespace Mongoose

open Prog Lifecycle
open ConfigRoute (Cell)

/-! ## a new channel -/

/-- A program that throws in the end does not return. -/
theorem wp_throws {m : Lifecycle Unit} {Q : Unit → Locked → Prop} {e : Exception} {l : Locked} :
    wp (m >>= fun _ => throw e) Q (fun _ _ => True) l :=
  wp_bind.mpr (wp_mono wp_trivial (fun _ _ _ => (wp_throw e).mpr trivial) fun _ _ _ => trivial)

/-- The receiver of a new channel is one that was not made before. -/
theorem wp_PassThruConnect_receiver (l : Locked) (protocol flags baud : UInt32) :
    wp (PassThruConnect protocol flags baud)
      (fun _ t => t.device.receiver = some (receiver_ref l.device.receivers protocol) ∧
        t.device.protocol = protocol ∧ t.device.channel = t.out.id ∧
        ∀ r, (t.device.receiver_at r).loopback = (l.device.receiver_at r).loopback)
      (fun _ _ => True) l := by
  have hloopback := Locked.enduring_loopback fun q => (l.device.receiver_at q).loopback
  have hconnect : wp (PassThruConnect protocol flags baud)
      (fun _ t => t.device.receiver = some (receiver_ref l.device.receivers protocol) ∧
        t.device.protocol = protocol ∧ t.device.channel = t.out.id) (fun _ _ => True) l := by
    rw [PassThruConnect]
    simp only [wp_bind, wp_read, wp_throw_if, implies_true, true_and]
    intro _ _ _ _ _ _ _
    refine wp_allocate_handle (fun _ => ?_) fun _ => trivial
    rw [wp_update]
    refine wp_accepted_command (by decide) (fun t e ht _ _ _ => ?_) fun _ _ _ _ _ => trivial
    rw [wp_update, wp_tryCatch]
    have hhandler (e : Exception) (t : Locked) : wp (do
        perform [.set_can_receiver none]
        let l ← read
        when (¬ l.device.reopen_required)
          (tryCatch close_channel fun _ => update fun d => { d with reopen_required := true })
        throw e : Lifecycle Unit)
          (fun _ t => t.device.receiver = some (receiver_ref l.device.receivers protocol) ∧
            t.device.protocol = protocol ∧ t.device.channel = t.out.id) (fun _ _ => True) t := by
      rw [wp_bind]
      refine wp_mono wp_trivial (fun _ t _ => ?_) fun _ _ _ => trivial
      rw [wp_bind, wp_read]
      exact wp_throws
    rw [wp_bind]
    refine wp_perform fun s hs => ?_
    rw [wp_bind]
    refine wp_accepted_command (by decide) (fun u e' hu _ _ _ => ?_) fun _ _ _ _ _ => hhandler _ _
    rw [wp_bind]
    refine wp_room (fun v hkept hv => ?_) fun _ _ _ _ => hhandler _ _
    simp only [wp_bind, wp_alter, wp_update, wp_output]
    refine ⟨trivial, ?_, trivial⟩
    rw [hv, hu.moved.eq]
    dsimp only
    rw [ht.moved.eq]
  exact wp_mono (wp_and hconnect (hloopback.keeps_PassThruConnect protocol flags baud l fun _ => rfl))
    (fun _ _ ht => ⟨ht.1.1, ht.1.2.1, ht.1.2.2, ht.2⟩) fun _ _ _ => trivial

/-! ## other calls -/

theorem Locked.reading_receiver (x : Option ReceiverRef) : Locked.Reading fun l => l.device.receiver = x where
  congr h _ _ hr _ _ := hr.trans h
  run h _ _ := h
  taken _ _ _ _ ht := ht

/-- A call that opens, closes and sets nothing assigns nothing. -/
theorem ApiCall.wp_quiet {l : Locked} {c : ApiCall} (r : ReceiverRef) (hc : c.lifecycle = false)
    (hset : c.configures = false) :
    wp c.program (fun _ t => l.device.Assigned r [] t.device)
      (fun _ t => l.device.Assigned r [] t.device) l := by
  have hquiet : ¬ c.configures := by simp [hset]
  have hloopback := (Locked.enduring_loopback fun q => (l.device.receiver_at q).loopback).toReading
  have hkeeps := wp_and (keeps_program hc l (.refl l)) (wp_and
    ((Locked.reading_receiver l.device.receiver).keeps_program hc (fun h => absurd h hquiet) l rfl)
    (hloopback.keeps_program hc (fun h => absurd h hquiet) l fun _ => rfl))
  have hassigned {t : Locked} (hw : l.Within True c.LeavesFilters c.LeavesPeriodics
      (fun e => c.Issues l.device e.command) t) (hreceiver : t.device.receiver = l.device.receiver)
      (hloopback : ∀ q, (t.device.receiver_at q).loopback = (l.device.receiver_at q).loopback) :
      l.device.Assigned r [] t.device := by
    obtain ⟨es, hlog, hes⟩ := hw.device.log
    refine .of_quiet (hw.device.channel trivial) hw.device.protocol hreceiver (hloopback r)
      ⟨es, hlog, fun e he hop => ?_⟩
    obtain ⟨id, list, items, output, rfl, -⟩ := (hes e he).permitted.sets hop
    exact hquiet (by simp [configures])
  exact wp_mono hkeeps (fun _ _ ht => hassigned ht.1 ht.2.1 ht.2.2) fun _ _ ht => hassigned ht.1 ht.2.1 ht.2.2

/-- The entries that a call sets on a channel. -/
def ApiCall.settings (id : UInt32) : ApiCall → List SCONFIG
  | .PassThruIoctl channel ioctl_id (some ⟨n, some items⟩) _ =>
      if channel = id ∧ ioctl_id = SET_CONFIG then items.take n.toNat else []
  | _ => []

theorem ApiCall.settings_eq_nil {id : UInt32} {c : ApiCall}
    (h : c.configures = false ∨ c.target ≠ (id, true)) : c.settings id = [] := by
  rw [settings.eq_def]
  split
  · next channel ioctl_id n items output =>
      refine if_neg ?_
      rintro ⟨rfl, rfl⟩
      obtain h | h := h
      · simp [configures] at h
      · exact h (by simp [target])
  · rfl

/-! ## the process -/

namespace Process

variable {p p' : Process} {ref : DeviceRef} {id : UInt32} {r : ReceiverRef}

def Label.settings (id : UInt32) : Label → List SCONFIG
  | .call c _ => c.settings id
  | .event _ _ => []

/-- A step that opens and closes nothing, and if it is a SET_CONFIG succeeds. -/
def Tunes (p : Process) (l : Label) (p' : Process) : Prop :=
  ∀ c script, l = .call c script → c.lifecycle = false ∧
    (c.configures → ∃ out, p.call script c = some (.ok (), out, p'))

/-- A found channel is its device's. -/
theorem Sound.lookup_iff (h : p.Sound) :
    p.lookup id true = .ok ref ↔ id ≠ 0 ∧ (p.objects ref).channel = id := by
  constructor
  · intro hlookup
    obtain ⟨hid, -, hchannel⟩ := lookup_ok hlookup
    have hne := (h.fresh.allocated _ _ hid).1
    exact ⟨hne, (hchannel rfl).resolve_left hne⟩
  · rintro ⟨hne, rfl⟩
    have hid := h.published ref hne
    simp [lookup, hid, (h.listed _ _ hid).1, pure, Except.pure]

/-- A set that succeeds assigns what its entries say. -/
theorem assigned_of_set (h : p.Sound) (hchannel : (p.objects ref).channel = id)
    (hr : (p.objects ref).receiver = some r) {c : ApiCall} {script : List Turn} {t : Locked}
    (hset : c.configures = true) (hlookup : p.lookup c.target.1 c.target.2 = .ok ref)
    (ht : c.program.exec (p.view ref script) = some (.ok (), t)) :
    (p.objects ref).Assigned r (assignments (p.objects ref).protocol (c.settings id)) t.device := by
  cases c with
  | PassThruIoctl channel ioctl_id input output =>
      obtain rfl : ioctl_id = SET_CONFIG := by simpa [ApiCall.configures] using hset
      obtain rfl : channel = id := (h.lookup_iff.mp hlookup).2.symm.trans hchannel
      rw [ApiCall.program, if_pos (.inr rfl)] at ht
      obtain ⟨n, items, rfl, hvalid, happlied⟩ := wp_config_ioctl_set (l := p.view ref script) hr _ _ ht
      rw [ApiCall.settings, if_pos ⟨rfl, rfl⟩]
      exact .of_applied happlied (storable_assignments hvalid)
  | _ => cases hset

/-- **One step assigns what it sets.** -/
theorem assigned_step (h : p.Sound) (hid : id ≠ 0) (hchannel : (p.objects ref).channel = id)
    (hr : (p.objects ref).receiver = some r) {l : Label} (hs : p.step l = some p') (ht : p.Tunes l p') :
    (p.objects ref).Assigned r (assignments (p.objects ref).protocol (l.settings id)) (p'.objects ref) := by
  have hsame : (p.objects ref).Assigned r [] (p.objects ref) :=
    .of_quiet rfl rfl rfl rfl ⟨[], by simp, by simp⟩
  cases l with
  | event ref' e =>
      obtain ⟨-, hs⟩ := Option.ite_none_right_eq_some.mp hs
      obtain ⟨session, hrun, rfl⟩ := Option.map_eq_some_iff.mp hs
      by_cases href : ref = ref'
      · subst href
        simp only [Function.update_self]
        refine .of_quiet rfl rfl rfl ?_ ⟨[], by simp, by simp⟩
        exact Live.loopback_of_run (by simpa using Label.plain_event e) hrun r
      · simp only [Function.update_of_ne href]
        exact hsame
  | call c script =>
      obtain ⟨hlife, hsets⟩ := ht c script rfl
      obtain ⟨⟨result, out, q⟩, hcall, rfl⟩ := Option.map_eq_some_iff.mp hs
      have hother (hother : c.configures = false ∨ c.target ≠ (id, true)) :
          assignments (p.objects ref).protocol (Label.settings id (.call c script)) = [] := by
        rw [Label.settings, ApiCall.settings_eq_nil hother]
        rfl
      obtain ⟨e, rfl, -, rfl⟩ | ⟨_, rfl, -⟩ | ⟨-, ref', hlookup, hlocked⟩ := call_cases hcall
      · have hquiet : c.configures = false := by
          by_contra hset
          obtain ⟨out', hcall'⟩ := hsets (by simpa using hset)
          cases hcall.symm.trans hcall'
        rw [hother (.inl hquiet)]
        exact hsame
      · cases hlife
      · obtain ⟨t, hexec, -, rfl⟩ := locked_cases hlocked
        by_cases href : ref = ref'
        · subst href
          rw [put_objects_self]
          cases hset : c.configures with
          | false =>
              rw [hother (.inl hset)]
              exact wp_end (P := fun t => (p.objects ref).Assigned r [] t.device)
                (ApiCall.wp_quiet r hlife hset) hexec
          | true =>
              obtain ⟨out', hcall'⟩ := hsets hset
              obtain ⟨rfl, -⟩ := Prod.mk.inj (Option.some.inj (hcall.symm.trans hcall'))
              exact assigned_of_set h hchannel hr hset hlookup hexec
        · have hne : c.target ≠ (id, true) := by
            intro htarget
            rw [htarget] at hlookup
            have hfound := h.lookup_iff.mpr ⟨hid, hchannel⟩
            exact href (Except.ok.inj (hfound.symm.trans hlookup))
          rw [put_objects_of_ne href, hother (.inr hne)]
          exact hsame

/-- **A run assigns what its steps set, in order.** -/
theorem assigned_run {ks : List Label} (h : p.Sound) (hid : id ≠ 0) (hchannel : (p.objects ref).channel = id)
    (hr : (p.objects ref).receiver = some r) (hks : Run.run step p ks = some p')
    (htunes : Run.Along step Tunes p ks) : p'.Sound ∧ (p.objects ref).Assigned r
      (assignments (p.objects ref).protocol (ks.flatMap (Label.settings id))) (p'.objects ref) := by
  induction ks generalizing p with
  | nil =>
      obtain rfl : p = p' := by simpa using hks
      exact ⟨h, .of_quiet rfl rfl rfl rfl ⟨[], by simp, by simp⟩⟩
  | cons l ks ih =>
      obtain ⟨m, hm, hks⟩ := Run.run_cons_iff.mp hks
      obtain ⟨hl, htunes⟩ := htunes m hm
      have hstep := assigned_step h hid hchannel hr hm hl
      obtain ⟨hsound, hrest⟩ :=
        ih (h.step hm) (hstep.channel.trans hchannel) (hstep.receiver.trans hr) hks htunes
      refine ⟨hsound, ?_⟩
      rw [hstep.protocol] at hrest
      rw [List.flatMap_cons, assignments, List.filterMap_append]
      exact hstep.trans hrest

/-- What a new channel holds: LOOPBACK is off, and the rest is the adapter's. -/
def initially (protocol : UInt32) (a : Store) : Cell → UInt32
  | .loopback => 0
  | .firmware selector => a (channel_node protocol.toNat) selector.toNat

/-- A Connect that succeeds opens a channel with a new receiver. -/
theorem connected {ls : List Label} {q : Process} {dev protocol flags baud : UInt32} {channel : Bool}
    {script : List Turn} {out : Out} (hp : Run.run step {} ls = some p)
    (hdevice : p.lookup dev false = .ok ref)
    (hconnect : p.call script (.PassThruConnect dev protocol flags baud channel) = some (.ok (), out, q)) :
    q.Sound ∧ out.id ≠ 0 ∧ (q.objects ref).channel = out.id ∧ (q.objects ref).protocol = protocol ∧
      ∃ r, (q.objects ref).receiver = some r ∧ (q.objects ref).settings r = initially protocol := by
  have hsound := sound_run hp
  refine ⟨hsound.call hconnect, ?_⟩
  obtain ⟨e, he, -⟩ | ⟨ref', hlookup, hlocked⟩ := on_cases (by rwa [call] at hconnect)
  · cases he
  obtain rfl := Except.ok.inj (hdevice.symm.trans hlookup)
  obtain ⟨t, ht, rfl, rfl⟩ := locked_cases hlocked
  have hpublished :=
    wp_PassThruConnect (hsound.view ref script) (lookup_ok hdevice).2.1 protocol flags baud _ _ ht
  obtain ⟨hreceiver, hprotocol, hchannel, hloopback⟩ :=
    wp_PassThruConnect_receiver _ protocol flags baud _ _ ht
  rw [put_objects_self]
  refine ⟨?_, hchannel, hprotocol, _, hreceiver, ?_⟩
  · rw [hpublished.out]
    exact hsound.fresh.next_ne_zero hpublished.room
  · funext a cell
    cases cell with
    | firmware selector => simp [Device.settings, initially, hprotocol]
    | loopback =>
        have hfresh := (tuned_run hp ref).fresh (receiver_ref (p.objects ref).receivers protocol)
          (Nat.le_of_eq (receiver_ref_div _ _).symm)
        simp only [Device.settings, initially, hloopback]
        exact if_neg (by simpa [view] using hfresh)

/-- The two IDs of the pad byte. -/
def pad_bytes : List UInt32 := [cfg_iso15765_pad_value, cfg_dt_iso15765_pad_byte]

theorem cell_eq_iff_of_mem : ∀ x ∈ can_table ++ iso_table, ∀ y ∈ can_table ++ iso_table,
    x.2.cell = y.2.cell ↔ x.1 = y.1 ∨ x.1 ∈ pad_bytes ∧ y.1 ∈ pad_bytes := by
  decide +kernel

/-- Two parameters of a channel share a cell if they are one, or the two IDs of the pad byte. -/
theorem cell_eq_iff {protocol parameter parameter' : UInt32} {route route' : ConfigRoute}
    (h : config_route protocol parameter = .ok route) (h' : config_route protocol parameter' = .ok route') :
    route.cell = route'.cell ↔
      parameter = parameter' ∨ parameter ∈ pad_bytes ∧ parameter' ∈ pad_bytes :=
  cell_eq_iff_of_mem _ (config_route_mem h) _ (config_route_mem h')

/-- **GET_CONFIG reads back what SET_CONFIG wrote.**  After a Connect and any steps whose sets
succeed, against an adapter that stores and answers, a get of readable entries hands out for
each what was last set in its cell, or what a new channel holds there.  It fails only at an
entry of the firmware's whose command is not sent in the turn that the script has for it, or
is left without an answer; so it returns when all its commands are sent and answered. -/
theorem get_config_reads_back {ls ks : List Label} {q q' t : Process}
    {dev protocol flags baud n : UInt32} {channel : Bool} {script script' : List Turn} {out out' : Out}
    {items : List SCONFIG} {result : Except Exception Unit} {a b : Store} {es : List Exchange}
    (hp : Run.run step {} ls = some p) (hdevice : p.lookup dev false = .ok ref)
    (hconnect : p.call script (.PassThruConnect dev protocol flags baud channel) = some (.ok (), out, q))
    (hks : Run.run step q ks = some q') (htunes : Run.Along step Tunes q ks)
    (hready : (q'.objects ref).reopen_required = false)
    (hn : 1 ≤ n) (hn' : n ≤ 50) (hlen : n.toNat ≤ items.length)
    (hread : ∀ x ∈ items.take n.toNat, ∃ route, config_route protocol x.Parameter = .ok route)
    (hget : q'.call script' (.PassThruIoctl out.id GET_CONFIG (some ⟨n, some items⟩) false) =
      some (result, out', t))
    (hlog : (t.objects ref).log = (q.objects ref).log ++ es) (hserves : Store.Serves a es b) :
    let set := assignments protocol (ks.flatMap (Label.settings out.id))
    let value cell := (Assign.last set cell).getD (initially protocol a cell)
    ((result = .ok () ∧ out'.values = (cells protocol (items.take n.toNat)).map value) ∨
      ∃ e done x rest route o es' cmd, result = .error e ∧ items.take n.toNat = done ++ x :: rest ∧
        out'.values = (cells protocol done).map value ∧
        (t.objects ref).log = (q'.objects ref).log ++ es' ++ o.toList ∧
        es'.map Exchange.command = (cells protocol done).filterMap (q'.objects ref).get_command ∧
        config_route protocol x.Parameter = .ok route ∧
        (q'.objects ref).get_command route.cell = some cmd ∧
        Turn.Commands script'[((cells protocol done).filterMap (q'.objects ref).get_command).length]?
          o.isSome ∧
        ∀ x, o = some x → x.command = cmd ∧ x.response = none) ∧
    ((∀ now steps, Turn.command now steps ∈ script' → steps.any Step.sends = true) →
      (∀ x ∈ (t.objects ref).log.drop (q'.objects ref).log.length, x.response ≠ none) →
        result = .ok ()) ∧
    ∀ parameter parameter' route route', config_route protocol parameter = .ok route →
      config_route protocol parameter' = .ok route' → (route.cell = route'.cell ↔
        parameter = parameter' ∨ parameter ∈ pad_bytes ∧ parameter' ∈ pad_bytes) := by
  obtain ⟨hsound, hid, hchannel, hprotocol, r, hreceiver, hinitially⟩ := connected hp hdevice hconnect
  obtain ⟨hsound', hassigned⟩ := assigned_run hsound hid hchannel hreceiver hks htunes
  rw [hprotocol] at hassigned
  obtain ⟨es₁, hlog₁, hstored⟩ := hassigned.stored
  have hprotocol' : (q'.objects ref).protocol = protocol := hassigned.protocol.trans hprotocol
  have hlocked : q'.locked ref script' (config_ioctl GET_CONFIG (some ⟨n, some items⟩) false) =
      some (result, out', t) := by
    rw [call, if_pos (.inl rfl)] at hget
    exact (on_ok (hsound'.lookup_iff.mpr ⟨hid, hassigned.channel.trans hchannel⟩)).symm.trans hget
  obtain ⟨u, hu, rfl, rfl⟩ := locked_cases hlocked
  have hput : (q'.put ref u).objects ref = u.device := put_objects_self u
  have hwp : wp (config_ioctl GET_CONFIG (some ⟨n, some items⟩) false) _ _ (q'.view ref script') :=
    wp_config_ioctl hready hn hn' hlen (fun h => absurd h (by decide)) fun _ =>
      wp_config_items_get (hassigned.receiver.trans hreceiver) (by simpa [view, hprotocol'] using hread)
  -- what the adapter serves, before the get and in it
  have hvalues {done : List Cell} {o : Option Exchange} (hreads : (q'.view ref script').Reads r done o u) :
      u.out.values = done.map (fun cell => (Assign.last (assignments protocol
        (ks.flatMap (Label.settings out.id))) cell).getD (initially protocol a cell)) ∧
      ∃ es', u.device.log = (q'.objects ref).log ++ es' ++ o.toList ∧
        es'.map Exchange.command = done.filterMap (q'.objects ref).get_command ∧
        ∃ c, Store.Serves c o.toList b := by
    obtain ⟨es₂, vs, hlog₂, hvs, hes₂, hserves₂⟩ := hreads.read
    have hes : es = es₁ ++ es₂ ++ o.toList := by
      rw [hput, hlog₂] at hlog
      change (q'.objects ref).log ++ es₂ ++ o.toList = _ at hlog
      rw [hlog₁] at hlog
      simpa using hlog.symm
    rw [hes] at hserves
    obtain ⟨c, hserves, ho⟩ := Store.serves_append_iff.mp hserves
    obtain ⟨c₁, hc₁, hc⟩ := Store.serves_append_iff.mp hserves
    obtain ⟨-, rfl⟩ := hserves₂ c₁ c hc
    refine ⟨?_, es₂, hlog₂, hes₂, c, ho⟩
    rw [hvs]
    change [] ++ done.map ((q'.objects ref).settings r c₁) = _
    rw [hstored a c₁ hc₁, hinitially, List.nil_append]
    exact List.map_congr_left fun cell _ => Assign.apply_eq
  refine (and_iff_left_of_imp fun hends =>
    ⟨fun hsent hanswered => ?_, fun _ _ _ _ => cell_eq_iff⟩).mpr ?_
  swap
  · obtain ⟨hok, -⟩ | ⟨e, done, x, rest, route, o, es', cmd, -, -, -, hlog', -, -, -, hturn, ho⟩ := hends
    · exact hok
    · obtain ⟨now, steps, hturn, hsends⟩ := hturn
      have hsome := hsends.mpr (hsent now steps (List.mem_of_getElem? hturn))
      obtain ⟨x, rfl⟩ := Option.isSome_iff_exists.mp hsome
      refine absurd (ho x rfl).2 (hanswered x ?_)
      rw [hlog', List.append_assoc, List.drop_left]
      simp
  rw [hput]
  cases result with
  | ok =>
      have hreads : (q'.view ref script').Reads r (cells protocol (items.take n.toNat)) none u := by
        rw [← hprotocol']
        exact hwp _ _ hu
      exact .inl ⟨rfl, (hvalues hreads).1⟩
  | error e =>
      obtain ⟨done, x, rest, route, o, hitems, hroute, hreads, cmd, hcmd, hturn, ho⟩ := hwp _ _ hu
      rw [show (q'.view ref script').device.protocol = protocol from hprotocol'] at hroute hreads hturn
      obtain ⟨hvalues, es', hlog', hes', c, hc⟩ := hvalues hreads
      refine .inr ⟨e, done, x, rest, route, o, es', cmd, rfl, hitems, hvalues, hlog', hes', hroute, hcmd,
        hturn, fun x hx => ?_⟩
      subst hx
      obtain ⟨c', hstep, -⟩ := Store.serves_cons_iff.mp hc
      exact ⟨(ho x rfl).1, (ho x rfl).2 _ _ hstep⟩

/-- A Connect of an ISO15765 channel on device 1, which is channel 2. -/
def joining (p : Process) : Option End :=
  p.call [.answered 6 (channel_node ISO15765.toNat) 4, .answered 0x12 (channel_node ISO15765.toNat) 5,
    .emplace none]
    (.PassThruConnect 1 ISO15765 0 500000 true)

/-- The pad byte of channel 2, set under one of its IDs. -/
def padding : ApiCall :=
  .PassThruIoctl 2 SET_CONFIG (some ⟨1, some [⟨cfg_dt_iso15765_pad_byte, 0xaa⟩]⟩) false

def padded (p : Process) : Option End := p.call [.answered 0xb (channel_node ISO15765.toNat) 6] padding

/-- And read under the other. -/
def peeking (p : Process) : Option End :=
  p.call [.answered 0xc (channel_node ISO15765.toNat) 7 0 (bytes32 0x22 ++ bytes32 0xaa)]
    (.PassThruIoctl 2 GET_CONFIG (some ⟨1, some [⟨cfg_iso15765_pad_value, 0⟩]⟩) false)

/-- An adapter that holds 7 everywhere, once it has stored 0xaa under the pad byte's selector. -/
theorem serves_padding {es : List Exchange}
    (h : es.map (fun e => ((e.command.opcode, e.command.destination), e.command.payload, e.response)) =
      [((0xb, 1537), [0x22, 0, 0, 0, 0xaa, 0, 0, 0],
          some [0, 0, 1, 6, 11, 128, 6, 0, 0, 0, 0, 0, 0, 0, 0, 0, 0, 0, 0, 0]),
        ((0xc, 1537), [0x22, 0, 0, 0],
          some [0, 0, 1, 6, 12, 128, 7, 0, 0, 0, 0, 0, 0, 0, 0, 0, 0, 0, 0, 0, 0x22, 0, 0, 0,
            0xaa, 0, 0, 0])]) :
    ∃ b, Store.Serves (fun _ _ => 7) es b := by
  obtain ⟨set, es, rfl, hset, h⟩ := List.map_eq_cons_iff.mp h
  obtain ⟨get, es, rfl, hget, h⟩ := List.map_eq_cons_iff.mp h
  obtain rfl := List.map_eq_nil_iff.mp h
  simp only [Prod.mk.injEq] at hset hget
  obtain ⟨⟨hset, hnode⟩, hpayload, hresponse⟩ := hset
  obtain ⟨⟨hget, hnode'⟩, hpayload', hresponse'⟩ := hget
  have hother (a : Store) : a.exec get.command = a := by simp [Store.exec, hget]
  refine ⟨_, .cons ⟨.inr ⟨rfl, .inl ?_⟩, fun h => ?_⟩
    (.cons ⟨.inr ⟨rfl, .inl ?_⟩, fun _ body hbody => ?_⟩ (.nil _))⟩
  · simp [Exchange.accepted, hresponse, le32At, le16At]
  · rw [hset] at h
    cases h
  · simp [Exchange.accepted, hresponse', le32At, le16At]
  · obtain rfl := Option.some.inj (hresponse'.symm.trans hbody)
    simp [Store.Answers, Store.exec, hset, hnode, hnode', hpayload, hpayload', le32At, le16At]

theorem get_config_reads_back_padding :
    ∃ (p q q' t : Process) (out set out' : Out), Run.run step {} [opening] = some p ∧
      joining p = some (.ok (), out, q) ∧ padded q = some (.ok (), set, q') ∧
      peeking q' = some (.ok (), out', t) ∧ out'.values = [0xaa] := by
  have hopen : (Run.run step {} [opening]).map (fun p => (p.lookup 1 false).toOption) = some (some 0) := by
    decide +kernel
  have hjoin : ((Run.run step {} [opening]).bind joining).map (fun x => (x.1.toOption, x.2.1.id)) =
      some (some (), 2) := by
    decide +kernel
  have hpad : (((Run.run step {} [opening]).bind joining).bind fun x => padded x.2.2).map
      (fun x => (x.1.toOption, (x.2.2.objects 0).reopen_required)) = some (some (), false) := by
    decide +kernel
  have hpeek : (((Run.run step {} [opening]).bind joining).bind fun x =>
      ((padded x.2.2).bind fun y => peeking y.2.2).bind fun y => y.1.toOption.map fun _ =>
        ((y.2.2.objects 0).log.drop (x.2.2.objects 0).log.length).map fun e =>
          ((e.command.opcode, e.command.destination), e.command.payload, e.response)) =
      some [((0xb, 1537), [0x22, 0, 0, 0, 0xaa, 0, 0, 0],
          some [0, 0, 1, 6, 11, 128, 6, 0, 0, 0, 0, 0, 0, 0, 0, 0, 0, 0, 0, 0]),
        ((0xc, 1537), [0x22, 0, 0, 0],
          some [0, 0, 1, 6, 12, 128, 7, 0, 0, 0, 0, 0, 0, 0, 0, 0, 0, 0, 0, 0, 0x22, 0, 0, 0,
            0xaa, 0, 0, 0])] := by
    decide +kernel
  obtain ⟨p, hp, hdevice⟩ := Option.map_eq_some_iff.mp hopen
  rw [hp, Option.bind_some] at hjoin hpad hpeek
  obtain ⟨⟨r, out, q⟩, hq, hjoin⟩ := Option.map_eq_some_iff.mp hjoin
  rw [hq, Option.bind_some] at hpad hpeek
  obtain ⟨⟨r', set, q'⟩, hq', hpad⟩ := Option.map_eq_some_iff.mp hpad
  rw [hq', Option.bind_some] at hpeek
  obtain ⟨⟨r'', out', t⟩, ht, hpeek⟩ := Option.bind_eq_some_iff.mp hpeek
  simp only [Prod.mk.injEq] at hjoin hpad
  obtain ⟨hr, hid⟩ := hjoin
  obtain ⟨hr', hready⟩ := hpad
  obtain ⟨u, hr'', hes⟩ := Option.map_eq_some_iff.mp hpeek
  have hok {x : Except Exception Unit} {u : Unit} (h : x.toOption = some u) : x = .ok () := by
    cases x with
    | error e => cases h
    | ok v => rfl
  obtain rfl := hok hr
  obtain rfl := hok hr'
  obtain rfl := hok hr''
  have hlookup : p.lookup 1 false = .ok 0 := by
    cases h : p.lookup 1 false with
    | error e => simp [h, Except.toOption] at hdevice
    | ok ref => simpa [h, Except.toOption] using hdevice
  have hpadded : q.step (.call padding [.answered 0xb (channel_node ISO15765.toNat) 6]) = some q' :=
    Option.map_eq_some_iff.mpr ⟨_, hq', rfl⟩
  obtain ⟨es, hlog⟩ := log_grows hpadded 0
  obtain ⟨es', hlog'⟩ := log_grows (l := .call _ _) (Option.map_eq_some_iff.mpr ⟨_, ht, rfl⟩) 0
  rw [hlog, List.append_assoc] at hlog'
  change (t.objects 0).log = _ at hlog'
  change ((t.objects 0).log.drop (q.objects 0).log.length).map _ = _ at hes
  rw [hlog', List.drop_left] at hes
  obtain ⟨b, hserves⟩ := serves_padding hes
  have hks := Run.run_cons_iff.mpr ⟨q', hpadded, Run.run_nil⟩
  have htunes : Run.Along step Tunes q [.call padding [.answered 0xb (channel_node ISO15765.toNat) 6]] := by
    refine fun m hm => ⟨fun c script hc => ?_, trivial⟩
    cases hc
    obtain rfl := Option.some.inj (hpadded.symm.trans hm)
    exact ⟨rfl, fun _ => ⟨set, hq'⟩⟩
  have hread : ∀ x ∈ [(⟨cfg_iso15765_pad_value, 0⟩ : SCONFIG)].take (1 : UInt32).toNat,
      ∃ route, config_route ISO15765 x.Parameter = .ok route := by
    intro x hx
    cases List.mem_singleton.mp hx
    exact ⟨_, rfl⟩
  have hget : q'.call [.answered 0xc (channel_node ISO15765.toNat) 7 0 (bytes32 0x22 ++ bytes32 0xaa)]
      (.PassThruIoctl out.id GET_CONFIG (some ⟨1, some [⟨cfg_iso15765_pad_value, 0⟩]⟩) false) =
        some (.ok (), out', t) := by
    rw [hid]
    exact ht
  obtain ⟨⟨-, hvalues⟩ | ⟨e, _, _, _, _, _, _, _, he, -⟩, -⟩ :=
    get_config_reads_back hp hlookup hq hks htunes hready (by decide) (by decide) (by decide) hread hget
      hlog' hserves
  · refine ⟨p, q, q', t, out, set, out', hp, hq, hq', ht, hvalues.trans ?_⟩
    rw [hid]
    rfl
  · cases he

end Process

end Mongoose
