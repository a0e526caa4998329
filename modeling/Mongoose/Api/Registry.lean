import Mongoose.Api.Handles

/-!
# Mongoose.Api.Registry

The IDs of the process, over all runs of calls of any number of threads.

A call looks its handle up in the registry, lets the registry go, and takes the
lifecycle lock of the device it found, so others may run in between.  A `Threads`
state keeps what each thread found and every ID that was returned.  A call that is
admitted under the lock finds what a look-up then would find, so it is a
`Process.call`, and what a call does to IDs holds over all runs.
-/

namespace Mongoose

open Prog Lifecycle

/-! ## the two halves of a look-up -/

namespace Process

/-- `lookup` up to where it lets the registry go. -/
def find (p : Process) (id : UInt32) (channel : Bool) : Except Exception DeviceRef :=
  match (if channel then p.registry.channels else p.registry.devices).lookup id with
  | none =>
      throw (if channel then .Error ERR_INVALID_CHANNEL_ID "invalid channel ID"
        else .Error ERR_INVALID_DEVICE_ID "invalid device ID")
  | some ref => pure ref

/-- `LockedDevice`: the check once the lifecycle lock is held. -/
def vet (p : Process) (id : UInt32) (channel : Bool) (ref : DeviceRef) : Except Exception Unit :=
  let channel_id := if channel then id else 0
  if (p.objects ref).closed ∨ (channel_id ≠ 0 ∧ (p.objects ref).channel ≠ channel_id) then
    throw (.Error (if channel_id ≠ 0 then ERR_INVALID_CHANNEL_ID else ERR_INVALID_DEVICE_ID)
      "invalid or closed handle")
  else pure ()

/-- A look-up finds the device and then vets it. -/
theorem lookup_eq (p : Process) (id : UInt32) (channel : Bool) :
    p.lookup id channel = (p.find id channel).bind fun ref => (p.vet id channel ref).map fun _ => ref := by
  rw [lookup, find]
  cases (if channel then p.registry.channels else p.registry.devices).lookup id with
  | none => rfl
  | some ref =>
      simp only [pure, Except.pure, Except.bind, vet]
      rw [apply_ite (Except.map fun _ => ref)]
      rfl

/-- A device that is admitted is open, and a channel its own. -/
theorem vet_ok {p : Process} {id : UInt32} {channel : Bool} {ref : DeviceRef}
    (h : p.vet id channel ref = .ok ()) :
    (p.objects ref).closed = false ∧ (channel = true → id = 0 ∨ (p.objects ref).channel = id) := by
  rw [vet] at h
  by_cases hopen : (p.objects ref).closed ∨ ((if channel then id else 0) ≠ 0 ∧
      (p.objects ref).channel ≠ if channel then id else 0)
  · rw [if_pos hopen] at h
    cases h
  · rw [not_or, Bool.not_eq_true, not_and_or, not_not, not_not] at hopen
    exact ⟨hopen.1, fun hc => by simpa [hc] using hopen.2⟩

end Process

/-! ## threads -/

/-- An ID that was returned, and the device it is of. -/
structure Issue where
  kind : Kind
  id : UInt32
  ref : DeviceRef
  deriving DecidableEq, Repr

abbrev ThreadId := Nat

/-- The process, what each thread has found, and the IDs that were returned. -/
structure Threads where
  process : Process := {}
  found : ThreadId → Option (ApiCall × DeviceRef) := fun _ => none
  issued : List Issue := []

/-- What a thread does, or a device's transport reports. -/
inductive Move
  /-- A call checks its arguments and looks its handle up. -/
  | find (k : ThreadId) (c : ApiCall)
  /-- It takes the lifecycle lock and runs. -/
  | lock (k : ThreadId) (script : List Turn)
  /-- An Open, which looks nothing up. -/
  | opens (id : Bool) (script : List Turn)
  | event (ref : DeviceRef) (e : Event)

/-- How a call ended. -/
structure Returned where
  call : ApiCall
  result : Except Exception Unit
  out : Out

namespace Threads

/-- The ID a call returned. -/
def issue (ref : DeviceRef) (e : Returned) : List Issue :=
  match e.result, e.call.issues with
  | .ok _, some kind => [{ kind := kind, id := e.out.id, ref := ref }]
  | _, _ => []

/-- One move, and the call that ends with it. -/
def move (s : Threads) : Move → Option (Threads × Option Returned)
  | .find k c =>
      if (s.found k).isSome ∨ c.issues = some .device then none
      else match c.checks, s.process.find c.target.1 c.target.2 with
      | .error e, _ => some (s, some { call := c, result := .error e, out := {} })
      | .ok _, .error e => some (s, some { call := c, result := .error e, out := {} })
      | .ok _, .ok ref => some ({ s with found := Function.update s.found k (some (c, ref)) }, none)
  | .lock k script =>
      (s.found k).bind fun f =>
        let s := { s with found := Function.update s.found k none }
        match s.process.vet f.1.target.1 f.1.target.2 f.2 with
        | .error e => some (s, some { call := f.1, result := .error e, out := {} })
        | .ok _ => (s.process.locked f.2 script f.1.program).map fun r =>
            let e : Returned := { call := f.1, result := r.1, out := r.2.1 }
            ({ s with process := r.2.2, issued := s.issued ++ issue f.2 e }, some e)
  | .opens id script =>
      (s.process.call script (.PassThruOpen id)).map fun r =>
        let e : Returned := { call := .PassThruOpen id, result := r.1, out := r.2.1 }
        ({ s with process := r.2.2, issued := s.issued ++ issue s.process.made e }, some e)
  | .event ref e => (s.process.step (.event ref e)).map fun p => ({ s with process := p }, none)

def step (s : Threads) (m : Move) : Option Threads := (s.move m).map Prod.fst

/-- What a move does. -/
inductive Moved (s : Threads) : Move → Threads → Option Returned → Prop
  | refused (k : ThreadId) (c : ApiCall) (e : Exception) :
      c.checks = .error e ∨ s.process.find c.target.1 c.target.2 = .error e →
      s.Moved (.find k c) s (some ⟨c, .error e, {}⟩)
  | found (k : ThreadId) (c : ApiCall) (ref : DeviceRef) :
      c.issues ≠ some .device → c.checks = .ok () →
      s.process.find c.target.1 c.target.2 = .ok ref →
      s.Moved (.find k c) { s with found := Function.update s.found k (some (c, ref)) } none
  | rejected (k : ThreadId) (script : List Turn) (c : ApiCall) (ref : DeviceRef) (e : Exception) :
      s.found k = some (c, ref) → s.process.vet c.target.1 c.target.2 ref = .error e →
      s.Moved (.lock k script) { s with found := Function.update s.found k none }
        (some ⟨c, .error e, {}⟩)
  | ran (k : ThreadId) (script : List Turn) (c : ApiCall) (ref : DeviceRef) (r : Except Exception Unit)
      (out : Out) (p : Process) :
      s.found k = some (c, ref) → s.process.vet c.target.1 c.target.2 ref = .ok () →
      s.process.locked ref script c.program = some (r, out, p) →
      s.Moved (.lock k script)
        { process := p, found := Function.update s.found k none, issued := s.issued ++ issue ref ⟨c, r, out⟩ }
        (some ⟨c, r, out⟩)
  | opened (id : Bool) (script : List Turn) (r : Except Exception Unit) (out : Out) (p : Process) :
      s.process.call script (.PassThruOpen id) = some (r, out, p) →
      s.Moved (.opens id script)
        { s with process := p, issued := s.issued ++ issue s.process.made ⟨.PassThruOpen id, r, out⟩ }
        (some ⟨.PassThruOpen id, r, out⟩)
  | event (ref : DeviceRef) (e : Event) (p : Process) :
      s.process.step (.event ref e) = some p → s.Moved (.event ref e) { s with process := p } none

/-- A move is one of those listed. -/
theorem moved {s t : Threads} {m : Move} {o : Option Returned} (h : s.move m = some (t, o)) :
    s.Moved m t o := by
  cases m with
  | find k c =>
      obtain ⟨hc, h⟩ := Option.ite_none_left_eq_some.mp h
      split at h
      · next e hchecks =>
          cases h
          exact .refused k c e (.inl hchecks)
      · next e _ hfind =>
          cases h
          exact .refused k c e (.inr hfind)
      · next ref hchecks hfind =>
          cases h
          exact .found k c ref (fun hd => hc (.inr hd)) hchecks hfind
  | lock k script =>
      obtain ⟨⟨c, ref⟩, hfound, h⟩ := Option.bind_eq_some_iff.mp h
      dsimp only at h
      split at h
      · next e hvet =>
          cases h
          exact .rejected k script c ref e hfound hvet
      · next hvet =>
          obtain ⟨⟨r, out, p⟩, hlocked, h⟩ := Option.map_eq_some_iff.mp h
          cases h
          exact .ran k script c ref r out p hfound hvet hlocked
  | opens id script =>
      obtain ⟨⟨r, out, p⟩, hcall, h⟩ := Option.map_eq_some_iff.mp h
      cases h
      exact .opened id script r out p hcall
  | event ref e =>
      obtain ⟨p, hs, h⟩ := Option.map_eq_some_iff.mp h
      cases h
      exact .event ref e p hs

end Threads

/-! ## what the registry holds -/

namespace Process

/-- An ID names something of a device. -/
def Holds (p : Process) (ref : DeviceRef) (id : UInt32) : Kind → Prop
  | .device => p.registry.devices.lookup id = some ref
  | .channel => p.registry.channels.lookup id = some ref
  | .filter => ((p.objects ref).filters.lookup id).isSome
  | .periodic => ((p.objects ref).periodics.lookup id).isSome

/-- An ID names something. -/
def Live (p : Process) (id : UInt32) (kind : Kind) : Prop := ∃ ref, p.Holds ref id kind

/-- What is in use was returned, once; and a device is listed until it is closed. -/
structure Registered (p : Process) (issued : List Issue) : Prop where
  nodup : (issued.map Issue.id).Nodup
  range : ∀ i ∈ issued, i.id ≠ 0 ∧ i.id.toNat < p.registry.next_handle
  made : ∀ i ∈ issued, i.ref < p.made
  held : ∀ ref id kind, p.Holds ref id kind → ⟨kind, id, ref⟩ ∈ issued
  devices : ∀ id ref, ⟨.device, id, ref⟩ ∈ issued →
    (p.registry.devices.lookup id = some ref ↔ (p.objects ref).closed = false)
  once : ∀ id id' ref, ⟨.device, id, ref⟩ ∈ issued → ⟨.device, id', ref⟩ ∈ issued → id = id'
  tables : ∀ ref, ∀ e ∈ (p.objects ref).filters, e.2.table ∈ filter_tables
  bare : ∀ ref, (p.objects ref).channel = 0 →
    (p.objects ref).filters = [] ∧ (p.objects ref).periodics = []
  unmade : ∀ ref, p.made ≤ ref → p.objects ref = {}

end Process

/-- The ID of a call that returned one. -/
theorem mem_issue_iff {ref : DeviceRef} {c : ApiCall} {r : Except Exception Unit} {t : Locked} {i : Issue} :
    i ∈ Threads.issue ref ⟨c, r, t.out⟩ ↔ t.Returns c r i.id i.kind ∧ i.ref = ref := by
  obtain ⟨kind, id, ref'⟩ := i
  rw [Threads.issue, Locked.Returns]
  cases r with
  | error e => simp
  | ok a =>
      cases c.issues with
      | none => simp
      | some k =>
          simp only [List.mem_singleton, Issue.mk.injEq, Option.some.injEq, true_and]
          tauto

namespace Process

variable {p : Process} {issued : List Issue}

/-- One ID names one thing. -/
theorem Registered.unique (h : p.Registered issued) {i j : Issue} (hi : i ∈ issued) (hj : j ∈ issued)
    (hid : i.id = j.id) : i = j :=
  List.inj_on_of_nodup_map h.nodup hi hj hid

section put

variable {ref : DeviceRef} {script : List Turn} {c : ApiCall} {r : Except Exception Unit} {t : Locked}

/-- An ID that a call returns is new. -/
theorem new_of_returns (ht : (p.view ref script).Handled c r t) {id : UInt32} {kind : Kind}
    (h : t.Returns c r id kind) :
    p.registry.next_handle ≤ id.toNat ∧ id.toNat < t.registry.next_handle := by
  cases kind with
  | device => exact ht.handle_new id (.inl h)
  | channel => exact ht.handle_new id (.inr h)
  | filter => exact ht.entry_new id (.inl h)
  | periodic => exact ht.entry_new id (.inr h)

/-- What an ID names after a call it named before, or the call returned it. -/
theorem holds_of_put (hsound : p.Sound) (ht : (p.view ref script).Handled c r t) {ref' : DeviceRef}
    {id : UInt32} {kind : Kind} (h : (p.put ref t).Holds ref' id kind) :
    p.Holds ref' id kind ∨ (t.Returns c r id kind ∧ ref' = ref) := by
  have href : t.ref = ref := ht.ref
  cases kind with
  | device => exact ((ht.devices id ref').mp h).imp_left And.left
  | channel =>
      change t.registry.channels.lookup id = some ref' at h
      by_cases hr : ref' = ref
      · subst hr
        have hid := (ht.sound.listed id (href.symm ▸ h)).2
        have hne := (ht.sound.fresh.allocated _ _ h).1
        obtain hsame | hzero | hret := ht.channel
        · have hold : (p.objects ref').channel = id := hsame.symm.trans hid
          exact .inl (hold ▸ hsound.published ref' (hold ▸ hne))
        · exact absurd (hid.symm.trans hzero) hne
        · exact .inr ⟨hid ▸ hret, rfl⟩
      · exact .inl ((ht.others id ref' hr).mp h)
  | filter =>
      by_cases hr : ref' = ref
      · subst hr
        rw [Holds, put_objects_self, IdMap.isSome_lookup_iff] at h
        obtain ⟨f, hf⟩ := h
        obtain hold | ⟨hret, -⟩ := ht.filters _ hf
        · exact .inl (IdMap.isSome_lookup_iff.mpr ⟨f, hold⟩)
        · exact .inr ⟨hret, rfl⟩
      · rw [Holds, put_objects_of_ne hr] at h
        exact .inl h
  | periodic =>
      by_cases hr : ref' = ref
      · subst hr
        rw [Holds, put_objects_self, IdMap.isSome_lookup_iff] at h
        obtain ⟨handle, hh⟩ := h
        obtain hold | hret := ht.periodics _ hh
        · exact .inl (IdMap.isSome_lookup_iff.mpr ⟨handle, hold⟩)
        · exact .inr ⟨hret, rfl⟩
      · rw [Holds, put_objects_of_ne hr] at h
        exact .inl h

/-- A device that was opened stays listed until it is closed. -/
theorem Registered.put_devices (h : p.Registered issued) (ht : (p.view ref script).Handled c r t)
    (hopen : (p.objects ref).closed = false)
    (hclose : ∀ id, c = .PassThruClose id → ⟨.device, id, ref⟩ ∈ issued) {id : UInt32} {ref' : DeviceRef}
    (hi : ⟨.device, id, ref'⟩ ∈ issued) :
    t.registry.devices.lookup id = some ref' ↔ ((p.put ref t).objects ref').closed = false := by
  have hold : ¬ t.Returns c r id .device := fun hret => by
    have hlt : id.toNat < p.registry.next_handle := (h.range _ hi).2
    exact absurd (new_of_returns ht hret).1 (Nat.not_le.mpr hlt)
  rw [ht.devices id ref', or_iff_left fun hret => hold hret.1]
  change (p.registry.devices.lookup id = some ref' ∧ _) ↔ _
  rw [h.devices id ref' hi]
  by_cases hr : ref' = ref
  · subst hr
    rw [put_objects_self, hopen, ← Bool.not_eq_true t.device.closed, ht.closed, not_exists]
    constructor
    · rintro ⟨-, hne⟩ id' rfl
      exact hne (by rw [h.once _ _ _ hi (hclose id' rfl)])
    · exact fun hne => ⟨rfl, hne id⟩
  · rw [put_objects_of_ne hr, and_iff_left]
    rintro rfl
    cases h.unique hi (hclose id rfl) rfl
    exact hr rfl

/-- **A call that handles IDs keeps the registry in order.** -/
theorem Registered.put (h : p.Registered issued) (hsound : p.Sound)
    (ht : (p.view ref script).Handled c r t) (hopen : (p.objects ref).closed = false)
    (hmade : ref < p.made) (hnew : c.issues = some .device → ∀ id, ⟨.device, id, ref⟩ ∉ issued)
    (hclose : ∀ id, c = .PassThruClose id → ⟨.device, id, ref⟩ ∈ issued) :
    (p.put ref t).Registered (issued ++ Threads.issue ref ⟨c, r, t.out⟩) where
  nodup := by
    rw [List.map_append, List.nodup_append]
    refine ⟨h.nodup, ?_, fun a ha b hb hab => ?_⟩
    · rw [Threads.issue]
      split <;> simp
    · obtain ⟨i, hi, rfl⟩ := List.mem_map.mp ha
      obtain ⟨j, hj, rfl⟩ := List.mem_map.mp hb
      have := (h.range i hi).2
      have := (new_of_returns ht (mem_issue_iff.mp hj).1).1
      rw [hab] at *
      omega
  range := fun i hi => by
    obtain hi | hi := List.mem_append.mp hi
    · exact ⟨(h.range i hi).1, Nat.lt_of_lt_of_le (h.range i hi).2 ht.next_handle⟩
    · have hnew := new_of_returns ht (mem_issue_iff.mp hi).1
      have := hsound.fresh.next
      refine ⟨fun h0 => ?_, hnew.2⟩
      rw [h0, UInt32.toNat_zero] at hnew
      omega
  made := fun i hi => by
    obtain hi | hi := List.mem_append.mp hi
    · exact h.made i hi
    · rw [(mem_issue_iff.mp hi).2]
      exact hmade
  held := fun ref' id kind hid => by
    obtain hold | hret := holds_of_put hsound ht hid
    · exact List.mem_append_left _ (h.held ref' id kind hold)
    · exact List.mem_append_right _ (mem_issue_iff.mpr hret)
  devices := fun id ref' hi => by
    obtain hi | hi := List.mem_append.mp hi
    · exact h.put_devices ht hopen hclose hi
    · obtain ⟨hret, rfl⟩ := mem_issue_iff.mp hi
      refine iff_of_true ((ht.devices id ref').mpr (.inr ⟨hret, rfl⟩)) ?_
      rw [put_objects_self, ← Bool.not_eq_true, ht.closed]
      rintro ⟨id', rfl⟩
      exact nomatch hret.2.1
  once := fun id id' ref' hi hi' => by
    have hnone {id id' : UInt32} (hold : ⟨.device, id, ref'⟩ ∈ issued)
        (hlast : ⟨.device, id', ref'⟩ ∈ Threads.issue ref ⟨c, r, t.out⟩) : False := by
      obtain ⟨hret, hr⟩ := mem_issue_iff.mp hlast
      exact hnew hret.2.1 id (hr ▸ hold)
    obtain hi | hi := List.mem_append.mp hi
    all_goals obtain hi' | hi' := List.mem_append.mp hi'
    · exact h.once id id' ref' hi hi'
    · exact (hnone hi hi').elim
    · exact (hnone hi' hi).elim
    · exact (mem_issue_iff.mp hi).1.2.2.trans (mem_issue_iff.mp hi').1.2.2.symm
  tables := fun ref' e he => by
    by_cases hr : ref' = ref
    · subst hr
      rw [put_objects_self] at he
      exact (ht.filters e he).elim (h.tables ref' e) And.right
    · rw [put_objects_of_ne hr] at he
      exact h.tables ref' e he
  bare := fun ref' hc => by
    by_cases hr : ref' = ref
    · subst hr
      rw [put_objects_self] at hc ⊢
      exact ht.bare hc
    · rw [put_objects_of_ne hr] at hc ⊢
      exact h.bare ref' hc
  unmade := fun ref' hge => by
    have hr : ref' ≠ ref := fun hr => by
      rw [hr] at hge
      exact Nat.lt_irrefl _ (Nat.lt_of_lt_of_le hmade hge)
    rw [put_objects_of_ne hr]
    exact h.unmade ref' hge

end put

/-- At first no ID was returned. -/
theorem registered_empty : ({} : Process).Registered [] where
  nodup := List.nodup_nil
  range := fun i hi => (nomatch hi)
  made := fun i hi => (nomatch hi)
  held := fun ref id kind hid => by cases kind <;> cases hid
  devices := fun id ref hi => (nomatch hi)
  once := fun id id' ref hi => (nomatch hi)
  tables := fun ref e he => (nomatch he)
  bare := fun _ _ => ⟨rfl, rfl⟩
  unmade := fun _ _ => rfl

/-- A device ID that is in use was handed out. -/
theorem Registered.devices_lt (h : p.Registered issued) {id : UInt32} {ref : DeviceRef}
    (hid : p.registry.devices.lookup id = some ref) : id.toNat < p.registry.next_handle :=
  (h.range _ (h.held ref id .device hid)).2

/-- A call on the device it finds keeps the registry in order. -/
theorem Registered.locked (h : p.Registered issued) (hsound : p.Sound) (htabled : p.Tabled)
    {ref : DeviceRef} {script : List Turn} {c : ApiCall} {r : Except Exception Unit} {t : Locked}
    (hlookup : p.lookup c.target.1 c.target.2 = .ok ref) (hc : c.issues ≠ some .device)
    (ht : c.program.exec (p.view ref script) = some (r, t)) :
    (p.view ref script).Handled c r t ∧
      (p.put ref t).Registered (issued ++ Threads.issue ref ⟨c, r, t.out⟩) := by
  obtain ⟨hid, hopen, -⟩ := lookup_ok hlookup
  have hhandled : (p.view ref script).Handled c r t :=
    ApiCall.handled (hsound.view ref script) (htabled.view hopen script) hopen (h.tables ref)
      (fun _ _ => h.devices_lt)
      (fun hchannel => ⟨hsound.open_of_lookup (hchannel ▸ hlookup),
        hsound.channel_of_lookup hlookup hchannel⟩) ht
  have hissued : ∃ kind, ⟨kind, c.target.1, ref⟩ ∈ issued := by
    split at hid
    · exact ⟨_, h.held ref _ .channel hid⟩
    · exact ⟨_, h.held ref _ .device hid⟩
  refine ⟨hhandled, h.put hsound hhandled hopen ?_ (fun hd => absurd hd hc) ?_⟩
  · exact hissued.elim fun _ hi => h.made _ hi
  · rintro id rfl
    exact h.held ref id .device hid

/-- So does an Open, on the device it makes. -/
theorem Registered.opened (h : p.Registered issued) (hsound : p.Sound) (htabled : p.Tabled)
    {id : Bool} {script : List Turn} {r : Except Exception Unit} {t : Locked}
    (ht : Mongoose.PassThruOpen.exec (({ p with made := p.made + 1 } : Process).view p.made script) =
      some (r, t)) :
    (({ p with made := p.made + 1 } : Process).view p.made script).Handled (.PassThruOpen id) r t ∧
      (({ p with made := p.made + 1 } : Process).put p.made t).Registered
        (issued ++ Threads.issue p.made ⟨.PassThruOpen id, r, t.out⟩) := by
  let q : Process := { p with made := p.made + 1 }
  have hq : q.Registered issued :=
    { h with
      made := fun i hi => Nat.lt_succ_of_lt (h.made i hi)
      held := fun ref id kind hid => h.held ref id kind (by cases kind <;> exact hid)
      unmade := fun ref hle => h.unmade ref (Nat.le_of_succ_le hle) }
  have hqsound : q.Sound := ⟨hsound.settled, hsound.fresh, hsound.published, hsound.listed⟩
  have hqtabled : q.Tabled := htabled
  have hopen : (q.objects p.made).closed = false := by
    rw [show q.objects p.made = {} from h.unmade _ (Nat.le_refl _)]
  have hhandled : (q.view p.made script).Handled (.PassThruOpen id) r t :=
    ApiCall.handled (hqsound.view _ script) (hqtabled.view hopen script) hopen (hq.tables _)
      (fun _ _ => hq.devices_lt) (fun h => (nomatch h)) ht
  refine ⟨hhandled, hq.put hqsound hhandled hopen (Nat.lt_succ_self _) ?_ nofun⟩
  exact fun _ id hi => Nat.lt_irrefl _ (h.made _ hi)

end Process

/-! ## threads -/

namespace ApiCall

/-- A call takes an ID of a kind. -/
def Uses (c : ApiCall) (id : UInt32) : Kind → Prop
  | .device => c.issues ≠ some .device ∧ c.target = (id, false)
  | .channel => c.target = (id, true)
  | .filter => ∃ channel, c = .PassThruStopMsgFilter channel id
  | .periodic => ∃ channel, c = .PassThruStopPeriodicMsg channel id

end ApiCall

namespace Threads

variable {s t : Threads} {m : Move} {o : Option Returned}

/-- What holds between moves. -/
structure Sound (s : Threads) : Prop where
  process : s.process.Sound
  tabled : s.process.Tabled
  registered : s.process.Registered s.issued
  /-- A handle that a thread found was returned, for the device it found. -/
  found : ∀ k c ref, s.found k = some (c, ref) → c.issues ≠ some .device ∧ c.checks = .ok () ∧
    ⟨if c.target.2 then .channel else .device, c.target.1, ref⟩ ∈ s.issued

theorem sound_empty : ({} : Threads).Sound where
  process := Process.sound_empty
  tabled := Process.tabled_empty
  registered := Process.registered_empty
  found := fun _ _ _ h => (nomatch h)

/-- **A call that is admitted finds what a look-up now would find**, however long ago
it looked. -/
theorem Sound.lookup_of_vet (h : s.Sound) {k : ThreadId} {c : ApiCall} {ref : DeviceRef}
    (hfound : s.found k = some (c, ref)) (hvet : s.process.vet c.target.1 c.target.2 ref = .ok ()) :
    s.process.lookup c.target.1 c.target.2 = .ok ref := by
  obtain ⟨-, -, hissued⟩ := h.found k c ref hfound
  obtain ⟨hopen, hchannel⟩ := Process.vet_ok hvet
  have hfind : s.process.find c.target.1 c.target.2 = .ok ref := by
    rw [Process.find]
    cases htarget : c.target.2 with
    | false =>
        rw [htarget] at hissued
        simp [(h.registered.devices _ _ hissued).mpr hopen, pure, Except.pure]
    | true =>
        rw [htarget] at hissued
        have hne := (h.registered.range _ hissued).1
        have hid := (hchannel htarget).resolve_left hne
        have hpublished := h.process.published ref (hid ▸ hne)
        rw [hid] at hpublished
        simp [hpublished, pure, Except.pure]
  rw [Process.lookup_eq, hfind, Except.bind, hvet]
  rfl

/-- So it is one call of the process. -/
theorem Sound.call_of_locked (h : s.Sound) {k : ThreadId} {c : ApiCall} {ref : DeviceRef}
    {script : List Turn} (hfound : s.found k = some (c, ref))
    (hvet : s.process.vet c.target.1 c.target.2 ref = .ok ()) :
    s.process.call script c = s.process.locked ref script c.program := by
  obtain ⟨hc, hchecks, -⟩ := h.found k c ref hfound
  rw [Process.call_eq (by rintro id rfl; exact hc rfl), hchecks,
    Process.on_ok (h.lookup_of_vet hfound hvet)]

/-- What a call under the lock makes of the process. -/
theorem Sound.ran (h : s.Sound) {k : ThreadId} {c : ApiCall} {ref : DeviceRef} {script : List Turn}
    {r : Except Exception Unit} {out : Out} {p : Process} (hfound : s.found k = some (c, ref))
    (hvet : s.process.vet c.target.1 c.target.2 ref = .ok ())
    (hlocked : s.process.locked ref script c.program = some (r, out, p)) :
    ∃ t, c.program.exec (s.process.view ref script) = some (r, t) ∧ out = t.out ∧
      p = s.process.put ref t ∧ (s.process.view ref script).Handled c r t ∧
      p.Registered (s.issued ++ issue ref ⟨c, r, out⟩) := by
  obtain ⟨t, ht, rfl, rfl⟩ := Process.locked_cases hlocked
  obtain ⟨hhandled, hregistered⟩ := h.registered.locked h.process h.tabled
    (h.lookup_of_vet hfound hvet) (h.found k c ref hfound).1 ht
  exact ⟨t, ht, rfl, rfl, hhandled, hregistered⟩

/-- What an Open makes of it: it throws before it makes a device, or runs on a new one. -/
theorem Sound.opened (h : s.Sound) {id : Bool} {script : List Turn} {r : Except Exception Unit}
    {out : Out} {p : Process} (hcall : s.process.call script (.PassThruOpen id) = some (r, out, p)) :
    (∃ e, r = .error e ∧ p = s.process) ∨
      ∃ t, out = t.out ∧ p = ({ s.process with made := s.process.made + 1 } : Process).put s.process.made t ∧
        (({ s.process with made := s.process.made + 1 } : Process).view s.process.made script).Handled
          (.PassThruOpen id) r t ∧
        p.Registered (s.issued ++ issue s.process.made ⟨.PassThruOpen id, r, out⟩) := by
  obtain ⟨e, he, -, rfl⟩ | ⟨id', -, hlocked⟩ | ⟨hne, -⟩ := Process.call_cases hcall
  · exact .inl ⟨e, he, rfl⟩
  · obtain ⟨t, ht, rfl, rfl⟩ := Process.locked_cases hlocked
    obtain ⟨hhandled, hregistered⟩ := h.registered.opened h.process h.tabled ht
    exact .inr ⟨t, rfl, rfl, hhandled, hregistered⟩
  · exact absurd rfl (hne id)

/-- What the transport reports changes a session, and nothing else. -/
theorem objects_event {p p' : Process} {ref : DeviceRef} {e : Event}
    (hs : p.step (.event ref e) = some p') :
    p'.registry = p.registry ∧ p'.made = p.made ∧ ∀ ref',
      (∃ live, p'.objects ref' = { p.objects ref' with session := live }) ∧
      (p.made ≤ ref' → p'.objects ref' = p.objects ref') := by
  obtain ⟨hlt, hs⟩ := Option.ite_none_right_eq_some.mp hs
  obtain ⟨live, -, rfl⟩ := Option.map_eq_some_iff.mp hs
  refine ⟨rfl, rfl, fun ref' => ?_⟩
  by_cases hr : ref' = ref
  · subst hr
    exact ⟨⟨live, Function.update_self ..⟩, fun hle => absurd hlt (Nat.not_lt.mpr hle)⟩
  · exact ⟨⟨(p.objects ref').session, Function.update_of_ne hr ..⟩, fun _ => Function.update_of_ne hr ..⟩

/-- What happens beside the calls leaves the registry. -/
theorem holds_event {p p' : Process} {ref ref' : DeviceRef} {e : Event} {id : UInt32} {kind : Kind}
    (hs : p.step (.event ref e) = some p') : p'.Holds ref' id kind ↔ p.Holds ref' id kind := by
  obtain ⟨hregistry, -, hobjects⟩ := objects_event hs
  obtain ⟨live, hlive⟩ := (hobjects ref').1
  cases kind <;> simp [Process.Holds, hregistry, hlive]

/-- So it keeps it in order. -/
theorem registered_event {p p' : Process} {issued : List Issue} {ref : DeviceRef} {e : Event}
    (h : p.Registered issued) (hs : p.step (.event ref e) = some p') : p'.Registered issued := by
  obtain ⟨hregistry, hmade, hobjects⟩ := objects_event hs
  have hlive (ref' : DeviceRef) := (hobjects ref').1
  refine ⟨h.nodup, hregistry ▸ h.range, hmade ▸ h.made,
    fun ref' id kind hid => h.held ref' id kind ((holds_event hs).mp hid), fun id ref' hi => ?_, h.once,
    fun ref' => ?_, fun ref' => ?_, fun ref' hle => ?_⟩
  · obtain ⟨live, hlive⟩ := hlive ref'
    rw [hregistry, hlive]
    exact h.devices id ref' hi
  · obtain ⟨live, hlive⟩ := hlive ref'
    rw [hlive]
    exact h.tables ref'
  · obtain ⟨live, hlive⟩ := hlive ref'
    rw [hlive]
    exact h.bare ref'
  · rw [(hobjects ref').2 (hmade ▸ hle)]
    exact h.unmade ref' (hmade ▸ hle)

/-- Every step of the process keeps its registry in order. -/
theorem registered_step {p p' : Process} {issued : List Issue} {l : Process.Label} (h : p.Registered issued)
    (hsound : p.Sound) (htabled : p.Tabled) (hs : p.step l = some p') : ∃ issued', p'.Registered issued' := by
  cases l with
  | call c script =>
      obtain ⟨⟨r, out, q⟩, hcall, rfl⟩ := Option.map_eq_some_iff.mp hs
      obtain ⟨e, -, -, rfl⟩ | ⟨id, rfl, hlocked⟩ | ⟨hne, ref, hlookup, hlocked⟩ := Process.call_cases hcall
      · exact ⟨issued, h⟩
      · obtain ⟨t, ht, -, rfl⟩ := Process.locked_cases hlocked
        exact ⟨issued ++ issue p.made ⟨.PassThruOpen id, r, t.out⟩, (h.opened hsound htabled ht).2⟩
      · obtain ⟨t, ht, -, rfl⟩ := Process.locked_cases hlocked
        refine ⟨_, (h.locked hsound htabled hlookup (fun hc => ?_) ht).2⟩
        cases c with
        | PassThruOpen id => exact hne id rfl
        | _ => cases hc
  | event ref e => exact ⟨issued, registered_event h hs⟩

/-- Every ID that was returned stays so. -/
theorem Moved.issued (h : s.Moved m t o) : s.issued ⊆ t.issued := by
  cases h with
  | ran | opened => exact List.subset_append_left _ _
  | _ => exact List.Subset.refl _

/-- **A move keeps all in order.** -/
theorem Sound.moved (h : s.Sound) (hm : s.Moved m t o) : t.Sound := by
  have hdropped {k k' : ThreadId} {c : ApiCall} {ref : DeviceRef}
      (hk : Function.update s.found k none k' = some (c, ref)) : s.found k' = some (c, ref) := by
    by_cases hkk : k' = k
    · rw [hkk, Function.update_self] at hk
      cases hk
    · rwa [Function.update_of_ne hkk] at hk
  have hgrown {k : ThreadId} {c : ApiCall} {ref : DeviceRef} {issued : List Issue}
      (hk : s.found k = some (c, ref)) : c.issues ≠ some .device ∧ c.checks = .ok () ∧
        ⟨if c.target.2 then .channel else .device, c.target.1, ref⟩ ∈ s.issued ++ issued :=
    (h.found k c ref hk).imp_right fun h => h.imp_right fun h => List.mem_append_left _ h
  cases hm with
  | refused => exact h
  | found k c ref hc hchecks hfind =>
      refine ⟨h.process, h.tabled, h.registered, fun k' c' ref' hk => ?_⟩
      change Function.update s.found k (some (c, ref)) k' = some (c', ref') at hk
      by_cases hkk : k' = k
      · rw [hkk, Function.update_self] at hk
        cases hk
        refine ⟨hc, hchecks, h.registered.held ref _ _ ?_⟩
        rw [Process.find] at hfind
        split at hfind
        · cases hfind
        · next hid =>
            cases hfind
            cases htarget : c.target.2 <;> simpa [htarget, Process.Holds] using hid
      · rw [Function.update_of_ne hkk] at hk
        exact h.found k' c' ref' hk
  | rejected k script c ref e =>
      exact ⟨h.process, h.tabled, h.registered, fun _ _ _ hk => h.found _ _ _ (hdropped hk)⟩
  | ran k script c ref r out p hfound hvet hlocked =>
      have hcall := (h.call_of_locked hfound hvet).trans hlocked
      obtain ⟨u, -, -, -, -, hregistered⟩ := h.ran hfound hvet hlocked
      exact ⟨h.process.call hcall, h.tabled.call h.process hcall, hregistered,
        fun _ _ _ hk => hgrown (hdropped hk)⟩
  | opened id script r out p hcall =>
      refine ⟨h.process.call hcall, h.tabled.call h.process hcall, ?_, fun _ _ _ hk => hgrown hk⟩
      obtain ⟨e, rfl, rfl⟩ | ⟨u, -, -, -, hregistered⟩ := h.opened hcall
      · simpa [issue] using h.registered
      · exact hregistered
  | event ref e p hs =>
      exact ⟨h.process.step hs, h.tabled.step h.process hs, registered_event h.registered hs, h.found⟩

/-! ## the registry between moves -/

/-- The IDs, the devices and the channels of a state. -/
structure InOrder (s : Threads) : Prop where
  /-- No ID is returned twice, and none is zero. -/
  distinct : (s.issued.map Issue.id).Nodup
  nonzero : ∀ i ∈ s.issued, i.id ≠ 0
  /-- A channel is listed as long as an open device has it. -/
  channels : ∀ id ref, s.process.registry.channels.lookup id = some ref ↔
    (s.process.objects ref).closed = false ∧ (s.process.objects ref).channel = id ∧ id ≠ 0
  /-- A device is listed from its Open to its Close. -/
  devices : ∀ id ref, s.process.registry.devices.lookup id = some ref ↔
    ⟨.device, id, ref⟩ ∈ s.issued ∧ (s.process.objects ref).closed = false
  /-- A device has one ID, and no more than one channel. -/
  device_single : ∀ id id' ref, ⟨.device, id, ref⟩ ∈ s.issued → ⟨.device, id', ref⟩ ∈ s.issued → id = id'
  channel_single : ∀ id id' ref, s.process.registry.channels.lookup id = some ref →
    s.process.registry.channels.lookup id' = some ref → id = id'
  /-- What an ID names is of the kind it was returned for. -/
  kinds : ∀ i ∈ s.issued, ∀ kind, s.process.Live i.id kind → kind = i.kind

/-- A sound registry is in order. -/
theorem Sound.inOrder (h : s.Sound) : s.InOrder where
  distinct := h.registered.nodup
  nonzero := fun i hi => (h.registered.range i hi).1
  channels := fun id ref => by
    constructor
    · intro hid
      obtain ⟨hopen, rfl⟩ := h.process.listed id ref hid
      exact ⟨hopen, rfl, (h.process.fresh.allocated _ _ hid).1⟩
    · rintro ⟨-, rfl, hne⟩
      exact h.process.published ref hne
  devices := fun id ref => by
    constructor
    · intro hid
      have hi := h.registered.held ref id .device hid
      exact ⟨hi, (h.registered.devices id ref hi).mp hid⟩
    · rintro ⟨hi, hopen⟩
      exact (h.registered.devices id ref hi).mpr hopen
  device_single := h.registered.once
  channel_single := fun id id' ref hid hid' =>
    (h.process.listed id ref hid).2.symm.trans (h.process.listed id' ref hid').2
  kinds := fun i hi kind hlive => by
    obtain ⟨ref, hid⟩ := hlive
    rw [← h.registered.unique (h.registered.held ref i.id kind hid) hi rfl]

/-! ## what a move does to IDs -/

/-- A call returns a new ID or none, uses live IDs only, and what it ends is dead; and
the dead stay dead. -/
structure Honours (s : Threads) (m : Move) (t : Threads) (o : Option Returned) : Prop where
  /-- A returned ID is new. -/
  new : ∀ e, o = some e → ∀ kind, e.result = .ok () → e.call.issues = some kind →
    e.out.id ≠ 0 ∧ (∀ i ∈ s.issued, i.id ≠ e.out.id) ∧ ∃ ref, ⟨kind, e.out.id, ref⟩ ∈ t.issued
  /-- A call with an ID that names nothing of its kind throws. -/
  rejected : ∀ e, o = some e → ∀ id kind, e.call.Uses id kind → ¬ s.process.Live id kind →
    ∃ x, e.result = .error x
  /-- What was closed, disconnected, stopped or cleared under the lock names nothing. -/
  ended : ∀ k script c ref e, m = .lock k script → s.found k = some (c, ref) →
    s.process.vet c.target.1 c.target.2 ref = .ok () → o = some e →
    ∀ id kind, s.process.Holds ref id kind → c.Ends e.result id kind → ¬ t.process.Live id kind
  /-- And never will. -/
  dead : ∀ i ∈ s.issued, ¬ s.process.Live i.id i.kind → ¬ t.process.Live i.id i.kind

/-- The IDs that name something after a move did so before, or were returned by it. -/
theorem Sound.live_of_moved (h : s.Sound) (hm : s.Moved m t o) {id : UInt32} {kind : Kind}
    (hlive : t.process.Live id kind) :
    s.process.Live id kind ∨ s.process.registry.next_handle ≤ id.toNat := by
  obtain ⟨ref', hid⟩ := hlive
  cases hm with
  | refused | found | rejected => exact .inl ⟨ref', hid⟩
  | ran k script c ref r out p hfound hvet hlocked =>
      obtain ⟨u, -, -, rfl, hhandled, -⟩ := h.ran hfound hvet hlocked
      obtain hold | ⟨hret, -⟩ := Process.holds_of_put h.process hhandled hid
      · exact .inl ⟨ref', hold⟩
      · exact .inr (Process.new_of_returns hhandled hret).1
  | opened id' script r out p hcall =>
      obtain ⟨e, -, rfl⟩ | ⟨u, -, rfl, hhandled, -⟩ := h.opened hcall
      · exact .inl ⟨ref', hid⟩
      · have hsound := h.process
        obtain hold | ⟨hret, -⟩ := Process.holds_of_put
          ⟨hsound.settled, hsound.fresh, hsound.published, hsound.listed⟩ hhandled hid
        · exact .inl ⟨ref', by cases kind <;> exact hold⟩
        · exact .inr (Process.new_of_returns hhandled hret).1
  | event ref e p hs => exact .inl ⟨ref', (holds_event hs).mp hid⟩

/-- What ended on a device is held by no other. -/
theorem Sound.ended (h : s.Sound) {k : ThreadId} {c : ApiCall} {ref : DeviceRef} {script : List Turn}
    {r : Except Exception Unit} {out : Out} {p : Process} (hfound : s.found k = some (c, ref))
    (hvet : s.process.vet c.target.1 c.target.2 ref = .ok ())
    (hlocked : s.process.locked ref script c.program = some (r, out, p)) {id : UInt32} {kind : Kind}
    (hid : s.process.Holds ref id kind) (hends : c.Ends r id kind) : ¬ p.Live id kind := by
  obtain ⟨u, -, -, rfl, hhandled, hregistered⟩ := h.ran hfound hvet hlocked
  have hi : ⟨kind, id, ref⟩ ∈ s.issued := h.registered.held ref id kind hid
  rintro ⟨ref', hid'⟩
  -- a thing that is still held is held by the device that held it
  have hold : ref' = ref := by
    have hi' := hregistered.held ref' id kind hid'
    have := hregistered.unique hi' (List.mem_append_left _ hi) rfl
    cases this
    rfl
  subst hold
  cases kind with
  | device =>
      obtain ⟨-, hne⟩ | ⟨hret, -⟩ := (hhandled.devices id ref').mp hid'
      · exact hne hends
      · have := (Process.new_of_returns hhandled hret).1
        have hlt : id.toNat < s.process.registry.next_handle := (h.registered.range _ hi).2
        exact absurd this (Nat.not_le.mpr hlt)
  | channel =>
      have hzero := hhandled.channel_ended id hends
      have href : u.ref = ref' := hhandled.ref
      have hlisted := (hhandled.sound.listed id (href.symm ▸ hid')).2
      exact (hhandled.sound.fresh.allocated _ _ hid').1 (hlisted.symm.trans hzero)
  | filter =>
      rw [Process.Holds, Process.put_objects_self, hhandled.filter_ended id hends] at hid'
      cases hid'
  | periodic =>
      rw [Process.Holds, Process.put_objects_self, hhandled.periodic_ended id hends] at hid'
      cases hid'

/-- A call that does not throw used what it found. -/
theorem Sound.live_of_uses (h : s.Sound) (hm : s.Moved m t o) {e : Returned} (ho : o = some e)
    (hok : e.result = .ok ()) {id : UInt32} {kind : Kind} (huses : e.call.Uses id kind) :
    s.process.Live id kind := by
  cases hm with
  | refused | rejected =>
      cases ho
      cases hok
  | found | event => cases ho
  | opened id' script r out p hcall =>
      cases ho
      cases kind with
      | device => exact absurd rfl huses.1
      | channel => exact nomatch huses
      | filter | periodic => exact huses.elim fun _ h => nomatch h
  | ran k script c ref r out p hfound hvet hlocked =>
      cases ho
      obtain rfl : r = .ok () := hok
      obtain ⟨hid, hopen, -⟩ := Process.lookup_ok (h.lookup_of_vet hfound hvet)
      obtain ⟨u, hu, -, -, -, -⟩ := h.ran hfound hvet hlocked
      cases kind with
      | device =>
          refine ⟨ref, ?_⟩
          have htarget : c.target = (id, false) := huses.2
          rw [htarget] at hid
          exact hid
      | channel =>
          refine ⟨ref, ?_⟩
          have htarget : c.target = (id, true) := huses
          rw [htarget] at hid
          exact hid
      | filter =>
          obtain ⟨channel, hc⟩ := huses
          obtain rfl : c = .PassThruStopMsgFilter channel id := hc
          exact ⟨ref, wp_StopFilter_held id _ u hu⟩
      | periodic =>
          obtain ⟨channel, hc⟩ := huses
          obtain rfl : c = .PassThruStopPeriodicMsg channel id := hc
          exact ⟨ref, wp_StopPeriodic_held id _ u hu⟩

/-- Every move honours the IDs that were returned. -/
theorem Sound.honours (h : s.Sound) (hm : s.Moved m t o) : s.Honours m t o where
  new := fun e ho kind hok hkind => by
    have ht := h.moved hm
    cases hm with
    | refused | rejected =>
        cases ho
        cases hok
    | found | event => cases ho
    | ran k script c ref r out p hfound hvet hlocked =>
        cases ho
        obtain ⟨u, -, rfl, rfl, hhandled, -⟩ := h.ran hfound hvet hlocked
        have hret : u.Returns c r u.out.id kind := ⟨hok, hkind, rfl⟩
        have hi : ⟨kind, u.out.id, ref⟩ ∈ s.issued ++ issue ref ⟨c, r, u.out⟩ :=
          List.mem_append_right _ (mem_issue_iff.mpr ⟨hret, rfl⟩)
        have hnew := (Process.new_of_returns hhandled hret).1
        refine ⟨(ht.registered.range _ hi).1, fun i hold hid => ?_, ref, hi⟩
        have hlt := (h.registered.range i hold).2
        rw [hid] at hlt
        exact absurd hnew (Nat.not_le.mpr hlt)
    | opened id script r out p hcall =>
        cases ho
        obtain ⟨e, rfl, -⟩ | ⟨u, rfl, rfl, hhandled, -⟩ := h.opened hcall
        · cases hok
        · have hret : u.Returns (.PassThruOpen id) r u.out.id kind := ⟨hok, hkind, rfl⟩
          have hi : ⟨kind, u.out.id, s.process.made⟩ ∈
              s.issued ++ issue s.process.made ⟨.PassThruOpen id, r, u.out⟩ :=
            List.mem_append_right _ (mem_issue_iff.mpr ⟨hret, rfl⟩)
          have hnew := (Process.new_of_returns hhandled hret).1
          refine ⟨(ht.registered.range _ hi).1, fun i hold hid => ?_, _, hi⟩
          have hlt := (h.registered.range i hold).2
          rw [hid] at hlt
          exact absurd hnew (Nat.not_le.mpr hlt)
  rejected := fun e ho id kind huses hdead => by
    cases hr : e.result with
    | error x => exact ⟨x, rfl⟩
    | ok a => exact absurd (h.live_of_uses hm ho hr huses) hdead
  ended := fun k script c ref e hlabel hfound hvet ho id kind hid hends => by
    subst hlabel
    cases hm with
    | rejected _ _ c' ref' x hfound' hvet' =>
        cases hfound.symm.trans hfound'
        cases hvet.symm.trans hvet'
    | ran _ _ c' ref' r out p hfound' hvet' hlocked =>
        cases hfound.symm.trans hfound'
        cases ho
        exact h.ended hfound hvet hlocked hid hends
  dead := fun i hi hdead hlive => by
    obtain hlive | hnew := h.live_of_moved hm hlive
    · exact hdead hlive
    · exact absurd hnew (Nat.not_le.mpr (h.registered.range i hi).2)

/-! ## runs -/

/-- In every run of the threads. -/
theorem sound_run {ms : List Move} (h : Run.run step {} ms = some s) : s.Sound :=
  Run.invariant (fun _ _ _ hs hstep => by
    obtain ⟨⟨t, o⟩, hm, rfl⟩ := Option.map_eq_some_iff.mp hstep
    exact hs.moved (Threads.moved hm)) sound_empty h

/-- **IDs are returned once, name what they were returned for until it ends, and nothing
ever after**, also for a call that looked up before and takes the lock after. -/
theorem handles_in_order {ms : List Move} (h : Run.run step {} ms = some s) :
    s.InOrder ∧ (∀ m t o, s.move m = some (t, o) → s.Honours m t o) ∧
      ∀ ms' t, Run.run step s ms' = some t → ∀ i ∈ s.issued,
        ¬ s.process.Live i.id i.kind → ¬ t.process.Live i.id i.kind := by
  have hsound := sound_run h
  refine ⟨hsound.inOrder, fun m t o hm => hsound.honours (Threads.moved hm), fun ms' t ht i hi hdead => ?_⟩
  have hall : t.Sound ∧ i ∈ t.issued ∧ ¬ t.process.Live i.id i.kind := by
    refine Run.invariant (I := fun u => u.Sound ∧ i ∈ u.issued ∧ ¬ u.process.Live i.id i.kind)
      (fun u m v hu hstep => ?_) ⟨hsound, hi, hdead⟩ ht
    obtain ⟨⟨v, o⟩, hm, rfl⟩ := Option.map_eq_some_iff.mp hstep
    have hm := Threads.moved hm
    exact ⟨hu.1.moved hm, hm.issued hu.2.1, (hu.1.honours hm).dead i hu.2.1 hu.2.2⟩
  exact hall.2.2

/-- A Disconnect of channel 2 comes between the look-up of a Start and its lock: the Start
throws, and 2 names nothing any more. -/
theorem handles_in_order_stale :
    ∃ s, Run.run step {} [.opens true [.transport none, .answered 0x103 1 1, .answered 3 1 2,
        .answered 0x109 1 3, .emplace none], .find 0 (.PassThruConnect 1 CAN 0 500000 true),
        .lock 0 [.answered 6 (channel_node 5) 4, .answered 0x12 (channel_node 5) 5, .emplace none],
        .find 0 (.PassThruStartPeriodicMsg 2 (some Process.hundred) true 100),
        .find 1 (.PassThruDisconnect 2), .lock 1 [.answered 7 (channel_node 5) 6]] = some s ∧
      s.issued = [⟨.device, 1, 0⟩, ⟨.channel, 2, 0⟩] ∧
      (s.move (.lock 0 [])).map (fun r => r.2.map fun e =>
        e.result == .error (.Error ERR_INVALID_CHANNEL_ID "invalid or closed handle")) = some (some true) ∧
      ∀ ms t, Run.run step s ms = some t → ¬ t.process.Live 2 .channel := by
  have heval : (Run.run step {} [.opens true [.transport none, .answered 0x103 1 1, .answered 3 1 2,
      .answered 0x109 1 3, .emplace none], .find 0 (.PassThruConnect 1 CAN 0 500000 true),
      .lock 0 [.answered 6 (channel_node 5) 4, .answered 0x12 (channel_node 5) 5, .emplace none],
      .find 0 (.PassThruStartPeriodicMsg 2 (some Process.hundred) true 100),
      .find 1 (.PassThruDisconnect 2), .lock 1 [.answered 7 (channel_node 5) 6]]).map (fun s =>
        (s.issued, (s.move (.lock 0 [])).map (fun r => r.2.map fun e =>
          e.result == .error (.Error ERR_INVALID_CHANNEL_ID "invalid or closed handle")),
          s.process.registry.channels)) =
      some ([⟨.device, 1, 0⟩, ⟨.channel, 2, 0⟩], some (some true), []) := by
    decide +kernel
  obtain ⟨s, hs, heval⟩ := Option.map_eq_some_iff.mp heval
  simp only [Prod.mk.injEq] at heval
  obtain ⟨hissued, hresult, hchannels⟩ := heval
  refine ⟨s, hs, hissued, hresult, fun ms t ht => ?_⟩
  refine (handles_in_order hs).2.2 ms t ht ⟨.channel, 2, 0⟩ (by rw [hissued]; decide) ?_
  rintro ⟨ref, hid⟩
  rw [Process.Holds, hchannels] at hid
  cases hid

end Threads

end Mongoose
