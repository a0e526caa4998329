import Mongoose.Api.Mirrored

/-!
# Mongoose.Api.Held

The periodic messages the adapter may be running.

`held` reads them off a device's log: an add that was not definitely refused is
held until an accepted removal of its handle, an accepted clear of its table, or a
new channel.  `Device.Tracked` says that the device knows of all of them, and the
calls within a channel keep it so.
-/

namespace Mongoose

open Prog Lifecycle

namespace Exchange

variable (e : Exchange)

/-- An accepted clear of the periodic table. -/
def clearsPeriodic : Bool :=
  e.command.opcode = 0x10 && e.command.table = some table_periodic && e.accepted

/-- An accepted removal from it. -/
def removesPeriodic : Bool :=
  e.command.opcode = 0x0e && e.command.table = some table_periodic && e.accepted

/-- An entry for it that was not definitely refused. -/
def mayAddPeriodic : Bool := decide e.AddsPeriodic && (e.accepted || e.response.isNone)

end Exchange

/-! ## what the adapter may hold -/

/-- What an exchange makes of the entries the adapter may hold. -/
def held_step (s : List Exchange) (e : Exchange) : List Exchange :=
  if e.opens || e.clearsPeriodic then []
  else if e.removesPeriodic then s.filter fun x => x.handle ≠ some e.command.handle
  else if e.mayAddPeriodic then s ++ [e]
  else s

/-- The adds whose entries the adapter may hold after a log. -/
def held (log : List Exchange) : List Exchange := log.foldl held_step []

section held

variable {log es : List Exchange} {e x : Exchange}

/-- The log goes on. -/
theorem held_append : held (log ++ es) = es.foldl held_step (held log) := List.foldl_append

/-- One more exchange. -/
theorem held_concat : held (log ++ [e]) = held_step (held log) e := by
  rw [held_append]
  rfl

/-- What is held was held before, or was just added. -/
theorem mem_held_step {s : List Exchange} (h : x ∈ held_step s e) :
    x ∈ s ∨ (x = e ∧ e.AddsPeriodic) := by
  rw [held_step] at h
  split_ifs at h with hclear hremove hadd
  · cases h
  · exact .inl (List.mem_filter.mp h).1
  · obtain h | h := List.mem_append.mp h
    · exact .inl h
    · simp only [Exchange.mayAddPeriodic, Bool.and_eq_true, decide_eq_true_eq] at hadd
      exact .inr ⟨List.mem_singleton.mp h, hadd.1⟩
  · exact .inl h

/-- Exchanges that add nothing leave nothing new. -/
theorem held_subset (h : ∀ e ∈ es, ¬ e.AddsPeriodic) : held (log ++ es) ⊆ held log := by
  induction es using List.reverseRecOn with
  | nil => simp
  | append_singleton es e ih =>
      rw [← List.append_assoc, held_concat]
      intro x hx
      obtain hx | ⟨-, hadd⟩ := mem_held_step hx
      · exact ih (fun y hy => h y (List.mem_append_left _ hy)) hx
      · exact absurd hadd (h e (List.mem_append_right _ List.mem_cons_self))

/-- An exchange that was not accepted and adds nothing changes nothing. -/
theorem held_step_refused {s : List Exchange} (hacc : e.accepted = false)
    (hadd : ¬ e.AddsPeriodic ∨ e.response ≠ none) : held_step s e = s := by
  have hmay : e.mayAddPeriodic = false := by
    obtain hadd | hresp := hadd
    · simp [Exchange.mayAddPeriodic, hadd]
    · simp [Exchange.mayAddPeriodic, hacc, Option.isSome_iff_ne_none.mpr hresp]
  simp [held_step, Exchange.opens, Exchange.clearsPeriodic, Exchange.removesPeriodic, hacc, hmay]

/-- A clear leaves nothing. -/
theorem held_step_clears {s : List Exchange} (h : e.clearsPeriodic) : held_step s e = [] := by
  simp [held_step, h]

/-- Nor does an open. -/
theorem held_step_opens {s : List Exchange} (h : e.opens) : held_step s e = [] := by
  simp [held_step, h]

/-- A removal takes the entry with its handle. -/
theorem held_step_removes {s : List Exchange} (h : e.removesPeriodic) :
    held_step s e = s.filter fun x => x.handle ≠ some e.command.handle := by
  have hop : e.command.opcode = 0x0e := by
    simp only [Exchange.removesPeriodic, Bool.and_eq_true, decide_eq_true_eq] at h
    exact h.1.1
  simp [held_step, Exchange.opens, Exchange.clearsPeriodic, hop, h]

/-- A channel that was opened in a stretch without adds holds nothing. -/
theorem held_of_opened (h : ∀ e ∈ es, ¬ e.AddsPeriodic) (hshut : (wire.state log).isOpen = false)
    (hopen : (wire.state (log ++ es)).isOpen = true) : held (log ++ es) = [] := by
  induction es using List.reverseRecOn with
  | nil => simp [hshut] at hopen
  | append_singleton es e ih =>
      have hes := fun y hy => h y (List.mem_append_left _ hy)
      have hadd := h e (List.mem_append_right _ List.mem_cons_self)
      rw [← List.append_assoc] at hopen ⊢
      rw [held_concat]
      cases ho : e.opens with
      | true => exact held_step_opens ho
      | false =>
          have hbefore : (wire.state (log ++ es)).isOpen = true := by
            rw [Monitor.state_concat] at hopen
            change (ite _ _ (ite _ _ (ite _ _ _)) : Wire).isOpen = true at hopen
            rw [if_neg (by simp [ho])] at hopen
            split_ifs at hopen <;> exact hopen
          rw [List.eq_nil_iff_forall_not_mem]
          intro x hx
          obtain hx | ⟨-, h⟩ := mem_held_step hx
          · rw [ih hes hbefore] at hx
            cases hx
          · exact hadd h

end held

/-! ## what the device knows -/

/-- The device may have lost track, or holds the handle of every entry. -/
def Device.Tracked (d : Device) : Prop :=
  d.periodic_untracked = true ∨
    ∀ e ∈ held d.log, ∃ id handle, e.handle = some handle ∧ d.periodics.lookup id = some handle

namespace Device.Tracked

variable {d d' : Device} {l t : Locked} {es : List Exchange} {handle : Nat}

/-- Nothing is held. -/
theorem of_nil (h : held d.log = []) : d.Tracked := .inr fun e he => by rw [h] at he; cases he

/-- No more is held, and the maps stay. -/
theorem of_subset (h : d.Tracked) (hsub : held d'.log ⊆ held d.log)
    (hperiodics : d'.periodics = d.periodics)
    (huntracked : d'.periodic_untracked = d.periodic_untracked) : d'.Tracked := by
  rw [Device.Tracked, hperiodics, huntracked]
  exact h.imp_right fun h e he => h e (hsub he)

/-- A call that adds nothing. -/
theorem within {C F : Prop} {ok : Exchange → Prop} (h : d.Tracked) (hw : d.Within C F True ok d')
    (hok : ∀ e, ok e → ¬ e.AddsPeriodic) : d'.Tracked := by
  obtain ⟨es, hlog, hes⟩ := hw.log
  obtain ⟨hperiodics, huntracked⟩ := hw.periodics trivial
  refine h.of_subset ?_ hperiodics huntracked
  rw [hlog]
  exact held_subset fun e he => hok e (hes e he)

/-- Some of what is held goes, and the map stays. -/
theorem of_turned (h : l.device.Tracked) (ht : l.Turned t l.device es)
    (hsub : held (l.device.log ++ es) ⊆ held l.device.log) : t.device.Tracked := by
  have hlog : t.device.log = l.device.log ++ es := by rw [ht.moved.eq]
  exact h.of_subset (hlog ▸ hsub) (by rw [ht.moved.eq]) (by rw [ht.moved.eq])

/-- A removal or a clear that was not accepted. -/
theorem failed {opcode : Nat} (h : l.device.Tracked) (ht : l.Failed t opcode) (hop : opcode ≠ 0x0d) :
    t.device.Tracked := by
  obtain ⟨o, ht, ho⟩ := ht.turned
  refine h.of_turned ht (held_subset fun e he hadd => hop ?_)
  rw [← (ho e (Option.mem_toList.mp he)).1]
  exact hadd.1

end Device.Tracked

section calls

variable {l t : Locked} {payload : Bytes} {handle : Nat}

/-- A removal from the periodic table is one of its handle. -/
theorem Exchange.Removes.removesPeriodic {r : Exchange} {d : Device}
    (h : r.Removes d table_periodic handle) (hlt : handle < 2 ^ 32) :
    r.removesPeriodic = true ∧ r.command.handle = handle := by
  obtain ⟨hacc, payload, hp, hcmd⟩ := h
  obtain ⟨hhead, hhandle⟩ := remove_payload_ok hlt hp
  constructor
  · simp [Exchange.removesPeriodic, hcmd, Device.channelCommand, Command.table, hhead, hacc]
  · rw [hcmd]
    exact hhandle

/-- What was added is held. -/
theorem Exchange.Adds.held_step {e : Exchange} {d : Device} (h : e.Adds d payload handle)
    (hhead : payload.head? = some table_periodic) (s : List Exchange) :
    Mongoose.held_step s e = s ++ [e] := by
  have hop : e.command.opcode = 0x0d := by rw [h.command, Device.channelCommand]
  have htable : e.command.payload.head? = some table_periodic := by
    rw [h.command]
    exact hhead
  simp [Mongoose.held_step, Exchange.opens, Exchange.clearsPeriodic, Exchange.removesPeriodic,
    Exchange.mayAddPeriodic, Exchange.AddsPeriodic, hop, htable, h.accepted]

/-- A Start that ends without an entry. -/
theorem Device.Tracked.unstarted (h : l.device.Tracked) (hhead : payload.head? = some table_periodic)
    (ht : l.Unstarted table_periodic payload (fun d => { d with periodic_untracked := true }) t) :
    t.device.Tracked := by
  cases ht with
  | unsent ht => exact h.of_turned ht (by simp)
  | doubtful es ht _ => exact .inl (by rw [ht.moved.eq])
  | refused e ht hcmd hresp hacc =>
      refine h.of_turned ht ?_
      rw [held_concat, held_step_refused hacc (.inr hresp)]
      exact List.Subset.refl _
  | removed e r handle ht he hr =>
      refine h.of_turned ht ?_
      obtain ⟨hremoves, hhandle⟩ := hr.removesPeriodic he.handle_lt
      rw [held_append, List.foldl_cons, List.foldl_cons, List.foldl_nil, he.held_step hhead,
        held_step_removes hremoves, hhandle, List.filter_append]
      simp [he.handle]

/-- A new entry is held under a new ID. -/
theorem Device.Tracked.started (h : l.device.Tracked) (hmaps : l.device.Maps l.registry.next_handle)
    (hhead : payload.head? = some table_periodic)
    (ht : l.Started payload
      (fun id handle d => { d with periodics := d.periodics.emplace id handle }) t) :
    t.device.Tracked := by
  have hnone := (hmaps.lookup_next ht.room).2
  obtain ⟨e, handle, ht, he⟩ := ht.added
  have huntracked : t.device.periodic_untracked = l.device.periodic_untracked := by rw [ht.moved.eq]
  have hperiodics : t.device.periodics =
      l.device.periodics.emplace (UInt32.ofNat l.registry.next_handle) handle := by rw [ht.moved.eq]
  have hlog : t.device.log = l.device.log ++ [e] := by rw [ht.moved.eq]
  rw [Device.Tracked, huntracked, hperiodics, hlog, held_concat, he.held_step hhead]
  refine h.imp_right fun h x hx => ?_
  obtain hx | hx := List.mem_append.mp hx
  · obtain ⟨id, hid, hx, hlookup⟩ := h x hx
    refine ⟨id, hid, hx, ?_⟩
    rw [IdMap.lookup_emplace, if_neg]
    · exact hlookup
    · rintro rfl
      rw [hnone] at hlookup
      cases hlookup
  · refine ⟨UInt32.ofNat l.registry.next_handle, handle, ?_, ?_⟩
    · rw [List.mem_singleton.mp hx]
      exact he.handle
    · rw [IdMap.lookup_emplace, if_pos rfl, hnone, Option.getD_none]

/-- A removed entry is held no more. -/
theorem Device.Tracked.stopped {id : UInt32} {r : Exchange} (h : l.device.Tracked)
    (hmaps : l.device.Maps l.registry.next_handle)
    (hlookup : l.device.periodics.lookup id = some handle)
    (ht : l.Turned t { l.device with periodics := l.device.periodics.erase id } [r])
    (hr : r.Removes l.device table_periodic handle) : t.device.Tracked := by
  obtain ⟨hremoves, hhandle⟩ := hr.removesPeriodic (hmaps.periodic _ _ hlookup).2
  have huntracked : t.device.periodic_untracked = l.device.periodic_untracked := by rw [ht.moved.eq]
  have hperiodics : t.device.periodics = l.device.periodics.erase id := by rw [ht.moved.eq]
  have hlog : t.device.log = l.device.log ++ [r] := by rw [ht.moved.eq]
  rw [Device.Tracked, huntracked, hperiodics, hlog, held_concat, held_step_removes hremoves, hhandle]
  refine h.imp_right fun h x hx => ?_
  obtain ⟨hx, hne⟩ := List.mem_filter.mp hx
  obtain ⟨id', handle', hx', hlookup'⟩ := h x hx
  refine ⟨id', handle', hx', ?_⟩
  rw [IdMap.lookup_erase, if_neg]
  · exact hlookup'
  · rintro rfl
    rw [hlookup] at hlookup'
    cases hlookup'
    simp [hx'] at hne

/-- A clear of the periodic table is one. -/
theorem Exchange.Clears.clearsPeriodic {e : Exchange} {d : Device} (h : e.Clears d table_periodic) :
    e.clearsPeriodic = true := by
  simp [Exchange.clearsPeriodic, h.command, h.accepted, Device.channelCommand, Command.table]

/-- Nothing is held after a clear. -/
theorem Device.Tracked.cleared {d : Device} {e : Exchange} (ht : l.Turned t d [e])
    (hlog : d.log = l.device.log) (he : e.Clears l.device table_periodic) : t.device.Tracked := by
  refine .of_nil ?_
  have hlog' : t.device.log = l.device.log ++ [e] := by rw [ht.moved.eq, hlog]
  rw [hlog', held_concat, held_step_clears he.clearsPeriodic]

/-- Only a Start of a periodic message adds one. -/
theorem ApiCall.Issues.not_addsPeriodic {d : Device} {e : Exchange} {c : ApiCall}
    (h : c.Issues d e.command) (hc : ∀ channel message id interval,
      c ≠ .PassThruStartPeriodicMsg channel message id interval) : ¬ e.AddsPeriodic := by
  intro hadd
  have hop := h.opcode_mem
  rw [hadd.1] at hop
  cases c with
  | PassThruStartPeriodicMsg => exact hc _ _ _ _ rfl
  | PassThruStartMsgFilter =>
      obtain ⟨payload, hhead, h⟩ | ⟨table, handle, payload, -, h⟩ := h
      · have htable := hadd.2
        rw [h] at htable
        exact hhead htable
      · have h0d := hadd.1
        rw [h] at h0d
        cases h0d
  | _ => simp [opcodes] at hop

/-- Every call within a channel keeps track of the periodic messages. -/
theorem ApiCall.wp_tracked {c : ApiCall} (h : l.device.Tracked)
    (hmaps : l.device.Maps l.registry.next_handle) (hc : c.lifecycle = false) :
    wp c.program (fun _ t => t.device.Tracked) (fun _ t => t.device.Tracked) l := by
  have hkeeps (hleaves : c.LeavesPeriodics) (hstart : ∀ channel message id interval,
      c ≠ .PassThruStartPeriodicMsg channel message id interval) :
      wp c.program (fun _ t => t.device.Tracked) (fun _ t => t.device.Tracked) l := by
    have hwithin {t : Locked} (ht : l.Within True c.LeavesFilters c.LeavesPeriodics
        (fun e => c.Issues l.device e.command) t) : t.device.Tracked :=
      h.within (ht.device.mono id id (fun _ => hleaves) fun _ => id) fun e he => he.not_addsPeriodic hstart
    exact Triple.call (keeps_program hc) (.refl l) (fun _ _ => hwithin) fun _ _ => hwithin
  cases c with
  | PassThruStartPeriodicMsg =>
      exact wp_PassThruStartPeriodicMsg (fun _ => h)
        (fun t payload hp _ ht => h.started hmaps (can_periodic_head? hp) ht)
        fun _ t payload hp ht => h.unstarted (can_periodic_head? hp) ht
  | PassThruStopPeriodicMsg =>
      exact wp_PassThruStopPeriodicMsg (fun _ => h)
        (fun t r handle hlookup ht hr => h.stopped hmaps hlookup ht hr)
        fun _ _ ht => h.failed ht (by decide)
  | PassThruIoctl id ioctl_id input output =>
      by_cases hid : ioctl_id = CLEAR_PERIODIC_MSGS
      · subst hid
        change wp (channel_ioctl CLEAR_PERIODIC_MSGS) _ _ l
        rw [channel_ioctl, session]
        simp only [wp_bind, wp_read, wp_throw_if]
        refine ⟨fun _ => h, fun _ => ?_⟩
        change wp (read >>= _) _ _ l
        simp only [wp_bind, wp_read, wp_when]
        exact ⟨fun _ => wp_clear_periodic_table (fun t e ht he => .cleared ht rfl he)
          fun _ _ ht => h.failed ht (by decide), fun _ => h⟩
      · exact hkeeps hid fun _ _ _ _ => nofun
  | _ => exact hkeeps trivial fun _ _ _ _ => nofun

end calls

end Mongoose
