import Mongoose.Api
import Mongoose.Session.Outcome

/-!
# Mongoose.Api.Command

What a command does to a device.

A device's session is one of the reachable worlds of `Mongoose.Session`, so a
command on it is answered, or was never written, or was written without an answer
and has left the session unusable.  `Locked.Commanded` says so once for every
command of the entry points, and the rules below let their proofs use it in place
of the session.
-/

namespace Mongoose

/-! ## commands of the session -/

namespace World

variable {w w' : World} {c : CallId} {ls : List Label}

/-- A call that returned was sent and its body answers it; one that was sent and
threw has left the session unusable. -/
def Told (ls : List Label) (w : World) (c : CallId) : Prop :=
  ∀ call, w.calls c = some call →
    (∀ body, call.phase = .returned body → .act c .send ∈ ls ∧ call.Answers body) ∧
    (∀ e, call.phase = .threw e → .act c .send ∈ ls → ¬ w.session.usable)

/-- Other steps add nothing to what is told of a command. -/
theorem Told.other {l : Label} (h : Told ls w c) (hs : w.step l = some w')
    (hc : w'.calls c = w.calls c) (hl : l ≠ .act c .send) : Told (ls ++ [l]) w' c := by
  intro call hcall
  obtain ⟨hret, hthrew⟩ := h call (hc ▸ hcall)
  refine ⟨fun body hp => ⟨List.mem_append_left _ (hret body hp).1, (hret body hp).2⟩,
    fun e hp hmem => not_usable_of_step hs (hthrew e hp ?_)⟩
  obtain hmem | hmem := List.mem_append.mp hmem
  · exact hmem
  · exact absurd (List.mem_singleton.mp hmem).symm hl

/-- Every run tells so of its calls. -/
theorem told_run {protocol : ReceiverRef → UInt32}
    (h : Run.run step (opened protocol) ls = some w) (c : CallId) : Told ls w c := by
  refine Run.run_induction (P := fun ls w => Told ls w c) (fun call hc => by cases hc)
    (fun ls m l t hr hm hs => ?_) h
  have hw := sound_run hr
  have hlog := logged_run hr c
  obtain ⟨d, cmd, now, rfl, hd, rfl⟩ | ⟨d, a, call, s, call', rfl, hd, ht, rfl⟩ |
    ⟨k, a, s, p, rfl, -, rfl⟩ | ⟨s, hl, -, rfl⟩ := step_cases hs
  · by_cases hdc : c = d
    · subst hdc
      rw [hd] at hlog
      intro call hc
      rw [put_calls_self] at hc
      cases hc
      refine ⟨fun body hp => ?_, fun e _ hmem => ?_⟩
      · rw [Call.enter] at hp
        split at hp <;> cases hp
      · obtain hmem | hmem := List.mem_append.mp hmem
        · exact absurd rfl (hlog _ hmem)
        · cases List.mem_singleton.mp hmem
    · exact hm.other hs (put_calls_of_ne _ _ _ hdc) Label.noConfusion
  · by_cases hdc : c = d
    · subst hdc
      have hlive : ¬ m.Ended c := by
        rintro ⟨call₁, hc₁, hend⟩
        cases hd.symm.trans hc₁
        obtain hu | hu := ht.unsent_or_sent
        · exact hend.not_unsent hu
        · exact hend.not_sent hu
      intro call₁ hc₁
      rw [put_calls_self] at hc₁
      cases hc₁
      refine ⟨fun body hp => ?_, fun e hp hmem => ?_⟩
      · cases ht with
        | answered body' hp' hu hresp =>
            cases hp
            rw [hd] at hlog
            exact ⟨List.mem_append_left _ (hlog.2.1 (by rw [hp']; trivial)),
              (hw.owns hd (by rw [hp']; trivial)).response _ hresp⟩
        | budget | late => cases hp
        | _ => cases hp
      · obtain ⟨_, _, hc, hp', -⟩ | ⟨_, _, -, -, hnot, -⟩ | ⟨_, _, -, -, -, hu⟩ :=
          outcome_of_step hr hs hlive ⟨_, put_calls_self .., by rw [hp]; trivial⟩
        · rw [put_calls_self] at hc
          cases hc
          cases hp.symm.trans hp'
        · exact absurd hmem hnot
        · exact hu [] _ rfl
    · exact hm.other hs (put_calls_of_ne _ _ _ hdc) fun h => hdc (Label.act.inj h).1.symm
  · exact hm.other hs rfl Label.noConfusion
  · exact hm.other hs rfl (by rintro rfl; cases hl)

/-- A call keeps its command. -/
theorem command_of_run {cmd : Command} {call : Call} (hc : w.calls c = some call)
    (hcmd : call.command = cmd) (h : Run.run step w ls = some w') :
    ∃ call', w'.calls c = some call' ∧ call'.command = cmd := by
  refine Run.invariant (I := fun w => ∃ call, w.calls c = some call ∧ call.command = cmd)
    (fun m l t hm hs => ?_) ⟨call, hc, hcmd⟩ h
  obtain ⟨call, hc, hcmd⟩ := hm
  obtain ⟨d, cmd', now, rfl, hd, rfl⟩ | ⟨d, a, call₁, s, call₂, rfl, hd, ht, rfl⟩ |
    ⟨k, a, s, p, rfl, -, rfl⟩ | ⟨s, -, -, rfl⟩ := step_cases hs
  · by_cases hdc : c = d
    · subst hdc
      rw [hd] at hc
      cases hc
    · exact ⟨call, (put_calls_of_ne _ _ _ hdc).trans hc, hcmd⟩
  · by_cases hdc : c = d
    · subst hdc
      cases hd.symm.trans hc
      exact ⟨call₂, put_calls_self .., ht.command_eq.trans hcmd⟩
    · exact ⟨call, (put_calls_of_ne _ _ _ hdc).trans hc, hcmd⟩
  · exact ⟨call, hc, hcmd⟩
  · exact ⟨call, hc, hcmd⟩

end World

namespace Live

variable {s t : Live} {ls : List Label}

/-- A session of a device stays unusable. -/
theorem not_usable_of_run (h : s.run ls = some t) (hu : ¬ s.session.usable) : ¬ t.session.usable :=
  World.not_usable_of_run (run_eq_some h) hu

end Live

/-- The step of a turn that sends is the command's send. -/
theorem Step.sends_iff {c : CallId} {s : Step} : s.sends ↔ s.label c = .act c .send := by
  cases s with
  | act a => cases a <;> simp [sends, label]
  | event e => cases e <;> simp [sends, label, Event.label]

namespace Device

variable {d d' : Device} {cmd : Command} {now : Int} {steps : List Step}

/-- What a command leaves of the device: only the session's side moves. -/
structure Moved (d d' : Device) (es : List Exchange) : Prop where
  eq : d' = { d with
    session := d'.session, commands := d'.commands, log := d.log ++ es, uncertain := d'.uncertain
    reopen_required := d'.reopen_required }
  reopen : d.reopen_required → d'.reopen_required
  usable : ¬ d.usable → ¬ d'.usable

/-- Movements of a device add up. -/
theorem Moved.trans {d'' : Device} {es es' : List Exchange} (h : d.Moved d' es)
    (h' : d'.Moved d'' es') : d.Moved d'' (es ++ es') where
  eq := by
    rw [h'.eq, h.eq]
    simp
  reopen := fun hr => h'.reopen (h.reopen hr)
  usable := fun hu => h'.usable (h.usable hu)

/-- Steps of the session alone. -/
theorem Moved.of_run {s : Live} {ls : List Label} (h : d.session.run ls = some s) :
    d.Moved { d with session := s } [] :=
  ⟨by simp, id, Live.not_usable_of_run h⟩

/-- A command sets no flag, and what it writes is written with the flag there is. -/
theorem command_uncertain {r : Except Exception Bytes} (h : d.command cmd now steps = some (r, d')) :
    d'.reopen_required = d.reopen_required ∧ ∃ es : List Exchange, (∀ e ∈ es, e.command = cmd) ∧
      d'.uncertain = d.uncertain ++ if d.reopen_required then es else [] := by
  rw [command] at h
  obtain ⟨session, -, h⟩ := Option.bind_eq_some_iff.mp h
  obtain ⟨call, -, h⟩ := Option.bind_eq_some_iff.mp h
  have hwritten (response : Option Bytes) : ∀ e ∈ (if steps.any Step.sends then
      [{ command := cmd, sequence := call.allocated, response := response }] else [] : List Exchange),
      e.command = cmd := by
    intro e he
    split at he
    · rw [List.mem_singleton.mp he]
    · cases he
  cases hphase : call.phase with
  | returned | threw =>
      simp only [hphase, Option.some.injEq, Prod.mk.injEq] at h
      obtain ⟨-, rfl⟩ := h
      exact ⟨rfl, _, hwritten _, rfl⟩
  | _ => simp [hphase] at h

/-- A command is answered, or was not written, or its answer is missing and the
session unusable. -/
theorem command_cases {r : Except Exception Bytes} (h : d.command cmd now steps = some (r, d')) :
    ∃ es, d.Moved d' es ∧ d'.reopen_required = d.reopen_required ∧
      (es ≠ [] ↔ steps.any Step.sends) ∧
      ((∃ body q, r = .ok body ∧ es = [⟨cmd, q, some body⟩] ∧ cmd.minimum ≤ body.length) ∨
        (∃ e, r = .error e ∧ es = []) ∨
        (∃ e q, r = .error e ∧ es = [⟨cmd, q, none⟩] ∧ ¬ d'.usable)) := by
  rw [command] at h
  obtain ⟨session, hrun, h⟩ := Option.bind_eq_some_iff.mp h
  obtain ⟨call, hcall, h⟩ := Option.bind_eq_some_iff.mp h
  have hstep := Live.run_eq_some hrun
  obtain ⟨ks, hks⟩ := d.session.reached
  have hall := Run.run_append hks hstep
  have htold := World.told_run hall d.commands call hcall
  obtain ⟨m, hm, hrest⟩ := Run.run_cons_iff.mp hstep
  -- the call was new, so it is sent where its steps send it
  obtain ⟨hnew, hm⟩ := Option.ite_none_right_eq_some.mp hm
  have hnone := Option.isNone_iff_eq_none.mp hnew
  have hks' : .act d.commands .send ∉ ks := by
    have := World.logged_run hks d.commands
    rw [hnone] at this
    exact fun hmem => this _ hmem rfl
  have hsent : .act d.commands .send ∈
      ks ++ .enter d.commands cmd now :: steps.map (Step.label d.commands) ↔
        steps.any Step.sends := by
    simp [hks', Step.sends_iff (c := d.commands)]
  have hcmd : call.command = cmd := by
    have hentered : m.calls d.commands = some (Call.enter cmd now) := by
      rw [← Option.some.inj hm, World.put_calls_self]
    have hcommand : (Call.enter cmd now).command = cmd := by
      rw [Call.enter]
      split <;> rfl
    obtain ⟨call', hc', hcmd⟩ := World.command_of_run hentered hcommand hrest
    cases hcall.symm.trans hc'
    exact hcmd
  have husable : ¬ d.usable → ¬ session.session.usable := Live.not_usable_of_run hrun
  rw [hsent] at htold
  cases hphase : call.phase with
  | returned body =>
      simp only [hphase, Option.some.injEq, Prod.mk.injEq] at h
      obtain ⟨rfl, rfl⟩ := h
      obtain ⟨hsends, hans⟩ := htold.1 body hphase
      refine ⟨_, ⟨rfl, id, husable⟩, rfl, ?_, .inl ⟨body, call.allocated, rfl, if_pos hsends, ?_⟩⟩
      · simp [hsends]
      · rw [← hcmd]
        exact hans.1
  | threw e =>
      simp only [hphase, Option.some.injEq, Prod.mk.injEq] at h
      obtain ⟨rfl, rfl⟩ := h
      by_cases hsends : steps.any Step.sends = true
      · refine ⟨_, ⟨rfl, id, husable⟩, rfl, by simp [hsends],
          .inr (.inr ⟨e, call.allocated, rfl, if_pos hsends, htold.2 e hphase hsends⟩)⟩
      · exact ⟨_, ⟨rfl, id, husable⟩, rfl, by simp [hsends], .inr (.inl ⟨e, rfl, if_neg hsends⟩)⟩
  | slot | started | allocated | known | sending | sent | undo | abandon | waiting =>
      simp [hphase] at h

end Device

/-! ## commands of a call -/

open Prog

/-- What a step of a call leaves alone. -/
structure Locked.Kept (l t : Locked) : Prop where
  ref : t.ref = l.ref
  registry : t.registry = l.registry
  out : t.out = l.out

/-- What is kept twice is kept. -/
theorem Locked.Kept.trans {l t u : Locked} (h : l.Kept t) (h' : t.Kept u) : l.Kept u :=
  ⟨h'.ref.trans h.ref, h'.registry.trans h.registry, h'.out.trans h.out⟩

/-- A command of a call took a turn of its script and made these exchanges. -/
structure Locked.Commanded (l t : Locked) (es : List Exchange) : Prop where
  kept : l.Kept t
  moved : l.device.Moved t.device es
  turn : ∃ now steps, l.script = .command now steps :: t.script ∧
    (es ≠ [] ↔ steps.any Step.sends)

section rules

variable {l t : Locked} {Q : Unit → Locked → Prop} {E : Exception → Locked → Prop}

/-- A change of the device alone. -/
@[simp] theorem wp_update (f : Device → Device) :
    wp (Lifecycle.update f) Q E l ↔ Q () { l with device := f l.device } := by
  rw [Lifecycle.update, wp_alter]

/-- A change of what is handed out alone. -/
@[simp] theorem wp_output (f : Out → Out) :
    wp (Lifecycle.output f) Q E l ↔ Q () { l with out := f l.out } := by
  rw [Lifecycle.output, wp_alter]

/-- Steps of the session move nothing but the session. -/
theorem wp_perform {ls : List Label}
    (h : ∀ s, l.device.session.run ls = some s → Q () { l with device := { l.device with session := s } }) :
    wp (Lifecycle.perform ls) Q E l := by
  rw [Lifecycle.perform, wp_bind, wp_read]
  split
  · exact wp_refuse
  · next s hs => exact (wp_update _).mpr (h s hs)

/-- The next turn of the script. -/
theorem wp_turn {Q : Turn → Locked → Prop}
    (h : ∀ t script, l.script = t :: script → Q t { l with script := script }) :
    wp Lifecycle.turn Q E l := by
  rw [Lifecycle.turn, wp_bind, wp_read]
  split
  · exact wp_refuse
  · next t script hs =>
      simp only [wp_bind, wp_alter, wp_pure]
      exact h t script hs

/-- A map that takes an entry or throws leaves all but the script. -/
theorem wp_room (hok : ∀ t, l.Kept t → t.device = l.device → Q () t)
    (herr : ∀ e t, l.Kept t → t.device = l.device → E e t) : wp Lifecycle.room Q E l := by
  rw [Lifecycle.room, wp_bind]
  refine wp_turn fun turn script _ => ?_
  cases turn with
  | emplace error =>
      rw [wp_rethrow]
      exact ⟨fun _ => hok _ ⟨rfl, rfl, rfl⟩ rfl, fun e _ => herr e _ ⟨rfl, rfl, rfl⟩ rfl⟩
  | clock | command | waits | transport => exact wp_refuse

/-- So does a transport that opens or stops, or throws. -/
theorem wp_transport (hok : ∀ t, l.Kept t → t.device = l.device → Q () t)
    (herr : ∀ e t, l.Kept t → t.device = l.device → E e t) : wp Lifecycle.transport Q E l := by
  rw [Lifecycle.transport, wp_bind]
  refine wp_turn fun turn script _ => ?_
  cases turn with
  | transport error =>
      rw [wp_rethrow]
      exact ⟨fun _ => hok _ ⟨rfl, rfl, rfl⟩ rfl, fun e _ => herr e _ ⟨rfl, rfl, rfl⟩ rfl⟩
  | clock | command | waits | emplace => exact wp_refuse

/-- A command is answered, or not written, or left without an answer. -/
theorem wp_command {Q : Bytes → Locked → Prop} {cmd : Command}
    (hok : ∀ t q body, l.Commanded t [⟨cmd, q, some body⟩] → cmd.minimum ≤ body.length →
      t.device.reopen_required = l.device.reopen_required → Q body t)
    (hunsent : ∀ e t, l.Commanded t [] → t.device.reopen_required = l.device.reopen_required → E e t)
    (hlost : ∀ e t q, l.Commanded t [⟨cmd, q, none⟩] → ¬ t.device.usable →
      t.device.reopen_required = l.device.reopen_required → E e t) :
    wp (Lifecycle.command cmd) Q E l := by
  rw [Lifecycle.command, wp_bind]
  refine wp_turn fun turn script hscript => ?_
  split
  · next now steps =>
      simp only [wp_bind, wp_read]
      split
      · exact wp_refuse
      · next r d hd =>
          simp only [wp_bind, wp_alter, wp_of]
          obtain ⟨es, hmoved, hreopen, hsends, hr⟩ := Device.command_cases hd
          have hcommanded : l.Commanded
              { l with device := d, script := script, noted := steps.any Step.knows } es :=
            ⟨⟨rfl, rfl, rfl⟩, hmoved, now, steps, hscript, hsends⟩
          obtain ⟨body, q, rfl, rfl, hlen⟩ | ⟨e, rfl, rfl⟩ | ⟨e, q, rfl, rfl, hu⟩ := hr
          · exact ⟨fun _ h => Except.ok.inj h ▸ hok _ q body hcommanded hlen hreopen,
              by simp⟩
          · exact ⟨by simp,
              fun _ h => Except.error.inj h ▸ hunsent e _ hcommanded hreopen⟩
          · exact ⟨by simp,
              fun _ h => Except.error.inj h ▸ hlost e _ q hcommanded hu hreopen⟩
  · exact wp_refuse

/-- Leaving the channel uncertain moves the session and sets the flag. -/
theorem wp_uncertain_channel
    (h : ∀ t, l.Kept t → t.script = l.script → l.device.Moved t.device [] →
      t.device.reopen_required = true → Q () t) : wp uncertain_channel Q E l := by
  rw [uncertain_channel]
  simp only [wp_bind, wp_update, wp_read]
  split
  · rw [wp_pure]
    exact h _ ⟨rfl, rfl, rfl⟩ rfl ⟨by simp, fun _ => rfl, id⟩ rfl
  · refine wp_perform fun s hs => ?_
    exact h _ ⟨rfl, rfl, rfl⟩ rfl ⟨by simp, fun _ => rfl, (Device.Moved.of_run hs).usable⟩ rfl

end rules

/-- The command of a channel. -/
def Device.channelCommand (d : Device) (opcode : Nat) (payload : Bytes) (timeout : Int) (chan : Nat)
    (sequence_known : Option Recording) : Command :=
  { opcode := opcode, payload := payload, timeout := timeout
    destination := channel_node d.protocol.toNat, chan := chan, sequence_known := sequence_known }

/-- The adapter answered with status zero. -/
def Exchange.accepted (e : Exchange) : Bool := e.response.any fun body => le32At body 12 = 0

/-- `accepted` tells whether the status is zero. -/
theorem accepted_ok_iff {body : Bytes} (h : 20 ≤ body.length) :
    Mongoose.accepted body = .ok () ↔ le32At body 12 = 0 := by
  have hstatus : Session.status body = .ok (le32At body 12) := by
    rw [Session.status, if_neg (by omega), le32_of_le (by omega)]
  rw [Mongoose.accepted, hstatus]
  change (if _ then _ else _) = _ ↔ _
  by_cases h0 : le32At body 12 = 0
  · rw [if_pos h0]
    exact ⟨fun _ => h0, fun _ => rfl⟩
  · rw [if_neg h0, if_neg (fun h => nomatch h.1), if_neg (fun h => nomatch h.1)]
    split <;> exact ⟨fun h => (nomatch h), fun h => absurd h h0⟩

/-- An answer with status 0 is an acceptance. -/
theorem Exchange.accepted_of_ok {cmd : Command} {q : Nat} {body : Bytes} (h : 20 ≤ body.length)
    (hacc : Mongoose.accepted body = .ok ()) : (⟨cmd, q, some body⟩ : Exchange).accepted = true := by
  simpa [accepted] using (accepted_ok_iff h).mp hacc

/-- Any other is not. -/
theorem Exchange.accepted_of_error {cmd : Command} {q : Nat} {body : Bytes} {e : Exception}
    (h : 20 ≤ body.length) (hacc : Mongoose.accepted body = .error e) :
    (⟨cmd, q, some body⟩ : Exchange).accepted = false := by
  have hne : le32At body 12 ≠ 0 := fun h0 => by cases hacc.symm.trans ((accepted_ok_iff h).mpr h0)
  simpa [accepted] using hne

section channel

variable {l : Locked} {Q : Bytes → Locked → Prop} {E : Exception → Locked → Prop} {opcode : Nat}
  {payload : Bytes} {timeout : Int} {chan : Nat} {known : Option Recording}

/-- A channel command that is left without an answer leaves the channel uncertain. -/
theorem wp_channel_command
    (hok : ∀ t q body,
      l.Commanded t [⟨l.device.channelCommand opcode payload timeout chan known, q, some body⟩] →
      (opcode ≠ 0x100 → 20 ≤ body.length) →
      t.device.reopen_required = l.device.reopen_required → Q body t)
    (hunsent : ∀ e t, l.Commanded t [] → E e t)
    (hlost : ∀ e t q,
      l.Commanded t [⟨l.device.channelCommand opcode payload timeout chan known, q, none⟩] →
      ¬ t.device.usable → t.device.reopen_required = true → E e t) :
    wp (channel_command opcode payload timeout chan known) Q E l := by
  have huncertain {e : Exception} {es : List Exchange} {t : Locked} (ht : l.Commanded t es)
      (hstay : t.device.usable → E e t)
      (hlost : ∀ u, l.Commanded u es → ¬ u.device.usable → u.device.reopen_required = true → E e u) :
      wp (when (¬ t.device.usable) uncertain_channel) (fun _ => wp (throw e) Q E) E t := by
    simp only [wp_when, wp_throw, not_not]
    refine ⟨fun hu => wp_uncertain_channel fun u hkept hscript hmoved hreopen => ?_, hstay⟩
    rw [wp_throw]
    refine hlost u ⟨ht.kept.trans hkept, ?_, ?_⟩ (hmoved.usable hu) hreopen
    · simpa using ht.moved.trans hmoved
    · obtain ⟨now, steps, hs, hsends⟩ := ht.turn
      exact ⟨now, steps, hs.trans (by rw [hscript]), hsends⟩
  rw [channel_command]
  simp only [wp_bind, wp_read, wp_tryCatch]
  refine wp_command (fun t q body ht hlen hreopen => hok t q body ht (fun hop => ?_) hreopen)
    (fun e t ht hreopen => ?_) fun e t q ht hu hreopen => ?_
  · rwa [Command.minimum, if_neg hop] at hlen
  · exact huncertain ht (fun _ => hunsent e t ht) fun u hu _ _ => hunsent e u hu
  · exact huncertain ht (fun hu' => absurd hu' hu) fun u hu hun hr => hlost e u q hu hun hr

/-- A command the adapter must accept was accepted, or it was not; if it was left
without an answer the session is unusable. -/
theorem wp_accepted_command {Q : Unit → Locked → Prop} (hopcode : opcode ≠ 0x100)
    (hok : ∀ t e, l.Commanded t [e] →
      e.command = l.device.channelCommand opcode payload 10000 0 none → e.accepted = true →
      t.device.reopen_required = l.device.reopen_required → Q () t)
    (herr : ∀ err t (o : Option Exchange), l.Commanded t o.toList →
      (∀ e, o = some e → e.command = l.device.channelCommand opcode payload 10000 0 none ∧
        e.accepted = false ∧ (e.response = none → ¬ t.device.usable)) → E err t) :
    wp (accepted_command opcode payload) Q E l := by
  rw [accepted_command, wp_bind]
  refine wp_channel_command (fun t q body ht hlen hreopen => ?_)
    (fun e t ht => herr e t none ht fun _ h => (nomatch h)) fun e t q ht hu hreopen =>
      herr e t (some _) ht fun x hx => ?_
  · have hlen := hlen hopcode
    rw [wp_of]
    refine ⟨fun _ hacc => hok t _ ht rfl (Exchange.accepted_of_ok hlen hacc) hreopen, fun e hacc => ?_⟩
    refine herr e t (some _) ht fun x hx => ?_
    cases hx
    exact ⟨rfl, Exchange.accepted_of_error hlen hacc, by simp⟩
  · cases hx
    exact ⟨rfl, rfl, fun _ => hu⟩

/-- A close frees the wire channel if it is accepted. -/
theorem wp_close_channel {Q : Unit → Locked → Prop}
    (hok : ∀ t e, l.Commanded t [e] → e.command = l.device.channelCommand 7 [] 10000 0 none →
      e.accepted = true → t.device.reopen_required = l.device.reopen_required →
      Q () { t with device := { t.device with wire_channel_open := false } })
    (herr : ∀ err t (o : Option Exchange), l.Commanded t o.toList →
      (∀ e, o = some e → e.command = l.device.channelCommand 7 [] 10000 0 none ∧
        e.accepted = false ∧ (e.response = none → ¬ t.device.usable)) → E err t) :
    wp close_channel Q E l := by
  rw [close_channel, wp_bind]
  exact wp_accepted_command (by decide)
    (fun t e ht he hacc hreopen => (wp_update _).mpr (hok t e ht he hacc hreopen)) herr

/-- Retiring a channel forgets what the host keeps of it. -/
theorem wp_retire_channel {Q : Bool → Locked → Prop}
    (h : ∀ s ls, l.device.session.run ls = some s →
      Q (l.device.periodic_untracked || !l.device.periodics.isEmpty)
        { l with
          device := { l.device with
            session := s, receiver := none, filters := [], periodics := [], channel := 0 }
          registry := { l.registry with
            channels := l.registry.channels.erase l.device.channel } }) :
    wp retire_channel Q E l := by
  rw [retire_channel]
  simp only [wp_bind, wp_read]
  refine wp_perform fun s hs => ?_
  simp only [wp_update, wp_alter, wp_pure]
  exact h s _ hs

/-- IDs come one after the other, until they run out. -/
theorem wp_allocate_handle {Q : UInt32 → Locked → Prop}
    (hok : l.registry.next_handle ≤ 0xffffffff → Q (UInt32.ofNat l.registry.next_handle)
      { l with registry := { l.registry with next_handle := l.registry.next_handle + 1 } })
    (herr : ∀ e, E e l) : wp allocate_handle Q E l := by
  rw [allocate_handle]
  simp only [wp_bind, wp_read, wp_throw_if, wp_alter, wp_pure, Nat.not_lt]
  exact ⟨fun _ => herr _, hok⟩

end channel

/-! ## how a channel and a device end -/

namespace Lifecycle

/-- The end of a Disconnect, with the error of its clear. -/
def end_channel (error : Option Exception) : Lifecycle Unit := do
  tryCatch close_channel fun e => do
    update fun d => { d with reopen_required := true }
    throw e
  when (error.isSome) (update fun d => { d with reopen_required := true })
  rethrow error

/-- The end of a Close: the device goes off the bus, and its session stops. -/
def end_device (error : Option Exception) : Lifecycle Unit := do
  let error' ← attempt (command { opcode := 5 } >>= fun response => of (accepted response))
  let error := error.or error'
  let error' ← attempt close
  rethrow (error.or error')

/-- The wire channel of a Close, with the error of its clear. -/
def end_wire (error : Option Exception) : Lifecycle Unit := do
  let l ← read
  let error' ← if l.device.wire_channel_open then attempt close_channel else pure none
  end_device (error'.or error)

/-- The clear that comes before either, where something may be running. -/
def clear_if (c : Prop) [Decidable c] (rest : Option Exception → Lifecycle Unit) : Lifecycle Unit :=
  if c then attempt clear_periodic_table >>= rest else pure none >>= rest

/-- A Disconnect retires the channel, clears if it must, and closes. -/
theorem PassThruDisconnect_eq :
    PassThruDisconnect = retire_channel >>= fun periodic => clear_if periodic end_channel := rfl

/-- So does a Close, and ends the session. -/
theorem PassThruClose_eq (id : UInt32) : PassThruClose id = (do
    update fun d => { d with closed := true }
    alter fun l => { l with registry := { l.registry with devices := l.registry.devices.erase id } }
    let periodic ← retire_channel
    let l ← read
    clear_if (l.device.wire_channel_open ∧ periodic) end_wire) := rfl

/-- A clear that is needed is attempted, and its exception kept. -/
theorem wp_clear_if {c : Prop} [Decidable c] {rest : Option Exception → Lifecycle Unit} {l : Locked}
    {Q : Unit → Locked → Prop} {E : Exception → Locked → Prop} :
    wp (clear_if c rest) Q E l ↔
      (c → wp (attempt clear_periodic_table) (fun error => wp (rest error) Q E) E l) ∧
        (¬ c → wp (rest none) Q E l) := by
  rw [clear_if, wp_ite, wp_bind, wp_bind, wp_pure]

section keeps

variable {I : Locked → Prop}

/-- What the close of a channel keeps the end of it does. -/
theorem keeps_end_channel (hclose : Keeps I close_channel)
    (hreopen : Keeps I (update fun d => { d with reopen_required := true })) (error : Option Exception) :
    Keeps I (end_channel error) :=
  (Keeps.tryCatch hclose fun _ => hreopen.bind fun _ => .throw _).bind
    fun _ => (Keeps.when hreopen).bind fun _ => Keeps.rethrow _

/-- So for the end of a device, -/
theorem keeps_end_device (hboard : Keeps I (command { opcode := 5 })) (hstop : Keeps I close)
    (error : Option Exception) : Keeps I (end_device error) :=
  (Keeps.attempt (hboard.bind fun _ => .of _)).bind fun _ =>
    (Keeps.attempt hstop).bind fun _ => Keeps.rethrow _

/-- for both together, -/
theorem keeps_end_wire (hclose : Keeps I close_channel) (hboard : Keeps I (command { opcode := 5 }))
    (hstop : Keeps I close) (error : Option Exception) : Keeps I (end_wire error) :=
  Keeps.read.bind fun _ => Keeps.ite _
    ((Keeps.attempt hclose).bind fun _ => keeps_end_device hboard hstop _)
    ((Keeps.pure _).bind fun _ => keeps_end_device hboard hstop _)

/-- and with a clear before. -/
theorem keeps_clear_if {c : Prop} [Decidable c] {rest : Option Exception → Lifecycle Unit}
    (hclear : Keeps I clear_periodic_table) (hrest : ∀ error, Keeps I (rest error)) :
    Keeps I (clear_if c rest) :=
  Keeps.ite _ ((Keeps.attempt hclear).bind hrest) ((Keeps.pure _).bind hrest)

end keeps

end Lifecycle

end Mongoose
