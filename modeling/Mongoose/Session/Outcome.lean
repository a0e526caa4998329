import Mongoose.Session.Invariant

/-!
# Mongoose.Session.Outcome

How a call of `Session::command` ends, whatever the other threads do.

A call ends answered, unsent or poisoned: with its own response on a usable
session, with an exception before anything was sent and nothing of it left
behind, or with an exception after the send and the session unusable from then
on.  `command_outcome` puts the three together with what poisoning means.
-/

namespace Mongoose

namespace Phase

/-- The call has not reached the send. -/
def Unsent : Phase → Prop
  | .slot | .started | .allocated | .known | .sending _ | .undo _ => True
  | _ => False

/-- The send was called and the call goes on. -/
def Sent : Phase → Prop
  | .sent | .abandon _ | .waiting => True
  | _ => False

/-- The state check is still to come. -/
def Unchecked : Phase → Prop
  | .slot | .started => True
  | _ => False

end Phase

/-! ## one step of a call -/

namespace Took

variable {c : CallId} {s s' : Session} {call call' : Call} {a : Action}

/-- A command never closes the session. -/
theorem closing_eq (h : Took c s call a s' call') : s'.closing = s.closing := by
  cases h with
  | known hp => rw [Call.known]; split <;> rfl
  | _ => rfl

/-- No call overwrites a failure. -/
theorem failure (h : Took c s call a s' call') (hf : s.failure ≠ "") : s'.failure = s.failure := by
  cases h with
  | known hp => exact (quiet_known call s).failure hf
  | abandon e hp => exact if_neg hf
  | expire now hp hr hu hd => exact absurd hu.2 hf
  | _ => rfl

/-- Up to the send a call touches nothing that outlives it: neither failure nor
`closing_`, and without a sequence number neither `pending_` nor `used_`; a
number it took from the counter without using it is free. -/
theorem harmless (h : Took c s call a s' call') (hp : call.phase.Unsent)
    (howns : call.phase.Active → call.Owns s)
    (hrest : call.phase.Holds → ¬ call.phase.Active → s.Rest) :
    s'.failure = s.failure ∧ s'.closing = s.closing ∧
      (call'.allocated = 0 → s'.pending = s.pending ∧ s'.used = s.used ∧
        (s'.sequence ≠ s.sequence → s'.used s'.sequence = 0)) := by
  cases h with
  | sendReturns hp' | sendThrows _ hp' | abandon _ hp' | woken _ hp' | answered _ hp'
  | expire _ hp' => rw [hp'] at hp; exact hp.elim
  | known hp' =>
      have hq := quiet_known call s
      refine ⟨?_, ?_, fun _ => ⟨hq.pending, hq.used, fun hne => absurd hq.sequence hne⟩⟩ <;>
        rw [Call.known] <;> split <;> rfl
  | undo e hp' =>
      have hpos := (howns (by rw [hp']; trivial)).pos
      refine ⟨rfl, rfl, fun h => ?_⟩
      have h0 : call.allocated = 0 := h
      omega
  | allocated now q wire hp' hu ha =>
      refine ⟨rfl, rfl, fun h => ?_⟩
      have hq : q = 0 := h
      have := (Session.allocate_range ha).1
      omega
  | full now q hp' hu ha | oversize now q e hp' hu ha =>
      have hs : s.Rest := hrest (by rw [hp']; trivial) (by rw [hp']; exact id)
      exact ⟨rfl, rfl, fun _ => ⟨rfl, rfl, fun _ => hs.used hu q⟩⟩
  | _ => exact ⟨rfl, rfl, fun _ => ⟨rfl, rfl, fun hne => absurd rfl hne⟩⟩

/-- Before the send a call goes on before it, or ends, or sends. -/
theorem unsent_or (h : Took c s call a s' call') (hp : call.phase.Unsent) :
    (a ≠ .send ∧ (call'.phase.Unsent ∨ call'.phase.Ended)) ∨ (a = .send ∧ call'.phase.Sent) := by
  cases h with
  | send n hp' => exact .inr ⟨rfl, trivial⟩
  | sendReturns hp' | sendThrows _ hp' | abandon _ hp' | woken _ hp' | answered _ hp'
  | expire _ hp' => rw [hp'] at hp; exact hp.elim
  | slotTimeout | closing | failed | full | oversize | undo =>
      exact .inl ⟨Action.noConfusion, .inr trivial⟩
  | slot | allocated | known | knownThrows | late | budget =>
      exact .inl ⟨Action.noConfusion, .inl trivial⟩

/-- A call that took a step had not ended. -/
theorem unsent_or_sent (h : Took c s call a s' call') : call.phase.Unsent ∨ call.phase.Sent := by
  cases h with
  | slot hp | slotTimeout _ hp | closing _ hp | failed _ hp | full _ _ hp | oversize _ _ _ hp
  | allocated _ _ _ hp | known hp | knownThrows _ _ hp | late _ hp | budget _ _ hp | send _ hp
  | undo _ hp => exact .inl (by rw [hp]; trivial)
  | sendReturns hp | sendThrows _ hp | abandon _ hp | woken _ hp | answered _ hp | expire _ hp =>
      exact .inr (by rw [hp]; trivial)

/-- After the send a call never sends again. -/
theorem sent_ne_send (h : Took c s call a s' call') (hp : call.phase.Sent) :
    a ≠ .send ∧ (call'.phase.Sent ∨ call'.phase.Ended) := by
  cases h with
  | sendReturns | sendThrows => exact ⟨Action.noConfusion, .inl trivial⟩
  | abandon | woken | answered | expire => exact ⟨Action.noConfusion, .inr trivial⟩
  | slot hp' | slotTimeout _ hp' | closing _ hp' | failed _ hp' | full _ _ hp' | oversize _ _ _ hp'
  | allocated _ _ _ hp' | known hp' | knownThrows _ _ hp' | late _ hp' | budget _ _ hp'
  | send _ hp' | undo _ hp' => rw [hp'] at hp; exact hp.elim

/-- On an unusable session the state check ends the call. -/
theorem unchecked_or (h : Took c s call a s' call') (hp : call.phase.Unchecked) (hu : ¬ s.usable) :
    a ≠ .send ∧ (call'.phase.Unchecked ∨ call'.phase.Ended) := by
  cases h with
  | slot => exact ⟨Action.noConfusion, .inl trivial⟩
  | slotTimeout | closing | failed => exact ⟨Action.noConfusion, .inr trivial⟩
  | full _ _ _ hu' | oversize _ _ _ _ hu' | allocated _ _ _ _ hu' => exact absurd hu' hu
  | known hp' | knownThrows _ _ hp' | late _ hp' | budget _ _ hp' | send _ hp' | sendReturns hp'
  | sendThrows _ hp' | undo _ hp' | abandon _ hp' | woken _ hp' | answered _ hp' | expire _ hp' =>
      rw [hp'] at hp
      exact hp.elim

/-- A call without a sequence number had none before. -/
theorem allocated_eq_zero (h : Took c s call a s' call') (h0 : call'.allocated = 0) :
    call.allocated = 0 := by
  cases h with
  | allocated now q wire hp hu ha =>
      have hq : q = 0 := h0
      have := (Session.allocate_range ha).1
      omega
  | _ => exact h0

/-- A call that has not passed the check leaves the check without a sequence number, or with one. -/
theorem unchecked_allocated (h : Took c s call a s' call')
    (h0 : call.phase.Unchecked → call.allocated = 0) (hp : call'.phase.Unchecked) :
    call'.allocated = 0 := by
  cases h with
  | slot hp' => exact h0 (by rw [hp']; trivial)
  | _ => cases hp

end Took

/-- What has ended is past its send. -/
theorem Phase.Ended.not_unsent {p : Phase} (h : p.Ended) : ¬ p.Unsent := by
  cases p <;> first | exact id | exact h.elim

/-- And past its wait. -/
theorem Phase.Ended.not_sent {p : Phase} (h : p.Ended) : ¬ p.Sent := by
  cases p <;> first | exact id | exact h.elim

/-- What was sent is past its send. -/
theorem Phase.Sent.not_unsent {p : Phase} (h : p.Sent) : ¬ p.Unsent := by
  cases p <;> first | exact id | exact h.elim

namespace World

variable {w w' : World} {l : Label}

/-! ## poisoning -/

/-- No step overwrites a failure. -/
theorem failure_of_step (h : w.step l = some w') (hf : w.session.failure ≠ "") :
    w'.session.failure = w.session.failure := by
  obtain ⟨c, cmd, now, -, -, rfl⟩ | ⟨c, a, call, s, call', -, -, ht, rfl⟩ |
    ⟨k, a, s, p, -, hs, rfl⟩ | ⟨s, -, hs, rfl⟩ := step_cases h
  · rfl
  · exact ht.failure hf
  · exact (Session.quiet_of_close hs).failure hf
  · exact (Session.quiet_of_environment hs).1.failure hf

/-- A session that is closing goes on closing. -/
theorem closing_of_step (h : w.step l = some w') (hc : w.session.closing = true) :
    w'.session.closing = true := by
  obtain ⟨c, cmd, now, -, -, rfl⟩ | ⟨c, a, call, s, call', -, -, ht, rfl⟩ |
    ⟨k, a, s, p, -, hs, rfl⟩ | ⟨s, -, hs, rfl⟩ := step_cases h
  · exact hc
  · exact ht.closing_eq.trans hc
  · exact (Session.quiet_of_close hs).closing hc
  · exact (Session.quiet_of_environment hs).1.closing hc

/-- A session is unusable when it is closing or has failed. -/
theorem not_usable_iff {s : Session} : ¬ s.usable ↔ s.closing = true ∨ s.failure ≠ "" := by
  rw [Session.usable, not_and_or, Bool.not_eq_false]

/-- A session never becomes usable again. -/
theorem not_usable_of_step (h : w.step l = some w') (hu : ¬ w.session.usable) :
    ¬ w'.session.usable := by
  rw [not_usable_iff] at hu ⊢
  obtain hc | hf := hu
  · exact .inl (closing_of_step h hc)
  · exact .inr (by rw [failure_of_step h hf]; exact hf)

/-- It never becomes usable again. -/
theorem not_usable_of_run {ls : List Label} (h : Run.run step w ls = some w')
    (hu : ¬ w.session.usable) : ¬ w'.session.usable :=
  Run.invariant (I := fun w => ¬ w.session.usable) (fun _ _ _ hm hs => not_usable_of_step hs hm) hu h

/-- Call `c` has not checked the state yet. -/
def Unchecked (w : World) (c : CallId) : Prop :=
  ∀ call, w.calls c = some call → call.phase.Unchecked

/-- The call is over. -/
def Ended (w : World) (c : CallId) : Prop := ∃ call, w.calls c = some call ∧ call.phase.Ended

/-- On an unusable session a call that has not checked the state, or is over, never sends. -/
theorem not_sent_of_unchecked_or {ls : List Label} {c : CallId} (h : Run.run step w ls = some w')
    (hu : ¬ w.session.usable)
    (hc : ∀ call, w.calls c = some call → call.phase.Unchecked ∨ call.phase.Ended) :
    .act c .send ∉ ls := by
  have hnew (cmd : Command) (now : Int) :
      (Call.enter cmd now).phase.Unchecked ∨ (Call.enter cmd now).phase.Ended := by
    rw [Call.enter]
    split
    · exact .inr trivial
    · exact .inl trivial
  -- the call stays before its check, or has ended, so no step of it is a send
  refine Run.not_mem_of_along (Run.along_of_invariant
    (I := fun w => ¬ w.session.usable ∧
      ∀ call, w.calls c = some call → call.phase.Unchecked ∨ call.phase.Ended)
    ?_ ?_ ⟨hu, hc⟩) h
  · rintro m l t ⟨hu, hc⟩ hs
    refine ⟨not_usable_of_step hs hu, fun call ht => ?_⟩
    obtain ⟨d, cmd, now, -, -, rfl⟩ | ⟨d, a, old, s, new, -, hd, htook, rfl⟩ |
      ⟨k, a, s, p, -, -, rfl⟩ | ⟨s, -, -, rfl⟩ := step_cases hs
    · by_cases hdc : c = d
      · subst hdc
        rw [put_calls_self] at ht
        cases ht
        exact hnew cmd now
      · exact hc call (by rwa [put_calls_of_ne _ _ _ hdc] at ht)
    · by_cases hdc : c = d
      · subst hdc
        rw [put_calls_self] at ht
        cases ht
        obtain hp | hp := hc old hd
        · exact (htook.unchecked_or hp hu).2
        · obtain h | h := htook.unsent_or_sent
          · exact absurd h hp.not_unsent
          · exact absurd h hp.not_sent
      · exact hc call (by rwa [put_calls_of_ne _ _ _ hdc] at ht)
    · exact hc call ht
    · exact hc call ht
  · rintro m l t ⟨hu, hc⟩ hs rfl
    obtain ⟨d, cmd, now, hl, -, -⟩ | ⟨d, a, old, s, new, hl, hd, htook, -⟩ |
      ⟨k, a, s, p, hl, -, -⟩ | ⟨s, hl, -, -⟩ := step_cases hs
    · cases hl
    · cases hl
      obtain hp | hp := hc old hd
      · exact (htook.unchecked_or hp hu).1 rfl
      · obtain h | h := htook.unsent_or_sent
        · exact absurd h hp.not_unsent
        · exact absurd h hp.not_sent
    · cases hl
    · cases hl

/-- A command that has not been checked before is not sent after. -/
theorem not_sent_of_unchecked {ls : List Label} {c : CallId} (h : Run.run step w ls = some w')
    (hu : ¬ w.session.usable) (hc : w.Unchecked c) : .act c .send ∉ ls :=
  not_sent_of_unchecked_or h hu fun call hcall => .inl (hc call hcall)

/-! ## the three outcomes -/

/-- Call `c` returned a response to its own sequence, which is free, on a usable session. -/
def Answered (w : World) (c : CallId) : Prop :=
  ∃ call body, w.calls c = some call ∧ call.phase = .returned body ∧ call.Answers body ∧
    w.session.used call.allocated = 0 ∧ w.session.usable

/-- A step of call `c` that changes neither failure nor `closing_`; without a
sequence number it changes neither `pending_` nor `used_`, and a number it only
took from the counter is free. -/
def Harmless (c : CallId) (allocated : Nat) (w : World) (l : Label) (w' : World) : Prop :=
  l.call = some c → w'.session.failure = w.session.failure ∧
    w'.session.closing = w.session.closing ∧
    (allocated = 0 → w'.session.pending = w.session.pending ∧ w'.session.used = w.session.used ∧
      (w'.session.sequence ≠ w.session.sequence → w'.session.used w'.session.sequence = 0))

/-- A call that is only made harms nothing. -/
theorem harmless_enter (w : World) (c : CallId) (n : Nat) (cmd : Command) (now : Int) :
    Harmless c n w (.enter c cmd now) (w.put w.session c (Call.enter cmd now)) :=
  fun _ => ⟨rfl, rfl, fun _ => ⟨rfl, rfl, fun hne => absurd rfl hne⟩⟩

/-- Call `c` threw, was never sent, and left nothing behind. -/
def Unsent (init : World) (ls : List Label) (w : World) (c : CallId) : Prop :=
  ∃ call e, w.calls c = some call ∧ call.phase = .threw e ∧ .act c .send ∉ ls ∧
    (call.allocated ≠ 0 → w.session.used call.allocated = 0 ∧ w.session.pending = 0) ∧
    Run.Along step (Harmless c call.allocated) init ls

/-- Call `c` threw after its send, and the session is unusable whatever follows. -/
def Poisoned (ls : List Label) (w : World) (c : CallId) : Prop :=
  ∃ call e, w.calls c = some call ∧ call.phase = .threw e ∧ .act c .send ∈ ls ∧
    ∀ ls' w', Run.run step w ls' = some w' → ¬ w'.session.usable

/-! ## what a run has logged -/

/-- What the labels of a run say of call `c`, which stands as given. -/
def Logged (init : World) (ls : List Label) (c : CallId) : Option Call → Prop
  | none => ∀ l ∈ ls, l.call ≠ some c
  | some call =>
      (call.phase.Unsent →
        .act c .send ∉ ls ∧ Run.Along step (Harmless c call.allocated) init ls) ∧
      (call.phase.Sent → .act c .send ∈ ls) ∧
      (call.phase.Unchecked → call.allocated = 0)

variable {init : World} {ls : List Label} {c : CallId}

/-- A step of another thread adds nothing to a call's log. -/
theorem Logged.other {o : Option Call} (h : Logged init ls c o)
    (hr : Run.run step init ls = some w) (hs : w.step l = some w') (hl : l.call ≠ some c) :
    Logged init (ls ++ [l]) c o := by
  have hne : l ≠ .act c .send := by
    rintro rfl
    exact hl rfl
  cases o with
  | none =>
      intro k hk
      obtain hk | hk := List.mem_append.mp hk
      · exact h k hk
      · rw [List.mem_singleton.mp hk]
        exact hl
  | some call =>
      obtain ⟨hunsent, hsent, hcheck⟩ := h
      refine ⟨fun hp => ?_, fun hp => List.mem_append_left _ (hsent hp), hcheck⟩
      obtain ⟨hmem, halong⟩ := hunsent hp
      refine ⟨?_, (Run.along_concat_iff hr hs).mpr ⟨halong, fun h => absurd h hl⟩⟩
      rw [List.mem_append, List.mem_singleton, not_or]
      exact ⟨hmem, hne.symm⟩

/-- The log of a call that has not been made is harmless. -/
theorem Logged.of_none (h : Logged init ls c none) (n : Nat) :
    .act c .send ∉ ls ∧ Run.Along step (Harmless c n) init ls :=
  ⟨fun hm => h _ hm rfl, Run.along_of_mem fun l hl _ _ _ hc => absurd hc (h l hl)⟩

/-- The log of a call up to a step that does not send. -/
theorem Logged.unsent {call call' : Call} {s : Session} {a : Action}
    (h : Logged init ls c (some call)) (hr : Run.run step init ls = some w)
    (hw : w.Sound) (hc : w.calls c = some call) (ht : Took c w.session call a s call')
    (hs : w.step (.act c a) = some (w.put s c call')) (hp : call.phase.Unsent) (ha : a ≠ .send) :
    .act c .send ∉ ls ++ [.act c a] ∧
      Run.Along step (Harmless c call'.allocated) init (ls ++ [.act c a]) := by
  obtain ⟨hmem, halong⟩ := h.1 hp
  constructor
  · rw [List.mem_append, List.mem_singleton, not_or]
    exact ⟨hmem, fun h => ha (Label.act.inj h).2.symm⟩
  · rw [Run.along_concat_iff hr hs]
    refine ⟨halong.imp fun m l t _ hm hl => ?_, fun _ => ?_⟩
    · obtain ⟨hf, hcl, hq⟩ := hm hl
      exact ⟨hf, hcl, fun h0 => hq (ht.allocated_eq_zero h0)⟩
    · exact ht.harmless hp (hw.owns hc) (hw.rest_of_holds hc)

/-- The log of a call after one of its steps. -/
theorem Logged.act {call call' : Call} {s : Session} {a : Action}
    (h : Logged init ls c (some call)) (hr : Run.run step init ls = some w)
    (hw : w.Sound) (hc : w.calls c = some call) (ht : Took c w.session call a s call')
    (hs : w.step (.act c a) = some (w.put s c call')) :
    Logged init (ls ++ [.act c a]) c (some call') := by
  refine ⟨fun hp => ?_, fun hp => ?_, ht.unchecked_allocated h.2.2⟩
  · obtain hu | hu := ht.unsent_or_sent
    · obtain ⟨ha, -⟩ | ⟨-, hp'⟩ := ht.unsent_or hu
      · exact h.unsent hr hw hc ht hs hu ha
      · exact absurd hp hp'.not_unsent
    · obtain ⟨-, hp' | hp'⟩ := ht.sent_ne_send hu
      · exact absurd hp hp'.not_unsent
      · exact absurd hp hp'.not_unsent
  · obtain hu | hu := ht.unsent_or_sent
    · obtain ⟨-, hp' | hp'⟩ | ⟨ha, -⟩ := ht.unsent_or hu
      · exact absurd hp' hp.not_unsent
      · exact absurd hp hp'.not_sent
      · rw [ha]
        exact List.mem_append_right _ List.mem_cons_self
    · exact List.mem_append_left _ (h.2.1 hu)

/-- Every run logs its calls. -/
theorem logged_run {protocol : ReceiverRef → UInt32}
    (h : Run.run step (opened protocol) ls = some w) (c : CallId) :
    Logged (opened protocol) ls c (w.calls c) := by
  have hnone : Logged (opened protocol) [] c none := fun _ hl => absurd hl List.not_mem_nil
  refine Run.run_induction (P := fun ls w => Logged (opened protocol) ls c (w.calls c)) hnone
    (fun ls m l t hr hm hs => ?_) h
  have hw := sound_run hr
  obtain ⟨d, cmd, now, rfl, hd, rfl⟩ | ⟨d, a, call, s, call', rfl, hd, ht, rfl⟩ |
    ⟨k, a, s, p, rfl, -, rfl⟩ | ⟨s, hl, -, rfl⟩ := step_cases hs
  · by_cases hdc : c = d
    · subst hdc
      rw [put_calls_self]
      rw [hd] at hm
      obtain ⟨hmem, halong⟩ := hm.of_none (Call.enter cmd now).allocated
      refine ⟨fun _ => ⟨?_, (Run.along_concat_iff hr hs).mpr ⟨halong, harmless_enter _ _ _ _ _⟩⟩,
        fun hp => ?_, fun _ => ?_⟩
      · simpa using hmem
      · rw [Call.enter] at hp
        split at hp <;> exact hp.elim
      · rw [Call.enter]
        split <;> rfl
    · rw [put_calls_of_ne _ _ _ hdc]
      exact hm.other hr hs fun h => hdc (Option.some.inj h).symm
  · by_cases hdc : c = d
    · subst hdc
      rw [put_calls_self]
      rw [hd] at hm
      exact hm.act hr hw hd ht hs
    · rw [put_calls_of_ne _ _ _ hdc]
      exact hm.other hr hs fun h => hdc (Option.some.inj h).symm
  · exact hm.other hr hs (fun h => by cases h)
  · exact hm.other hr hs (fun h => by rw [hl] at h; cases h)

/-! ## the outcome of a call -/

/-- The outcomes exclude each other: a call that returned did not throw, -/
theorem Answered.not_unsent (h : Answered w c) : ¬ Unsent init ls w c := by
  rintro ⟨call', e, hc', hp', -⟩
  obtain ⟨call, body, hc, hp, -⟩ := h
  cases hc.symm.trans hc'
  cases hp.symm.trans hp'

/-- before its send or after it; -/
theorem Answered.not_poisoned (h : Answered w c) : ¬ Poisoned ls w c := by
  rintro ⟨call', e, hc', hp', -⟩
  obtain ⟨call, body, hc, hp, -⟩ := h
  cases hc.symm.trans hc'
  cases hp.symm.trans hp'

/-- and a call that threw was sent or was not. -/
theorem Unsent.not_poisoned (h : Unsent init ls w c) : ¬ Poisoned ls w c := by
  rintro ⟨call', e, hc', hp', hmem, -⟩
  obtain ⟨call, e, hc, hp, hnot, -⟩ := h
  exact hnot hmem

/-- A call that ends before its send leaves nothing behind. -/
theorem unsent_of_took {call call' : Call} {s : Session} {a : Action}
    (h : Logged init ls c (some call)) (hr : Run.run step init ls = some w)
    (hw : w.Sound) (hc : w.calls c = some call) (ht : Took c w.session call a s call')
    (hs : w.step (.act c a) = some (w.put s c call')) (hp : call.phase.Unsent)
    (hend : call'.phase.Ended) : Unsent init (ls ++ [.act c a]) (w.put s c call') c := by
  have ha : a ≠ .send := by
    obtain ⟨ha, -⟩ | ⟨-, hp'⟩ := ht.unsent_or hp
    · exact ha
    · exact absurd hp' hend.not_sent
  obtain ⟨hmem, halong⟩ := h.unsent hr hw hc ht hs hp ha
  obtain ⟨e, he, hfree⟩ : ∃ e, call'.phase = .threw e ∧
      (call'.allocated ≠ 0 → s.used call'.allocated = 0 ∧ s.pending = 0) := by
    cases ht with
    | undo e hp' => exact ⟨e, rfl, fun _ => ⟨Function.update_self .., rfl⟩⟩
    | slotTimeout _ hp' | closing _ hp' | failed _ hp' | full _ _ hp' | oversize _ _ _ hp' =>
        exact ⟨_, rfl, fun hne => absurd (h.2.2 (by rw [hp']; trivial)) hne⟩
    | slot | allocated | known | knownThrows | late | budget | send | sendReturns | sendThrows =>
        exact hend.elim
    | abandon _ hp' | woken _ hp' | answered _ hp' | expire _ hp' =>
        rw [hp'] at hp
        exact hp.elim
  exact ⟨call', e, put_calls_self .., he, hmem, hfree, halong⟩

/-- A call that ends after its send was answered, or has poisoned the session. -/
theorem answered_or_poisoned {call call' : Call} {s : Session} {a : Action}
    (h : Logged init ls c (some call)) (hw : w.Sound) (hc : w.calls c = some call)
    (ht : Took c w.session call a s call') (hp : call.phase.Sent) (hend : call'.phase.Ended) :
    Answered (w.put s c call') c ∨ Poisoned (ls ++ [.act c a]) (w.put s c call') c := by
  have hmem : .act c .send ∈ ls ++ [.act c a] := List.mem_append_left _ (h.2.1 hp)
  have hpoison {e : Exception} (he : call'.phase = .threw e) (hu : ¬ s.usable) :
      Poisoned (ls ++ [.act c a]) (w.put s c call') c :=
    ⟨call', e, put_calls_self .., he, hmem, fun _ _ hr => not_usable_of_run hr hu⟩
  cases ht with
  | answered body hp' hu hr =>
      have hown : call.Owns w.session := hw.owns hc (by rw [hp']; trivial)
      exact .inl ⟨call.goto (.returned body), body, put_calls_self .., rfl, hown.response body hr,
        Function.update_self .., hu⟩
  | abandon e hp' =>
      refine .inr (hpoison rfl fun hu => ?_)
      have hf : (if w.session.failure = "" then "write failed; reopen before retrying"
          else w.session.failure) = "" := hu.2
      split at hf
      · exact absurd hf (by decide)
      · next hne => exact hne hf
  | woken e hp' hu => exact .inr (hpoison rfl hu)
  | expire now hp' hr hu hd => exact .inr (hpoison rfl fun hu' => timeout_reason_ne hu'.2)
  | slot | sendReturns | sendThrows => exact hend.elim
  | slotTimeout _ hp' | closing _ hp' | failed _ hp' | full _ _ hp' | oversize _ _ _ hp'
  | allocated _ _ _ hp' | known hp' | knownThrows _ _ hp' | late _ hp' | budget _ _ hp'
  | send _ hp' | undo _ hp' =>
      rw [hp'] at hp
      exact hp.elim

/-- The step that ends a call gives it one of the three outcomes. -/
theorem outcome_of_step {protocol : ReceiverRef → UInt32}
    (hr : Run.run step (opened protocol) ls = some w) (hs : w.step l = some w')
    (hlive : ¬ w.Ended c) (hend : w'.Ended c) :
    Answered w' c ∨ Unsent (opened protocol) (ls ++ [l]) w' c ∨ Poisoned (ls ++ [l]) w' c := by
  have hw := sound_run hr
  have hlog := logged_run hr c
  obtain ⟨call', hc', hend'⟩ := hend
  have hother : w'.calls c ≠ w.calls c := fun h => hlive ⟨call', h ▸ hc', hend'⟩
  obtain ⟨d, cmd, now, rfl, hd, rfl⟩ | ⟨d, a, call, s, new, rfl, hd, ht, rfl⟩ |
    ⟨k, a, s, p, rfl, -, rfl⟩ | ⟨s, hl, -, rfl⟩ := step_cases hs
  · by_cases hdc : c = d
    · subst hdc
      rw [put_calls_self] at hc'
      cases hc'
      rw [hd] at hlog
      obtain ⟨hmem, halong⟩ := hlog.of_none (Call.enter cmd now).allocated
      obtain ⟨e, he, h0⟩ : ∃ e, (Call.enter cmd now).phase = .threw e ∧
          (Call.enter cmd now).allocated = 0 := by
        rw [Call.enter] at hend' ⊢
        split at hend'
        · next hbad => rw [if_pos hbad]; exact ⟨_, rfl, rfl⟩
        · exact hend'.elim
      refine .inr (.inl ⟨_, e, put_calls_self .., he, by simpa using hmem, fun hne => absurd h0 hne,
        (Run.along_concat_iff hr hs).mpr ⟨halong, harmless_enter _ _ _ _ _⟩⟩)
    · exact absurd (put_calls_of_ne _ _ _ hdc) hother
  · by_cases hdc : c = d
    · subst hdc
      rw [put_calls_self] at hc'
      cases hc'
      rw [hd] at hlog
      obtain hp | hp := ht.unsent_or_sent
      · exact .inr (.inl (unsent_of_took hlog hr hw hd ht hs hp hend'))
      · obtain h | h := answered_or_poisoned hlog hw hd ht hp hend'
        · exact .inl h
        · exact .inr (.inr h)
    · exact absurd (put_calls_of_ne _ _ _ hdc) hother
  · exact absurd rfl hother
  · exact absurd rfl hother

/-- **How commands end.** After any interleaving: a step that ends a call of
`command` leaves it in exactly one of the three outcomes; a failure is never
overwritten; an unusable session stays unusable; and on it no call whose state
check is still to come ever sends. -/
theorem command_outcome {protocol : ReceiverRef → UInt32} {ls : List Label} {w : World}
    (hr : Run.run step (opened protocol) ls = some w) :
    (∀ l w' c, w.step l = some w' → ¬ w.Ended c → w'.Ended c →
      (Answered w' c ∧ ¬ Unsent (opened protocol) (ls ++ [l]) w' c ∧ ¬ Poisoned (ls ++ [l]) w' c) ∨
      (¬ Answered w' c ∧ Unsent (opened protocol) (ls ++ [l]) w' c ∧ ¬ Poisoned (ls ++ [l]) w' c) ∨
      (¬ Answered w' c ∧ ¬ Unsent (opened protocol) (ls ++ [l]) w' c ∧ Poisoned (ls ++ [l]) w' c)) ∧
    (∀ l w', w.step l = some w' → w.session.failure ≠ "" →
      w'.session.failure = w.session.failure) ∧
    (¬ w.session.usable → ∀ ls' w', Run.run step w ls' = some w' → ¬ w'.session.usable ∧
      ∀ c, w.Unchecked c → .act c .send ∉ ls') := by
  refine ⟨fun l w' c hs hlive hend => ?_, fun l w' => failure_of_step,
    fun hu ls' w' h => ⟨not_usable_of_run h hu, fun c hc => not_sent_of_unchecked h hu hc⟩⟩
  obtain h | h | h := outcome_of_step hr hs hlive hend
  · exact .inl ⟨h, h.not_unsent, h.not_poisoned⟩
  · exact .inr (.inl ⟨fun ha => ha.not_unsent h, h, h.not_poisoned⟩)
  · exact .inr (.inr ⟨fun ha => ha.not_poisoned h, fun hu => hu.not_poisoned h, h⟩)

/-- A command nobody answers poisons the session when its deadline passes. -/
theorem command_outcome_unanswered :
    ∃ w w', Run.run step (opened fun _ => CAN)
        [.enter 0 { opcode := 3, timeout := 10 } 0, .act 0 .slot, .act 0 (.start 1), .act 0 .known,
          .act 0 (.budget 2), .act 0 .send, .act 0 .sendReturns] = some w ∧
      w.step (.act 0 (.expire 10000000)) = some w' ∧ ¬ w'.session.usable ∧
      ∀ ls'' w'', Run.run step w' ls'' = some w'' → ¬ w''.session.usable := by
  refine ⟨_, _, rfl, rfl, ?_⟩
  obtain ⟨hout, -, -⟩ := @command_outcome (fun _ => CAN)
    [.enter 0 { opcode := 3, timeout := 10 } 0, .act 0 .slot, .act 0 (.start 1), .act 0 .known,
      .act 0 (.budget 2), .act 0 .send, .act 0 .sendReturns] _ rfl
  obtain ⟨⟨_, _, hc, hp, -⟩, -⟩ | ⟨-, ⟨_, _, _, _, hmem, -⟩, -⟩ | ⟨-, -, ⟨_, _, _, _, _, hu⟩⟩ :=
    hout (.act 0 (.expire 10000000)) _ 0 rfl (by rintro ⟨_, hc, hend⟩; cases hc; exact hend)
      ⟨_, rfl, trivial⟩
  · cases hc; cases hp
  · exact absurd (by simp) hmem
  · exact ⟨hu [] _ rfl, hu⟩

end World

end Mongoose
