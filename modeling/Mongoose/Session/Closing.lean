import Mongoose.Session.Outcome

/-!
# Mongoose.Session.Closing

Closing a session while commands are in flight.

`close` holds `close_mutex_` throughout, sets `closing_` under the state's lock and
stops the transport under `transaction_`.  `World.Closers` says where the closers of a
run can stand, and `close_drains` what it means for the commands: the transport is
stopped once, with no send in progress or to come.
-/

namespace Mongoose

/-- The transport's stop is called. -/
def Label.stops : Label → Bool
  | .close _ .stop => true
  | _ => false

namespace ClosePhase

/-- The closer has set `closing_` and is not done. -/
def Marked : ClosePhase → Prop
  | .draining | .drained | .stopping => True
  | _ => False

/-- The closer is still to stop the transport. -/
def Before : ClosePhase → Prop
  | .draining | .drained => True
  | _ => False

end ClosePhase

/-! ## steps -/

/-- No command closes or stops a session. -/
theorem Took.close_eq {c : CallId} {s s' : Session} {call call' : Call} {a : Action}
    (h : Took c s call a s' call') :
    s'.stopped = s.stopped ∧ s'.close_mutex = s.close_mutex ∧ s'.closing = s.closing := by
  cases h with
  | known hp => rw [Call.known]; split <;> exact ⟨rfl, rfl, rfl⟩
  | _ => exact ⟨rfl, rfl, rfl⟩

/-- Nor does the transport, or a channel. -/
theorem World.environment_close_eq {s s' : Session} {l : Label} (h : environment s l = some s') :
    s'.stopped = s.stopped ∧ s'.close_mutex = s.close_mutex ∧ s'.closing = s.closing := by
  cases l with
  | receive bytes =>
      obtain ⟨bodies, decoder, -, ht⟩ := Session.receive_ok (Session.receive_of_environment h)
      rw [ht]
      exact ⟨rfl, rfl, rfl⟩
  | set_can_receiver receiver =>
      cases h
      rw [Session.set_can_receiver]
      split <;> exact ⟨rfl, rfl, rfl⟩
  | failed | client => cases h; exact ⟨rfl, rfl, rfl⟩
  | enter | act | close => cases h

/-- The outcomes of a section of `close`. -/
inductive Closed (k : CloserId) (s : Session) : Option ClosePhase → CloseAction → Session →
    ClosePhase → Prop
  | lock (hm : s.close_mutex = none) :
      Closed k s none .lock { s with close_mutex := some k } .locked
  | again (hs : s.stopped = true) :
      Closed k s (some .locked) .mark { s with close_mutex := none } .done
  | mark (hs : s.stopped = false) :
      Closed k s (some .locked) .mark
        ({ s with closing := true }.stop_receiver ERR_DEVICE_NOT_CONNECTED "device closed") .draining
  | drain (ht : s.transaction = none) :
      Closed k s (some .draining) .drain { s with transaction := some (.close k) } .drained
  | stop : Closed k s (some .drained) .stop { s with stopped := true } .stopping
  | done :
      Closed k s (some .stopping) .done { s with transaction := none, close_mutex := none } .done

/-- A closer does nothing but what `Closed` lists. -/
theorem closed_of_close {k : CloserId} {s s' : Session} {p : Option ClosePhase} {p' : ClosePhase}
    {a : CloseAction} (h : s.close k p a = some (s', p')) : Closed k s p a s' p' := by
  cases a with
  | lock =>
      obtain ⟨⟨hp, hm⟩, h⟩ := Option.ite_none_right_eq_some.mp h
      cases h
      exact hp ▸ .lock hm
  | mark =>
      obtain ⟨hp, h⟩ := Option.ite_none_right_eq_some.mp h
      rw [hp]
      rw [Session.mark_closing] at h
      split at h
      · next hs => cases h; exact .again hs
      · next hs => cases h; exact .mark (by simpa using hs)
  | drain =>
      obtain ⟨⟨hp, ht⟩, h⟩ := Option.ite_none_right_eq_some.mp h
      cases h
      exact hp ▸ .drain ht
  | stop =>
      obtain ⟨hp, h⟩ := Option.ite_none_right_eq_some.mp h
      cases h
      exact hp ▸ .stop
  | done =>
      obtain ⟨hp, h⟩ := Option.ite_none_right_eq_some.mp h
      cases h
      exact hp ▸ .done

/-- A command that does not hold `transaction_` is before its check or over. -/
theorem Phase.unchecked_or_of_not_holds {p : Phase} (h : ¬ p.Holds) : p.Unchecked ∨ p.Ended := by
  cases p with
  | slot => exact .inl trivial
  | returned | threw => exact .inr trivial
  | _ => exact absurd trivial h

namespace World

variable {w w' : World} {l : Label} {ls : List Label} {c : CallId}

/-! ## the closers -/

/-- Where the closers of a run stand, and how often they stopped the transport. -/
structure Closers (ls : List Label) (w : World) : Prop where
  mutex : ∀ k p, w.closers k = some p → p ≠ .done → w.session.close_mutex = some k
  closing : ∀ k p, w.closers k = some p → p.Marked → w.session.closing = true
  before : ∀ k p, w.closers k = some p → p.Before → w.session.stopped = false
  count : ls.countP Label.stops = if w.session.stopped then 1 else 0

theorem closers_opened (protocol : ReceiverRef → UInt32) : Closers [] (opened protocol) where
  mutex := fun _ _ h => nomatch h
  closing := fun _ _ h => nomatch h
  before := fun _ _ h => nomatch h
  count := rfl

/-- Steps of other threads leave the closers as they are. -/
theorem Closers.other (h : Closers ls w) (hc : w'.closers = w.closers)
    (hs : w'.session.stopped = w.session.stopped ∧ w'.session.close_mutex = w.session.close_mutex ∧
      w'.session.closing = w.session.closing) (hl : l.stops = false) : Closers (ls ++ [l]) w' where
  mutex := by rw [hc, hs.2.1]; exact h.mutex
  closing := by rw [hc, hs.2.2]; exact h.closing
  before := by rw [hc, hs.1]; exact h.before
  count := by simp [h.count, hs.1, hl]

/-- A closer that is not done is the only one. -/
theorem Closers.eq (h : Closers ls w) {j k : CloserId} {p q : ClosePhase} (hj : w.closers j = some p)
    (hk : w.closers k = some q) (hp : p ≠ .done) (hq : q ≠ .done) : j = k :=
  Option.some.inj ((h.mutex j p hj hp).symm.trans (h.mutex k q hk hq))

theorem Closers.close (h : Closers ls w) {k : CloserId} {a : CloseAction} {s : Session}
    {p : ClosePhase} (hs : Closed k w.session (w.closers k) a s p) :
    Closers (ls ++ [.close k a]) { w with session := s, closers := Function.update w.closers k (some p) } := by
  -- no other closer is on its way while this one holds `close_mutex_`
  have hother {j : CloserId} {q q' : ClosePhase} (hjk : j ≠ k) (hj : w.closers j = some q)
      (hk : w.closers k = some q') (hq' : q' ≠ .done) : q = .done := by
    by_contra hq
    exact hjk (h.eq hj hk hq hq')
  have hcases {P : CloserId → ClosePhase → Prop} (hself : P k p)
      (hrest : ∀ j q, j ≠ k → w.closers j = some q → P j q) :
      ∀ j q, Function.update w.closers k (some p) j = some q → P j q := by
    intro j q hj
    by_cases hjk : j = k
    · subst hjk
      rw [Function.update_self] at hj
      cases hj
      exact hself
    · rw [Function.update_of_ne hjk] at hj
      exact hrest j q hjk hj
  generalize hk : w.closers k = o at hs
  have hsame (hl : (Label.close k a).stops = false) :
      (ls ++ [Label.close k a]).countP Label.stops = if w.session.stopped then 1 else 0 := by
    simp [hl, h.count]
  cases hs with
  | lock hm =>
      refine ⟨hcases (fun _ => rfl) fun j q _ hj hq => ?_, hcases False.elim fun j q _ => h.closing j q,
        hcases False.elim fun j q _ => h.before j q, hsame rfl⟩
      have := h.mutex j q hj hq
      rw [hm] at this
      cases this
  | again hs =>
      refine ⟨hcases (fun hne => absurd rfl hne) fun j q hjk hj hq => ?_,
        hcases False.elim fun j q _ => h.closing j q, hcases False.elim fun j q _ => h.before j q,
        hsame rfl⟩
      exact absurd (hother hjk hj hk (by decide)) hq
  | mark hs =>
      exact ⟨hcases (fun _ => h.mutex k _ hk (by decide)) fun j q _ => h.mutex j q,
        hcases (fun _ => rfl) fun _ _ _ _ _ => rfl, hcases (fun _ => hs) fun j q _ => h.before j q,
        hsame rfl⟩
  | drain ht =>
      exact ⟨hcases (fun _ => h.mutex k _ hk (by decide)) fun j q _ => h.mutex j q,
        hcases (fun _ => h.closing k _ hk trivial) fun j q _ => h.closing j q,
        hcases (fun _ => h.before k _ hk trivial) fun j q _ => h.before j q,
        hsame rfl⟩
  | stop =>
      have hfirst := h.before k _ hk trivial
      refine ⟨hcases (fun _ => h.mutex k _ hk (by decide)) fun j q _ => h.mutex j q,
        hcases (fun _ => h.closing k _ hk trivial) fun j q _ => h.closing j q,
        hcases False.elim fun j q hjk hj hq => ?_, by simp [Label.stops, h.count, hfirst]⟩
      rw [hother hjk hj hk (by decide)] at hq
      cases hq
  | done =>
      refine ⟨hcases (fun hne => absurd rfl hne) fun j q hjk hj hq => ?_,
        hcases False.elim fun j q _ => h.closing j q, hcases False.elim fun j q _ => h.before j q,
        hsame rfl⟩
      exact absurd (hother hjk hj hk (by decide)) hq

theorem closers_run {protocol : ReceiverRef → UInt32} (h : Run.run step (opened protocol) ls = some w) :
    Closers ls w := by
  refine Run.run_induction (P := Closers) (closers_opened protocol) (fun ls m l t _ hm hs => ?_) h
  obtain ⟨c, cmd, now, rfl, -, rfl⟩ | ⟨c, a, call, s, call', rfl, -, ht, rfl⟩ |
    ⟨k, a, s, p, rfl, hk, rfl⟩ | ⟨s, -, he, rfl⟩ := step_cases hs
  · exact hm.other rfl ⟨rfl, rfl, rfl⟩ rfl
  · exact hm.other rfl ht.close_eq rfl
  · exact hm.close (closed_of_close hk)
  · refine hm.other rfl (environment_close_eq he) ?_
    cases l with
    | close => cases he
    | _ => rfl

/-! ## the commands -/

/-- While a closer holds `transaction_` no command does. -/
theorem Sound.not_holds_of_close (hw : w.Sound) {k : CloserId}
    (hk : w.closers k = some .drained ∨ w.closers k = some .stopping) {call : Call}
    (hc : w.calls c = some call) : ¬ call.phase.Holds := fun hh => by
  have hcommand := hw.holds hc hh
  rw [hw.closes hk] at hcommand
  cases hcommand

/-- On an unusable session a command that has not ended never returns. -/
theorem not_returned_of_step (hu : ¬ w.session.usable) (h : w.step l = some w')
    (hc : ∀ call body, w.calls c = some call → call.phase ≠ .returned body) :
    ∀ call body, w'.calls c = some call → call.phase ≠ .returned body := by
  intro call body hc' hp
  obtain ⟨d, cmd, now, -, -, rfl⟩ | ⟨d, a, old, s, new, -, hd, ht, rfl⟩ |
    ⟨k, a, s, p, -, -, rfl⟩ | ⟨s, -, -, rfl⟩ := step_cases h
  · by_cases hdc : c = d
    · subst hdc
      rw [put_calls_self] at hc'
      cases hc'
      rw [Call.enter] at hp
      split at hp <;> cases hp
    · rw [put_calls_of_ne _ _ _ hdc] at hc'
      exact hc call body hc' hp
  · by_cases hdc : c = d
    · subst hdc
      rw [put_calls_self] at hc'
      cases hc'
      cases ht with
      | answered _ _ hu' => exact hu hu'
      | budget | late => cases hp
      | _ => cases hp
    · rw [put_calls_of_ne _ _ _ hdc] at hc'
      exact hc call body hc' hp
  · exact hc call body hc' hp
  · exact hc call body hc' hp

/-- A command that waits on an unusable session can wake, and whatever it does it throws. -/
theorem waiting_throws (hu : ¬ w.session.usable) {call : Call} (hc : w.calls c = some call)
    (hp : call.phase = .waiting) :
    (∃ w', w.step (.act c .wake) = some w') ∧
      ∀ a w', w.step (.act c a) = some w' →
        ∃ call' e, w'.calls c = some call' ∧ call'.phase = .threw e := by
  constructor
  · have hready : w.session.ready := by
      obtain h | h := not_usable_iff.mp hu
      · exact .inr (.inl h)
      · exact .inr (.inr h)
    simp [step, hc, Call.step, hp, hready]
  · intro a w' h
    obtain ⟨_, _, _, hl, -⟩ | ⟨d, b, old, s, new, hl, hd, ht, rfl⟩ | ⟨_, _, _, _, hl, -⟩ |
      ⟨_, hl, -⟩ := step_cases h
    · cases hl
    · cases hl
      cases hd.symm.trans hc
      cases ht with
      | woken e => exact ⟨_, e, put_calls_self .., rfl⟩
      | answered _ _ hu' | expire _ _ _ hu' => exact absurd hu' hu
      | slot hp' | slotTimeout _ hp' | closing _ hp' | failed _ hp' | full _ _ hp'
      | oversize _ _ _ hp' | allocated _ _ _ hp' | known hp' | knownThrows _ _ hp' | late _ hp'
      | budget _ _ hp' | send _ hp' | sendReturns hp' | sendThrows _ hp' | undo _ hp'
      | abandon _ hp' => cases hp'.symm.trans hp
    · cases hl
    · cases hl

/-- **Closing drains the commands.** Over every interleaving the transport is stopped at
most once, while no send is in progress and before any later one; a command that waits
once `closing_` is set can only throw, none returns from then on, and one that has yet
to check the state, as every command that gets `transaction_` later, never sends. -/
theorem close_drains {protocol : ReceiverRef → UInt32}
    (h : Run.run step (opened protocol) ls = some w) :
    ls.countP Label.stops ≤ 1 ∧
    (∀ k, w.closers k = some .drained ∨ w.closers k = some .stopping →
      ∀ c call, w.calls c = some call → call.phase ≠ .sent) ∧
    (∀ a l b, ls = a ++ l :: b → l.stops = true → ∀ c, .act c .send ∉ b) ∧
    (w.session.closing = true →
      (∀ c call, w.calls c = some call → call.phase = .waiting →
        (∃ w', w.step (.act c .wake) = some w') ∧
        ∀ a w', w.step (.act c a) = some w' →
          ∃ call' e, w'.calls c = some call' ∧ call'.phase = .threw e) ∧
      ∀ ls' w', Run.run step w ls' = some w' →
        (∀ c, ¬ w.Ended c → ∀ call body, w'.calls c = some call → call.phase ≠ .returned body) ∧
        ∀ c, w.Unchecked c → .act c .send ∉ ls') := by
  have hclosers := closers_run h
  refine ⟨?_, fun k hk c call hc hp => ?_, ?_, fun hclosing => ?_⟩
  · rw [hclosers.count]
    split <;> omega
  · exact (sound_run h).not_holds_of_close hk hc (by rw [hp]; trivial)
  · rintro a l b rfl hl
    obtain ⟨m, hm, hb⟩ := Run.run_append_iff.mp h
    obtain ⟨m', hs, hb⟩ := Run.run_cons_iff.mp hb
    obtain ⟨k, rfl⟩ : ∃ k, l = .close k .stop := by
      unfold Label.stops at hl
      split at hl
      · exact ⟨_, rfl⟩
      · cases hl
    obtain ⟨_, _, _, hl, -⟩ | ⟨_, _, _, _, _, hl, -⟩ | ⟨j, a', s, p, hl, hk, rfl⟩ | ⟨_, hl, he, -⟩ :=
      step_cases hs
    · cases hl
    · cases hl
    · cases hl
      -- the stop is under `transaction_`, so the commands are before their check or over
      have hk := closed_of_close hk
      generalize hkp : m.closers k = o at hk
      cases hk with
      | stop =>
          have hmark := (closers_run hm).closing k _ hkp trivial
          have hu : ¬ ({ m.session with stopped := true } : Session).usable := not_usable_iff.mpr (.inl hmark)
          refine fun c => not_sent_of_unchecked_or hb hu fun call hc => ?_
          exact Phase.unchecked_or_of_not_holds ((sound_run hm).not_holds_of_close (.inl hkp) hc)
    · cases he
  · have hu : ¬ w.session.usable := not_usable_iff.mpr (.inl hclosing)
    refine ⟨fun c call hc hp => waiting_throws hu hc hp, fun ls' w' h' =>
      ⟨fun c hlive => ?_, fun c hc => not_sent_of_unchecked h' hu hc⟩⟩
    have hnone : ∀ call body, w.calls c = some call → call.phase ≠ .returned body :=
      fun call body hc hp => hlive ⟨call, hc, by rw [hp]; trivial⟩
    refine (Run.invariant (I := fun w => ¬ w.session.usable ∧
      ∀ call body, w.calls c = some call → call.phase ≠ .returned body) ?_ ⟨hu, hnone⟩ h').2
    exact fun m l t ⟨hm, hc⟩ hs => ⟨not_usable_of_step hs hm, not_returned_of_step hm hs hc⟩

/-- A command that waits while two closers come: it throws, and the transport stops once. -/
def drained : List Label :=
  [.enter 0 { opcode := 3 } 0, .act 0 .slot, .act 0 (.start 1), .act 0 .known, .act 0 (.budget 2),
    .act 0 .send, .act 0 .sendReturns, .close 0 .lock, .close 0 .mark, .act 0 .wake, .close 0 .drain,
    .close 0 .stop, .close 0 .done, .close 1 .lock, .close 1 .mark]

theorem close_drains_two :
    ∃ w, Run.run step (opened fun _ => CAN) drained = some w ∧ w.Ended 0 ∧
      drained.countP Label.stops = 1 ∧ drained.countP Label.stops ≤ 1 := by
  have hrun : Run.run step (opened fun _ => CAN) drained = some _ := rfl
  exact ⟨_, hrun, ⟨_, rfl, trivial⟩, by decide, (close_drains hrun).1⟩

end World

end Mongoose
