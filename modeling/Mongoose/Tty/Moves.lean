import Mongoose.Tty.Line
import Mongoose.Tty.Send

/-!
# Mongoose.Tty.Moves

What each step of the transport can do.

`Sent`, `Stopped` and `Pumped` list the outcomes of a step of each kind of thread, and
`step_cases` says that there are no others.
-/

namespace Mongoose

namespace Line

variable {ι : Type} {strerror : Int → String} {tty tty' : TtyMembers ι} {i : ι}
  {v v' : Visit} {l l' : Line ι}

/-! ## the worker -/

/-- The outcomes of a step of the worker: where it goes on. -/
inductive Pumped (tty : TtyMembers ι) : PumpPhase → PumpStep → TtyMembers ι → Prop
  | quit (hs : tty.stopping = true) : Pumped tty .top .test { tty with worker := some .exited }
  | runs (hs : tty.stopping = false) : Pumped tty .top .test { tty with worker := some .polling }
  | polled (ready errno : Int) (revents wake_revents : Nat) (q : PumpPhase)
      (hq : q = .top ∨ q = .exited ∨ q = .reading ∨ ∃ reason, q = .faulting reason) :
      Pumped tty .polling (.poll ready errno revents wake_revents) { tty with worker := some q }
  | readFailed (errno : Int) (q : PumpPhase) (hq : q = .top ∨ ∃ reason, q = .faulting reason) :
      Pumped tty .reading (.read (.error errno)) { tty with worker := some q }
  | readNone : Pumped tty .reading (.read (.ok [])) { tty with worker := some .top }
  | readSome (bytes : Bytes) (hne : bytes ≠ []) (hlen : bytes.length ≤ read_chunk) :
      Pumped tty .reading (.read (.ok bytes)) { tty with worker := some (.tracing bytes) }
  | traced (bytes : Bytes) : Pumped tty (.tracing bytes) .trace { tty with worker := some (.delivering bytes) }
  | received (bytes : Bytes) : Pumped tty (.delivering bytes) .receive { tty with worker := some .top }
  | threw (p : PumpPhase) (bytes : Bytes) (what : String) (hp : p = .tracing bytes ∨ p = .delivering bytes) :
      Pumped tty p (.throws what) { tty with worker := some (.faulting what) }
  | faulted (reason : String) :
      Pumped tty (.faulting reason) .fault { tty with stopping := true, worker := some (.reporting reason) }
  | reported (reason : String) : Pumped tty (.reporting reason) .report { tty with worker := some .exited }

theorem pumped_of_pump {p : PumpPhase} {a : PumpStep} (h : pump strerror tty p a = some tty') :
    Pumped tty p a tty' := by
  cases a with
  | test =>
      obtain ⟨rfl, heq⟩ := Option.ite_none_right_eq_some.mp h
      obtain rfl := Option.some.inj heq
      cases hs : tty.stopping with
      | true => exact .quit hs
      | false => exact .runs hs
  | poll ready errno revents wake_revents =>
      obtain ⟨rfl, heq⟩ := Option.ite_none_right_eq_some.mp h
      obtain rfl := Option.some.inj heq
      refine .polled ready errno revents wake_revents _ ?_
      split_ifs <;> simp
  | read result =>
      obtain ⟨rfl, heq⟩ := Option.ite_none_right_eq_some.mp h
      cases result with
      | error errno =>
          obtain rfl := Option.some.inj heq
          refine .readFailed errno _ ?_
          split_ifs <;> simp
      | ok bytes =>
          obtain ⟨hlen, heq⟩ := Option.ite_none_right_eq_some.mp h
          obtain rfl := Option.some.inj heq
          by_cases hne : bytes = []
          · subst hne
            exact .readNone
          · rw [if_neg hne]
            exact .readSome bytes hne hlen
  | trace =>
      simp only [pump] at h
      split at h
      · obtain rfl := Option.some.inj h
        exact .traced _
      · cases h
  | receive =>
      simp only [pump] at h
      split at h
      · obtain rfl := Option.some.inj h
        exact .received _
      · cases h
  | throws what =>
      simp only [pump] at h
      split at h
      · next bytes =>
          obtain rfl := Option.some.inj h
          exact .threw _ bytes what (.inl rfl)
      · next bytes =>
          obtain rfl := Option.some.inj h
          exact .threw _ bytes what (.inr rfl)
      · cases h
  | fault =>
      simp only [pump] at h
      split at h
      · obtain rfl := Option.some.inj h
        exact .faulted _
      · cases h
  | report =>
      simp only [pump] at h
      split at h
      · obtain rfl := Option.some.inj h
        exact .reported _
      · cases h

/-! ## send -/

/-- The outcomes of a step inside `send`. -/
inductive Sent (strerror : Int → String) (tty : TtyMembers ι) (i : ι) :
    Option Visit → SendStep → TtyMembers ι → Visit → Prop
  | refused (data : Bytes) (timeout : Nat) (e : Exception) :
      Sent strerror tty i none (.enter data timeout) tty (.threw e)
  | entered (data : Bytes) (timeout : Nat) (hgood : ¬ bad_arguments data timeout) :
      Sent strerror tty i none (.enter data timeout) tty (.entering data timeout)
  | locked (data : Bytes) (timeout : Nat) (hio : tty.io_mutex = none) :
      Sent strerror tty i (some (.entering data timeout)) .lock
        { tty with io_mutex := some i } (.checking data timeout)
  | stopped (data : Bytes) (timeout : Nat) (e : Exception) (hs : tty.toTty.send data timeout = .error e) :
      Sent strerror tty i (some (.checking data timeout)) .check { tty with io_mutex := none } (.threw e)
  | checked (data : Bytes) (timeout : Nat) (s : Sending) (hs : tty.toTty.send data timeout = .ok s) :
      Sent strerror tty i (some (.checking data timeout)) .check tty (.tracing s)
  | traced (s : Sending) : Sent strerror tty i (some (.tracing s)) .trace tty (.writing s)
  | traceThrew (s : Sending) (e : Exception) :
      Sent strerror tty i (some (.tracing s)) (.traceThrows e) { tty with io_mutex := none } (.threw e)
  | called (s s' : Sending) (e : SystemCall) (hs : s.step strerror e = some s') (hgoes : after_call s' = .writing s')
      (hio : io_after i (after_call s') = some i) :
      Sent strerror tty i (some (.writing s)) (.call e) { tty with io_mutex := some i } (.writing s')
  | ended (s s' : Sending) (e : SystemCall) (v : Visit) (hs : s.step strerror e = some s')
      (hv : v = .sent ∧ s'.phase = .returned ∨ ∃ error, v = .threw error ∧ s'.phase = .threw error) :
      Sent strerror tty i (some (.writing s)) (.call e) { tty with io_mutex := none } v

theorem sent_of_send {o : Option Visit} {a : SendStep} (h : send strerror tty i o a = some (tty', v')) :
    Sent strerror tty i o a tty' v' := by
  cases a with
  | enter data timeout =>
      obtain ⟨rfl, heq⟩ := Option.ite_none_right_eq_some.mp h
      obtain ⟨rfl, rfl⟩ := Prod.mk.inj (Option.some.inj heq)
      by_cases hbad : bad_arguments data timeout
      · rw [if_pos hbad]
        exact .refused data timeout _
      · rw [if_neg hbad]
        exact .entered data timeout hbad
  | lock =>
      simp only [send] at h
      split at h
      · next data timeout =>
          obtain ⟨hio, h⟩ := Option.ite_none_right_eq_some.mp h
          obtain ⟨rfl, rfl⟩ := Prod.mk.inj (Option.some.inj h)
          exact .locked data timeout hio
      · cases h
  | check =>
      simp only [send] at h
      split at h
      · next data timeout =>
          cases hs : tty.toTty.send data timeout with
          | error e =>
              rw [hs] at h
              obtain ⟨rfl, rfl⟩ := Prod.mk.inj (Option.some.inj h)
              exact .stopped data timeout e hs
          | ok s =>
              rw [hs] at h
              obtain ⟨rfl, rfl⟩ := Prod.mk.inj (Option.some.inj h)
              exact .checked data timeout s hs
      · cases h
  | trace =>
      simp only [send] at h
      split at h
      · next s =>
          obtain ⟨rfl, rfl⟩ := Prod.mk.inj (Option.some.inj h)
          exact .traced s
      · cases h
  | traceThrows e =>
      simp only [send] at h
      split at h
      · next s =>
          obtain ⟨rfl, rfl⟩ := Prod.mk.inj (Option.some.inj h)
          exact .traceThrew s e
      · cases h
  | call e =>
      simp only [send] at h
      split at h
      · next s =>
          obtain ⟨s', hs, h⟩ := Option.map_eq_some_iff.mp h
          obtain ⟨rfl, rfl⟩ := Prod.mk.inj h
          cases hp : s'.phase with
          | returned =>
              have hv : after_call s' = .sent := by rw [after_call, hp]
              rw [hv]
              exact .ended s s' e .sent hs (.inl ⟨rfl, hp⟩)
          | threw error =>
              have hv : after_call s' = .threw error := by rw [after_call, hp]
              rw [hv]
              exact .ended s s' e (.threw error) hs (.inr ⟨error, rfl, hp⟩)
          | starting | checking | writing | waiting | polling =>
              have hv : after_call s' = .writing s' := by rw [after_call, hp]
              rw [hv]
              exact .called s s' e hs hv (by rw [hv]; rfl)
      · cases h

/-! ## stop -/

/-- The outcomes of a step inside `stop`. -/
inductive Stopped (tty : TtyMembers ι) (i : ι) : Option Visit → StopStep → TtyMembers ι → StopPhase → Prop
  | entered : Stopped tty i none .enter tty .entering
  | locked (hm : tty.stop_mutex = none) :
      Stopped tty i (some (.stop .entering)) .lock { tty with stop_mutex := some i } .locked
  | closed (hc : tty.closed = true) :
      Stopped tty i (some (.stop .locked)) .test { tty with stop_mutex := none } .done
  | stopping (hc : tty.closed = false) :
      Stopped tty i (some (.stop .locked)) .test { tty with stopping := true } .waking
  | woken : Stopped tty i (some (.stop .waking)) .wake tty .joining
  | joined (hw : tty.worker = none ∨ tty.worker = some .exited) :
      Stopped tty i (some (.stop .joining)) .join { tty with worker := none } .joined
  | locked_io (hio : tty.io_mutex = none) :
      Stopped tty i (some (.stop .joined)) .lock_io { tty with io_mutex := some i } .cleaning
  | cleaned :
      Stopped tty i (some (.stop .cleaning)) .cleanup
        { tty.cleanup.2 with closed := true, io_mutex := none, stop_mutex := none } .done

theorem stopped_of_stop {o : Option Visit} {a : StopStep} (h : stop tty i o a = some (tty', v')) :
    ∃ p, v' = .stop p ∧ Stopped tty i o a tty' p := by
  cases a with
  | enter =>
      obtain ⟨rfl, heq⟩ := Option.ite_none_right_eq_some.mp h
      obtain ⟨rfl, rfl⟩ := Prod.mk.inj (Option.some.inj heq)
      exact ⟨_, rfl, .entered⟩
  | lock =>
      obtain ⟨⟨rfl, hm⟩, heq⟩ := Option.ite_none_right_eq_some.mp h
      obtain ⟨rfl, rfl⟩ := Prod.mk.inj (Option.some.inj heq)
      exact ⟨_, rfl, .locked hm⟩
  | test =>
      obtain ⟨rfl, heq⟩ := Option.ite_none_right_eq_some.mp h
      by_cases hc : tty.closed
      · rw [if_pos hc] at heq
        obtain ⟨rfl, rfl⟩ := Prod.mk.inj (Option.some.inj heq)
        exact ⟨_, rfl, .closed hc⟩
      · rw [if_neg hc] at heq
        obtain ⟨rfl, rfl⟩ := Prod.mk.inj (Option.some.inj heq)
        exact ⟨_, rfl, .stopping (Bool.eq_false_iff.mpr hc)⟩
  | wake =>
      obtain ⟨rfl, heq⟩ := Option.ite_none_right_eq_some.mp h
      obtain ⟨rfl, rfl⟩ := Prod.mk.inj (Option.some.inj heq)
      exact ⟨_, rfl, .woken⟩
  | join =>
      obtain ⟨⟨rfl, hw⟩, heq⟩ := Option.ite_none_right_eq_some.mp h
      obtain ⟨rfl, rfl⟩ := Prod.mk.inj (Option.some.inj heq)
      exact ⟨_, rfl, .joined hw⟩
  | lock_io =>
      obtain ⟨⟨rfl, hio⟩, heq⟩ := Option.ite_none_right_eq_some.mp h
      obtain ⟨rfl, rfl⟩ := Prod.mk.inj (Option.some.inj heq)
      exact ⟨_, rfl, .locked_io hio⟩
  | cleanup =>
      obtain ⟨rfl, heq⟩ := Option.ite_none_right_eq_some.mp h
      obtain ⟨rfl, rfl⟩ := Prod.mk.inj (Option.some.inj heq)
      exact ⟨_, rfl, .cleaned⟩

/-! ## where a thread was -/

/-- A thread that was nowhere enters. -/
theorem Sent.enters {a : SendStep} (h : Sent strerror tty i none a tty' v') : ∃ data timeout, a = .enter data timeout := by
  cases h <;> exact ⟨_, _, rfl⟩

theorem Stopped.enters {a : StopStep} {p : StopPhase} (h : Stopped tty i none a tty' p) : a = .enter := by
  cases h
  rfl

/-- A thread goes on with what it was in. -/
theorem Sent.goes {a : SendStep} (h : Sent strerror tty i (some v) a tty' v') :
    (∀ p, v ≠ .stop p) ∧ v ≠ .sent ∧ ∀ e, v ≠ .threw e := by
  cases h <;> exact ⟨nofun, nofun, nofun⟩

theorem Stopped.goes {a : StopStep} {p : StopPhase} (h : Stopped tty i (some v) a tty' p) :
    ∃ q, v = .stop q ∧ q ≠ .done := by
  cases h <;> exact ⟨_, rfl, nofun⟩

/-! ## one step -/

/-- A step is one of a thread inside `send`, of one inside `stop`, or of the worker. -/
theorem step_cases [DecidableEq ι] {a : Label ι} (h : step strerror l a = some l') :
    (∃ i b tty v, a = .send i b ∧ Sent strerror l.tty i (l.threads i) b tty v ∧ l' = l.put tty i v) ∨
      (∃ i b tty p, a = .stop i b ∧ Stopped l.tty i (l.threads i) b tty p ∧ l' = l.put tty i (.stop p)) ∨
      ∃ b p tty, a = .pump b ∧ l.tty.worker = some p ∧ Pumped l.tty p b tty ∧ l' = { l with tty := tty } := by
  cases a with
  | send i b =>
      obtain ⟨⟨tty, v⟩, hs, rfl⟩ := Option.map_eq_some_iff.mp h
      exact .inl ⟨i, b, tty, v, rfl, sent_of_send hs, rfl⟩
  | stop i b =>
      obtain ⟨⟨tty, v⟩, hs, rfl⟩ := Option.map_eq_some_iff.mp h
      obtain ⟨p, rfl, hp⟩ := stopped_of_stop hs
      exact .inr (.inl ⟨i, b, tty, p, rfl, hp, rfl⟩)
  | pump b =>
      obtain ⟨p, hp, h⟩ := Option.bind_eq_some_iff.mp h
      obtain ⟨tty, hs, rfl⟩ := Option.map_eq_some_iff.mp h
      exact .inr (.inr ⟨b, p, tty, rfl, hp, pumped_of_pump hs, rfl⟩)

/-- What a step makes of one thread. -/
theorem thread_of_step [DecidableEq ι] {a : Label ι} (h : step strerror l a = some l') (j : ι) :
    l'.threads j = l.threads j ∨
      (∃ b v, a = .send j b ∧ l'.threads j = some v ∧ Sent strerror l.tty j (l.threads j) b l'.tty v) ∨
      ∃ b p, a = .stop j b ∧ l'.threads j = some (.stop p) ∧ Stopped l.tty j (l.threads j) b l'.tty p := by
  obtain ⟨i, b, tty, v, rfl, hm, rfl⟩ | ⟨i, b, tty, p, rfl, hm, rfl⟩ | ⟨b, p, tty, rfl, hp, hm, rfl⟩ :=
    step_cases h
  · by_cases hj : j = i
    · subst hj
      exact .inr (.inl ⟨b, v, rfl, put_threads_self .., hm⟩)
    · exact .inl (put_threads_of_ne _ _ _ hj)
  · by_cases hj : j = i
    · subst hj
      exact .inr (.inr ⟨b, p, rfl, put_threads_self .., hm⟩)
    · exact .inl (put_threads_of_ne _ _ _ hj)
  · exact .inl rfl

end Line

end Mongoose
