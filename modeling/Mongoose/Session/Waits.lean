import Mongoose.Can.Readers
import Mongoose.Session.Touched

/-!
# Mongoose.Session.Waits

A session, and the threads that wait for its receivers.

A `Station` is a session's world with the reads and the timed writes that hold a
receiver, which run without the session's locks.  `no_live_receiver` says that a receiver
the session does not look after is stopped, and that whoever waits for a stopped one is
woken with its error.
-/

namespace Mongoose

/-! ## timed writes -/

/-- Where a wait for confirmations stands. -/
inductive WaitPhase
  /-- About to lock the receiver. -/
  | entered
  | waiting
  | returned (confirmed : Bool)
  | threw (error : Exception)
  deriving DecidableEq, Repr

/-- A call of `CanReceiver::await_transmitted` and its arguments. -/
structure Waiter where
  call : TransmitCall
  target : Nat
  deadline : Int
  phase : WaitPhase := .entered

namespace Waiter

/-- What the wait is for. -/
def ready (w : Waiter) (r : CanReceiver) : Prop := r.stopped ≠ 0 ∨ r.confirmed w.call ≥ w.target

instance (w : Waiter) (r : CanReceiver) : Decidable (w.ready r) := inferInstanceAs (Decidable (_ ∨ _))

/-- The wait is over. -/
def finish (w : Waiter) (r : CanReceiver) : Waiter :=
  { w with
    phase := if r.stopped ≠ 0 then .threw (.Error r.stopped r.reason)
      else .returned (decide (r.confirmed w.call ≥ w.target)) }

/-- One step of a wait.  Whoever stops the receiver or confirms a write notifies, so a wait
goes on as soon as what it is for holds. -/
def step (w : Waiter) (r : CanReceiver) : ReadAction → Option Waiter
  | .lock =>
      if w.phase = .entered then some (if w.ready r then w.finish r else { w with phase := .waiting })
      else none
  | .wake => if w.phase = .waiting ∧ w.ready r then some (w.finish r) else none
  | .expire now =>
      if w.phase = .waiting ∧ ¬ w.ready r ∧ w.deadline ≤ now then some (w.finish r) else none

end Waiter

/-! ## the system -/

/-- A session, and who reads its receivers or waits for them. -/
structure Station where
  world : World
  readers : ReaderId → Option (ReceiverRef × Reader) := fun _ => none
  waiters : ReaderId → Option (ReceiverRef × Waiter) := fun _ => none

namespace Station

/-- One step of one thread. -/
inductive Label
  /-- The session, its callers, the transport and the channels. -/
  | world (l : Mongoose.Label)
  /-- A read of a receiver is called, and goes on. -/
  | read (i : ReaderId) (r : ReceiverRef) (requested : Nat) (timeout : UInt32) (now : Int)
  | act (i : ReaderId) (a : ReadAction)
  /-- So for a wait. -/
  | await (i : ReaderId) (r : ReceiverRef) (call : TransmitCall) (target : Nat) (deadline : Int)
  | wait (i : ReaderId) (a : ReadAction)

/-- The receiver a reference points to. -/
def receivers (s : Station) (r : ReceiverRef) : CanReceiver := s.world.session.receivers r

/-- One step of the system. -/
def step (s : Station) : Label → Option Station
  | .world l => (s.world.step l).map fun w => { s with world := w }
  | .read i r requested timeout now =>
      if (s.readers i).isNone then
        some { s with
          readers := Function.update s.readers i (some (r, .enter requested timeout now)) }
      else none
  | .act i a =>
      (s.readers i).bind fun x => (x.2.step (s.receivers x.1) a).map fun y =>
        { s with
          world := { s.world with session := s.world.session.update_receiver x.1 y.2 }
          readers := Function.update s.readers i (some (x.1, y.1)) }
  | .await i r call target deadline =>
      if (s.waiters i).isNone then
        some { s with
          waiters := Function.update s.waiters i
            (some (r, { call := call, target := target, deadline := deadline })) }
      else none
  | .wait i a =>
      (s.waiters i).bind fun x => (x.2.step (s.receivers x.1) a).map fun w =>
        { s with waiters := Function.update s.waiters i (some (x.1, w)) }

/-- A new session, and nobody waiting. -/
def opened (protocol : ReceiverRef → UInt32) : Station := { world := World.opened protocol }

end Station

/-! ## stopped receivers -/

namespace Reader

variable {rd rd' : Reader} {r r' : CanReceiver}

/-- Where a read may stand. -/
def Proper (rd : Reader) : Prop :=
  match rd.phase with
  | .entered => rd.messages = []
  | .waiting => rd.messages.length < rd.requested
  | .done _ => True

/-- A read is over, with an error; with the receiver's, if it asked for anything. -/
def Threw (rd : Reader) (r : CanReceiver) : Prop :=
  ∃ e, rd.phase = .done (some e) ∧ (0 < rd.requested → e = .Error r.stopped r.reason)

/-- A pass of a read uses functions of the receiver. -/
theorem touched_finish (rd : Reader) (r : CanReceiver) :
    CanReceiver.Touched (fun _ => True) r (rd.finish r).2 :=
  .op .report

theorem touched_pass (rd : Reader) (r : CanReceiver) :
    Relation.ReflTransGen (CanReceiver.Touched fun _ => True) r (rd.pass r).2 := by
  rw [pass]
  split
  · split
    · exact .refl
    · dsimp only
      have htake : CanReceiver.Touched (fun _ => True) r
          (r.take (rd.requested - rd.messages.length)).2 := .op (.take _)
      split
      · exact (Relation.ReflTransGen.single htake).tail (touched_finish _ _)
      · exact .single htake
  · exact .single (touched_finish rd r)

theorem touched_step {a : ReadAction} (h : rd.step r a = some (rd', r')) :
    Relation.ReflTransGen (CanReceiver.Touched fun _ => True) r r' := by
  have hpass := touched_pass rd r
  have hfinish := touched_finish rd r
  cases a with
  | lock | wake =>
      simp only [step, Option.ite_none_right_eq_some, Option.some.injEq] at h
      rw [h.2] at hpass
      exact hpass
  | expire now =>
      simp only [step, Option.ite_none_right_eq_some, Option.some.injEq] at h
      rw [h.2] at hfinish
      exact .single hfinish

theorem proper_pass (rd : Reader) (h : r.Bounded) : (rd.pass r).1.Proper := by
  rw [pass]
  split
  · next hlt =>
      split
      · trivial
      · dsimp only
        split
        · trivial
        · next hwait =>
            have hlen : (r.take (rd.requested - rd.messages.length)).1.length ≤
                rd.requested - rd.messages.length := by
              rw [(CanReceiver.take_eq h _).1]
              exact List.length_take_le _ _
            have hne := (not_or.mp hwait).1
            simp only [Proper, List.length_append] at hne ⊢
            omega
  · trivial

theorem proper_step {a : ReadAction} (hb : r.Bounded) (h : rd.step r a = some (rd', r')) :
    rd'.Proper := by
  have hpass := proper_pass rd hb
  cases a with
  | lock | wake =>
      simp only [step, Option.ite_none_right_eq_some, Option.some.injEq] at h
      rw [h.2] at hpass
      exact hpass
  | expire now =>
      simp only [step, Option.ite_none_right_eq_some, Option.some.injEq] at h
      obtain ⟨-, h⟩ := h
      cases h
      trivial

/-- The next pass over a stopped receiver throws. -/
theorem threw_pass (hs : r.stopped ≠ 0) (hlt : rd.messages.length < rd.requested ∨ rd.messages = []) :
    (rd.pass r).1.Threw r := by
  rw [pass]
  split
  · exact ⟨_, rfl, fun _ => rfl⟩
  · next hge =>
      have hnil := hlt.resolve_left hge
      have hrequested : rd.requested = 0 := by simpa [hnil] using hge
      have hshort : rd.shortfall = some (.Error ERR_BUFFER_EMPTY "zero CAN messages received") :=
        if_pos hnil
      rw [finish, hshort]
      cases r.report.1 with
      | none => exact ⟨_, rfl, fun h => absurd h (by simp [hrequested])⟩
      | some e => exact ⟨_, rfl, fun h => absurd h (by simp [hrequested])⟩

/-- **A read of a stopped receiver can go on, and throws.** -/
theorem step_stopped (hs : r.stopped ≠ 0) (hp : rd.Proper) (hlive : ∀ error, rd.phase ≠ .done error) :
    (∃ a x, rd.step r a = some x) ∧ ∀ a x, rd.step r a = some x → x.1.Threw r := by
  have hawake : r.awake := .inl hs
  have hpass : (rd.pass r).1.Threw r := by
    refine threw_pass hs ?_
    rw [Proper] at hp
    cases hphase : rd.phase with
    | entered => exact .inr (by simpa [hphase] using hp)
    | waiting => exact .inl (by simpa [hphase] using hp)
    | done error => exact absurd hphase (hlive error)
  constructor
  · cases hphase : rd.phase with
    | entered => exact ⟨.lock, _, if_pos hphase⟩
    | waiting => exact ⟨.wake, _, if_pos ⟨hphase, hawake⟩⟩
    | done error => exact absurd hphase (hlive error)
  · intro a x hx
    cases a with
    | lock | wake =>
        simp only [step, Option.ite_none_right_eq_some, Option.some.injEq] at hx
        exact hx.2 ▸ hpass
    | expire now =>
        simp only [step, Option.ite_none_right_eq_some] at hx
        exact absurd hawake hx.1.2.1

end Reader

namespace Waiter

variable {w w' : Waiter} {r : CanReceiver}

/-- A wait goes on, or it is over. -/
theorem step_cases {a : ReadAction} (h : w.step r a = some w') :
    w' = { w with phase := .waiting } ∨
      w' = w.finish r ∧ (w.ready r ∨ w'.phase = .returned false) := by
  have hfalse (hr : ¬ w.ready r) : (w.finish r).phase = .returned false := by
    obtain ⟨hs, hc⟩ := not_or.mp hr
    exact (if_neg hs).trans (congrArg _ (decide_eq_false hc))
  cases a with
  | lock =>
      simp only [step, Option.ite_none_right_eq_some, Option.some.injEq] at h
      by_cases hr : w.ready r
      · rw [if_pos hr] at h
        exact .inr ⟨h.2.symm, .inl hr⟩
      · rw [if_neg hr] at h
        exact .inl h.2.symm
  | wake =>
      simp only [step, Option.ite_none_right_eq_some, Option.some.injEq] at h
      exact .inr ⟨h.2.symm, .inl h.1.2⟩
  | expire now =>
      simp only [step, Option.ite_none_right_eq_some, Option.some.injEq] at h
      exact .inr ⟨h.2.symm, .inr (h.2 ▸ hfalse h.1.2.1)⟩

/-- **A wait for a stopped receiver can go on, and throws.** -/
theorem step_stopped (hs : r.stopped ≠ 0) (hlive : w.phase = .entered ∨ w.phase = .waiting) :
    (∃ a w', w.step r a = some w') ∧
      ∀ a w', w.step r a = some w' → w'.phase = .threw (.Error r.stopped r.reason) := by
  have hready : w.ready r := .inl hs
  have hfinish : (w.finish r).phase = .threw (.Error r.stopped r.reason) := if_pos hs
  constructor
  · obtain hp | hp := hlive
    · exact ⟨.lock, _, if_pos hp⟩
    · exact ⟨.wake, _, if_pos ⟨hp, hready⟩⟩
  · intro a w' hx
    cases a with
    | lock =>
        simp only [step, Option.ite_none_right_eq_some, if_pos hready, Option.some.injEq] at hx
        exact hx.2 ▸ hfinish
    | wake =>
        simp only [step, Option.ite_none_right_eq_some, Option.some.injEq] at hx
        exact hx.2 ▸ hfinish
    | expire now =>
        simp only [step, Option.ite_none_right_eq_some] at hx
        exact absurd hready hx.1.2.1

end Waiter

namespace Station

/-! ## runs -/

variable {s s' : Station} {l : Label} {ls : List Label}

/-- What every run keeps. -/
structure Watched (ls : List Label) (s : Station) : Prop where
  proper : ∀ r, (s.receivers r).Proper
  guarded : s.world.session.Guarded
  retired : ∀ r, .world (.set_can_receiver (some r)) ∈ ls →
    s.world.session.can_receiver = some r ∨ (s.receivers r).stopped ≠ 0
  readers : ∀ i r rd, s.readers i = some (r, rd) → rd.Proper

theorem watched_opened (protocol : ReceiverRef → UInt32) : Watched [] (opened protocol) where
  proper r := by
    refine ⟨⟨Nat.zero_le _, Nat.zero_le _, ?_⟩, fun h => absurd rfl h⟩
    split <;> rfl
  guarded _ hr := nomatch hr
  retired _ hr := nomatch hr
  readers _ _ _ hr := nomatch hr

/-- Every step minds the receivers. -/
theorem minds_of_step (h : s.step l = some s') :
    s.world.session.Minds (fun _ => True) s'.world.session := by
  cases l with
  | world l =>
      obtain ⟨w, hw, rfl⟩ := Option.map_eq_some_iff.mp h
      exact World.minds_of_step (World.permits_trivial _) hw
  | read | await =>
      obtain ⟨-, h⟩ := Option.ite_none_right_eq_some.mp h
      cases h
      exact .of_touches (.refl _) rfl id
  | act i a =>
      obtain ⟨⟨r, rd⟩, -, h⟩ := Option.bind_eq_some_iff.mp h
      obtain ⟨⟨rd', r'⟩, hx, rfl⟩ := Option.map_eq_some_iff.mp h
      exact .of_touches (Session.touches_update_receiver (Reader.touched_step hx)) rfl id
  | wait i a =>
      obtain ⟨⟨r, w⟩, -, h⟩ := Option.bind_eq_some_iff.mp h
      obtain ⟨w', -, rfl⟩ := Option.map_eq_some_iff.mp h
      exact .of_touches (.refl _) rfl id

/-- A reader stands where a reader may. -/
theorem readers_of_step (hs : Watched ls s) (h : s.step l = some s') {i : ReaderId} {r : ReceiverRef}
    {rd : Reader} (hi : s'.readers i = some (r, rd)) : rd.Proper := by
  cases l with
  | world l =>
      obtain ⟨w, hw, rfl⟩ := Option.map_eq_some_iff.mp h
      exact hs.readers i r rd hi
  | read j q requested timeout now =>
      obtain ⟨-, h⟩ := Option.ite_none_right_eq_some.mp h
      cases h
      by_cases hij : i = j
      · subst hij
        simp only [Function.update_self, Option.some.injEq, Prod.mk.injEq] at hi
        exact hi.2 ▸ rfl
      · simp only [Function.update_of_ne hij] at hi
        exact hs.readers i r rd hi
  | await =>
      obtain ⟨-, h⟩ := Option.ite_none_right_eq_some.mp h
      cases h
      exact hs.readers i r rd hi
  | act j a =>
      obtain ⟨⟨q, rd₀⟩, -, h⟩ := Option.bind_eq_some_iff.mp h
      obtain ⟨⟨rd', r'⟩, hx, rfl⟩ := Option.map_eq_some_iff.mp h
      by_cases hij : i = j
      · subst hij
        simp only [Function.update_self, Option.some.injEq, Prod.mk.injEq] at hi
        exact hi.2 ▸ Reader.proper_step (hs.proper q).bounded hx
      · simp only [Function.update_of_ne hij] at hi
        exact hs.readers i r rd hi
  | wait j a =>
      obtain ⟨⟨q, w⟩, -, h⟩ := Option.bind_eq_some_iff.mp h
      obtain ⟨w', -, rfl⟩ := Option.map_eq_some_iff.mp h
      exact hs.readers i r rd hi

theorem Watched.step (hs : Watched ls s) (h : s.step l = some s') : Watched (ls ++ [l]) s' := by
  have hm := minds_of_step h
  refine ⟨fun r => CanReceiver.Touched.proper_many (hm.touches r) (hs.proper r), hm.guarded hs.guarded,
    fun r hr => ?_, fun i r rd hi => readers_of_step hs h hi⟩
  obtain hr | hr := List.mem_append.mp hr
  · obtain hcur | hstopped := hs.retired r hr
    · exact hm.replaced r hcur
    · exact .inr (hm.touches.stopped hstopped)
  · obtain rfl := List.mem_singleton.mp hr
    obtain rfl := Option.some.inj h
    exact .inl (Session.can_receiver_set _ _)

theorem watched_run {protocol : ReceiverRef → UInt32} (h : Run.run step (opened protocol) ls = some s) :
    Watched ls s :=
  Run.run_induction (P := Watched) (watched_opened protocol) (fun _ _ _ _ _ => Watched.step) h

/-- Along a run a stopped receiver stays as it was. -/
theorem ages_of_run (h : Run.run step s ls = some s') (r : ReceiverRef) :
    CanReceiver.Ages (s.receivers r) (s'.receivers r) := by
  refine Run.invariant (I := fun t => CanReceiver.Ages (s.receivers r) (t.receivers r)) ?_ (.refl _) h
  intro m l t hm hs
  exact hm.trans (CanReceiver.Touched.ages_many ((minds_of_step hs).touches r))

/-- **No live receiver on a dead session.**  Whatever was installed is installed or
stopped, and stopped if the session is closing or has failed.  What is stopped stays so for
its first reason, queues nothing and counts nothing.  Whoever reads it or waits for it can
go on, and throws. -/
theorem no_live_receiver {protocol : ReceiverRef → UInt32}
    (h : Run.run step (opened protocol) ls = some s) :
    (∀ r, .world (.set_can_receiver (some r)) ∈ ls →
      (s.world.session.can_receiver = some r ∨ (s.receivers r).stopped ≠ 0) ∧
      (s.world.session.closing = true ∨ s.world.session.failure ≠ "" → (s.receivers r).stopped ≠ 0)) ∧
    ∀ r, (s.receivers r).stopped ≠ 0 →
      (∀ ks s', Run.run step s ks = some s' →
        (s'.receivers r).stopped = (s.receivers r).stopped ∧
        (s'.receivers r).reason = (s.receivers r).reason ∧ (s'.receivers r).backlog = [] ∧
        (s'.receivers r).transmitted = (s.receivers r).transmitted ∧
        (s'.receivers r).confirmed = (s.receivers r).confirmed) ∧
      (∀ i rd, s.readers i = some (r, rd) → (∀ error, rd.phase ≠ .done error) →
        (∃ a s', s.step (.act i a) = some s') ∧
        ∀ a s', s.step (.act i a) = some s' →
          ∃ rd', s'.readers i = some (r, rd') ∧ rd'.Threw (s.receivers r)) ∧
      (∀ i w, s.waiters i = some (r, w) → w.phase = .entered ∨ w.phase = .waiting →
        (∃ a s', s.step (.wait i a) = some s') ∧
        ∀ a s', s.step (.wait i a) = some s' → ∃ w', s'.waiters i = some (r, w') ∧
          w'.phase = .threw (.Error (s.receivers r).stopped (s.receivers r).reason)) := by
  have hs := watched_run h
  refine ⟨fun r hr => ⟨hs.retired r hr, fun hdead => ?_⟩, fun r hstopped => ⟨?_, ?_, ?_⟩⟩
  · obtain hcur | hstopped := hs.retired r hr
    · exact hs.guarded r hcur (World.not_usable_iff.mpr hdead)
    · exact hstopped
  · intro ks s' hk
    have hages := ages_of_run hk r
    obtain ⟨hcode, hreason⟩ := hages.stopped hstopped
    have hproper := (watched_run (Run.run_append h hk)).proper r
    exact ⟨hcode, hreason, hproper.empty (hcode ▸ hstopped), hages.counts hstopped⟩
  · intro i rd hi hlive
    obtain ⟨⟨a, x, hx⟩, hthrew⟩ := Reader.step_stopped hstopped (hs.readers i r rd hi) hlive
    refine ⟨⟨a, _, by rw [step, hi, Option.bind_some, hx]; rfl⟩, fun a s' ht => ?_⟩
    rw [step, hi, Option.bind_some] at ht
    obtain ⟨x, hx, rfl⟩ := Option.map_eq_some_iff.mp ht
    exact ⟨x.1, Function.update_self .., hthrew a x hx⟩
  · intro i w hi hlive
    obtain ⟨⟨a, w', hw⟩, hthrew⟩ := Waiter.step_stopped hstopped hlive
    refine ⟨⟨a, _, by rw [step, hi, Option.bind_some, hw]; rfl⟩, fun a s' ht => ?_⟩
    rw [step, hi, Option.bind_some] at ht
    obtain ⟨w', hw, rfl⟩ := Option.map_eq_some_iff.mp ht
    exact ⟨w', Function.update_self .., hthrew a w' hw⟩

/-- A reader waits for a receiver; the session fails. -/
def lost : List Label :=
  [.world (.set_can_receiver (some 0)), .read 0 0 1 1000 0, .act 0 .lock, .world (.failed "unplugged")]

theorem no_live_receiver_lost :
    ∃ s, Run.run step (opened fun _ => CAN) lost = some s ∧
      (s.receivers 0).stopped = ERR_DEVICE_NOT_CONNECTED ∧ ∃ a s', s.step (.act 0 a) = some s' := by
  have hrun : Run.run step (opened fun _ => CAN) lost = some _ := rfl
  exact ⟨_, hrun, rfl, (((no_live_receiver hrun).2 0 (by decide)).2.1 0 _ rfl fun _ h => (nomatch h)).1⟩

end Station

end Mongoose
