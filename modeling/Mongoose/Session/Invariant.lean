import Mongoose.Session.Steps

/-!
# Mongoose.Session.Invariant

One command at a time.

A call that holds `transaction_` is the only one that moves the session; with a
sequence number it *owns* the session, and when no call does the session is at
*rest*, with every sequence free as long as it is usable.  `World.Sound` says so
of a whole world, and `sound_run` of every state a run reaches.
-/

namespace Mongoose

/-! ## owning and rest -/

/-- What holds of the session while a call has a sequence number. -/
structure Call.Owns (call : Call) (s : Session) : Prop where
  pending : s.pending = call.allocated
  sequence : s.sequence = call.allocated
  pos : 1 ≤ call.allocated
  le : call.allocated ≤ 255
  source : s.pending_source = call.command.destination
  minimum : s.minimum = call.command.minimum
  response : ∀ body, s.response = some body → call.Answers body
  used : s.usable → ∀ q, q ≠ call.allocated → s.used q = 0

/-- What holds of the session while no call has one. -/
structure Session.Rest (s : Session) : Prop where
  pending : s.pending = 0
  used : s.usable → ∀ q, s.used q = 0

section quiet

variable {s s' : Session} {call : Call}

/-- A call owns its number in whatever phase. -/
theorem Call.Owns.goto (h : call.Owns s) (p : Phase) : (call.goto p).Owns s :=
  ⟨h.pending, h.sequence, h.pos, h.le, h.source, h.minimum, h.response, h.used⟩

/-- What the session accepts while a call owns it answers that call. -/
theorem Call.Owns.answers (h : call.Owns s) {body : Bytes} (hacc : s.Accepts body) :
    call.Answers body := by
  have ha := hacc.2.2
  rwa [h.source, h.pending, h.minimum] at ha

/-- What does not touch the numbers leaves it the owner. -/
theorem Call.Owns.quiet (h : call.Owns s) (hq : Session.Quiet s s') : call.Owns s' where
  pending := hq.pending.trans h.pending
  sequence := hq.sequence.trans h.sequence
  pos := h.pos
  le := h.le
  source := hq.pending_source.trans h.source
  minimum := hq.minimum.trans h.minimum
  response := by
    intro body hb
    obtain hr | ⟨body', hr, hacc⟩ := hq.response
    · exact h.response body (hr.symm.trans hb)
    · obtain rfl := Option.some.inj (hr.symm.trans hb)
      exact h.answers hacc
  used := fun hu q hne => (congrFun hq.used q).trans (h.used (hq.usable hu) q hne)

/-- And leaves a session at rest that is so. -/
theorem Session.Rest.quiet (h : s.Rest) (hq : Session.Quiet s s') : s'.Rest where
  pending := hq.pending.trans h.pending
  used := fun hu q => (congrFun hq.used q).trans (h.used (hq.usable hu) q)

end quiet

/-- The reason is a failure. -/
theorem timeout_reason_ne : Session.timeout_reason ≠ "" := by decide

/-- The loop stops on a sequence number. -/
theorem Session.allocate_range {s : Session} {now : Int} {n q q' : Nat}
    (h : s.allocate now n q = (true, q')) : 1 ≤ q' ∧ q' ≤ 255 := by
  induction n generalizing q with
  | zero => cases h
  | succ n ih =>
      simp only [allocate] at h
      split at h
      · cases h
        omega
      · exact ih h

/-! ## one step of a call -/

namespace Took

variable {c : CallId} {s s' : Session} {call call' : Call} {a : Action}

/-- A call takes its command with it. -/
theorem command_eq (h : Took c s call a s' call') : call'.command = call.command := by
  cases h <;> rfl

/-- A call that does not hold `transaction_` only ever takes it. -/
theorem eq_of_not_holds (h : Took c s call a s' call') (hh : ¬ call.phase.Holds) :
    s' = s ∨ s.transaction = none ∧ s' = { s with transaction := some (.command c) } := by
  cases h with
  | slot hp ht => exact .inr ⟨ht, rfl⟩
  | slotTimeout now hp hd => exact .inl rfl
  | closing _ hp | failed _ hp | full _ _ hp | oversize _ _ _ hp | allocated _ _ _ hp | known hp
  | knownThrows _ _ hp | late _ hp | budget _ _ hp | send _ hp | sendReturns hp | sendThrows _ hp
  | undo _ hp | abandon _ hp | woken _ hp | answered _ hp | expire _ hp =>
      exact absurd (by rw [hp]; trivial) hh

/-- While another thread holds `transaction_`, a call moves nothing. -/
theorem eq_of_other (h : Took c s call a s' call')
    (hc : call.phase.Holds → s.transaction = some (.command c)) {o : Holder}
    (ho : o ≠ .command c) (hs : s.transaction = some o) : s' = s := by
  have hphase : ¬ call.phase.Holds := fun hh => ho (Option.some.inj (hs.symm.trans (hc hh)))
  obtain h | ⟨ht, -⟩ := h.eq_of_not_holds hphase
  · exact h
  · rw [hs] at ht; cases ht

/-- A call in a section holds `transaction_`. -/
theorem transaction_of_holds (h : Took c s call a s' call')
    (hc : call.phase.Holds → s.transaction = some (.command c)) (hh : call'.phase.Holds) :
    s'.transaction = some (.command c) := by
  cases h with
  | slot hp ht => rfl
  | slotTimeout now hp hd => cases hh
  | closing _ hp | failed _ hp | full _ _ hp | oversize _ _ _ hp | undo _ hp | abandon _ hp
  | woken _ hp | answered _ hp | expire _ hp => cases hh
  | allocated _ _ _ hp | late _ hp | budget _ _ hp | send _ hp | sendReturns hp | sendThrows _ hp
  | knownThrows _ _ hp => exact hc (by rw [hp]; trivial)
  | known hp =>
      have ht : (call.known s).transaction = s.transaction := by
        rw [Call.known]
        split <;> rfl
      exact ht.trans (hc (by rw [hp]; trivial))

/-- Noting a write touches no number. -/
theorem quiet_known (call : Call) (s : Session) : Session.Quiet s (call.known s) := by
  rw [Call.known]
  split
  · exact Session.quiet_of_eq rfl rfl rfl rfl rfl rfl rfl rfl
  · exact Session.quiet_of_eq rfl rfl rfl rfl rfl rfl rfl rfl

/-- A step that leaves a call with a sequence number leaves it the owner. -/
theorem owns (h : Took c s call a s' call') (howns : call.phase.Active → call.Owns s)
    (hrest : call.phase.Holds → ¬ call.phase.Active → s.Rest) (ha : call'.phase.Active) :
    call'.Owns s' := by
  cases h with
  | slot hp ht => cases ha
  | slotTimeout now hp hd => cases ha
  | closing _ hp | failed _ hp | full _ _ hp | oversize _ _ _ hp | undo _ hp | abandon _ hp
  | woken _ hp | answered _ hp | expire _ hp => cases ha
  | allocated now q wire hp hu hq =>
      have hs : s.Rest := hrest (by rw [hp]; trivial) (by rw [hp]; exact id)
      obtain ⟨hpos, hle⟩ := Session.allocate_range hq
      refine ⟨rfl, rfl, hpos, hle, rfl, rfl, fun _ hb => (Option.some_ne_none _ hb.symm).elim,
        fun _ q' hne => ?_⟩
      exact (Function.update_of_ne hne _ _).trans (hs.used hu q')
  | known hp => exact ((howns (by rw [hp]; trivial)).quiet (quiet_known call s)).goto _
  | knownThrows record e hp hr =>
      have hq : Session.Quiet s (s.update_receiver record.receiver
          (s.receivers record.receiver).make_room) :=
        Session.quiet_of_eq rfl rfl rfl rfl rfl rfl rfl rfl
      exact ((howns (by rw [hp]; trivial)).quiet hq).goto _
  | late _ hp | budget _ _ hp | send _ hp | sendReturns hp | sendThrows _ hp =>
      exact (howns (by rw [hp]; trivial)).goto _

/-- A step that leaves a call without a sequence number leaves the session at rest. -/
theorem rest (h : Took c s call a s' call') (howns : call.phase.Active → call.Owns s)
    (hrest : call.phase.Holds → ¬ call.phase.Active → s.Rest) (hh : call.phase.Holds)
    (ha : ¬ call'.phase.Active) : s'.Rest := by
  have hfree (hu : s.usable) (ho : call.Owns s) (q : Nat) :
      Function.update s.used call.allocated 0 q = 0 := by
    by_cases hq : q = call.allocated
    · rw [hq, Function.update_self]
    · rw [Function.update_of_ne hq, ho.used hu q hq]
  cases h with
  | slot hp ht => rw [hp] at hh; cases hh
  | slotTimeout now hp hd => rw [hp] at hh; cases hh
  | closing _ hp | failed _ hp | full _ _ hp | oversize _ _ _ hp =>
      have hs : s.Rest := hrest hh (by rw [hp]; exact id)
      exact ⟨hs.pending, hs.used⟩
  | allocated _ _ _ hp | known hp | knownThrows _ _ hp | late _ hp | budget _ _ hp | send _ hp
  | sendReturns hp | sendThrows _ hp => exact absurd trivial ha
  | undo e hp => exact ⟨rfl, fun hu => hfree hu (howns (by rw [hp]; trivial))⟩
  | abandon e hp =>
      refine ⟨rfl, fun hu => ?_⟩
      have hf : (if s.failure = "" then "write failed; reopen before retrying" else s.failure) = "" :=
        hu.2
      split at hf
      · exact absurd hf (by decide)
      · next hne => exact absurd hf hne
  | woken e hp hu => exact ⟨rfl, fun hu' => absurd hu' hu⟩
  | answered body hp hu hr => exact ⟨rfl, fun hu => hfree hu (howns (by rw [hp]; trivial))⟩
  | expire now hp hr hu hd => exact ⟨rfl, fun hu => absurd hu.2 timeout_reason_ne⟩

end Took

/-! ## the world -/

/-- The holder of `transaction_`, the owner of the session, or its rest. -/
structure World.Sound (w : World) : Prop where
  holds : ∀ {c call}, w.calls c = some call → call.phase.Holds →
    w.session.transaction = some (.command c)
  closes : ∀ {k}, w.closers k = some .drained ∨ w.closers k = some .stopping →
    w.session.transaction = some (.close k)
  owns : ∀ {c call}, w.calls c = some call → call.phase.Active → call.Owns w.session
  rest : (∀ c call, w.calls c = some call → ¬ call.phase.Active) → w.session.Rest

/-- An active call has the slot. -/
theorem Phase.Active.holds {p : Phase} (h : p.Active) : p.Holds := by
  cases p <;> trivial

namespace World

variable {w w' : World}

/-- A new session is sound. -/
theorem sound_opened (protocol : ReceiverRef → UInt32) : (opened protocol).Sound where
  holds := fun h => by cases h
  closes := fun h => by obtain h | h := h <;> cases h
  owns := fun h => by cases h
  rest := fun _ => ⟨rfl, fun _ _ => rfl⟩

/-- At most one call holds `transaction_`. -/
theorem Sound.eq_of_holds (hw : w.Sound) {c d : CallId} {call call' : Call}
    (hc : w.calls c = some call) (hd : w.calls d = some call') (hh : call.phase.Holds)
    (hh' : call'.phase.Holds) : c = d := by
  have := (hw.holds hc hh).symm.trans (hw.holds hd hh')
  cases this
  rfl

/-- A call that holds `transaction_` without a sequence number finds the session at rest. -/
theorem Sound.rest_of_holds (hw : w.Sound) {c : CallId} {call : Call} (hc : w.calls c = some call)
    (hh : call.phase.Holds) (ha : ¬ call.phase.Active) : w.session.Rest := by
  refine hw.rest fun d call' hd ha' => ?_
  obtain rfl := hw.eq_of_holds hc hd hh ha'.holds
  rw [hc] at hd
  cases hd
  exact ha ha'

/-- So is one with a new call. -/
theorem Sound.enter (hw : w.Sound) {c : CallId} (cmd : Command) (now : Int)
    (hc : w.calls c = none) : (w.put w.session c (Call.enter cmd now)).Sound := by
  have hnew : ¬ (Call.enter cmd now).phase.Holds := by
    rw [Call.enter]
    split <;> exact id
  have hold {d call} (hd : (w.put w.session c (Call.enter cmd now)).calls d = some call)
      (hh : call.phase.Holds) : w.calls d = some call := by
    by_cases hdc : d = c
    · rw [hdc, put_calls_self] at hd
      cases hd
      exact absurd hh hnew
    · rwa [put_calls_of_ne _ _ _ hdc] at hd
  refine ⟨fun hd hh => hw.holds (hold hd hh) hh, hw.closes, fun hd ha => hw.owns (hold hd ha.holds) ha,
    fun hnone => hw.rest fun d call hd => ?_⟩
  have hdc : d ≠ c := by
    rintro rfl
    rw [hc] at hd
    cases hd
  exact hnone d call (by rw [put_calls_of_ne _ _ _ hdc]; exact hd)

/-- A step of a command keeps it sound. -/
theorem Sound.act (hw : w.Sound) {c : CallId} {call call' : Call} {a : Action} {s : Session}
    (hc : w.calls c = some call) (ht : Took c w.session call a s call') :
    (w.put s c call').Sound := by
  have hhold : call.phase.Holds → w.session.transaction = some (.command c) := hw.holds hc
  have howns : call.phase.Active → call.Owns w.session := hw.owns hc
  have hrest : call.phase.Holds → ¬ call.phase.Active → w.session.Rest := hw.rest_of_holds hc
  have hsame {d call''} (hdc : d ≠ c) (hd : w.calls d = some call'') (hh : call''.phase.Holds) :
      s = w.session :=
    ht.eq_of_other hhold (fun h => hdc (Holder.command.inj h)) (hw.holds hd hh)
  constructor
  · intro d call'' hd hh
    by_cases hdc : d = c
    · subst hdc
      rw [put_calls_self] at hd
      cases hd
      exact ht.transaction_of_holds hhold hh
    · rw [put_calls_of_ne _ _ _ hdc] at hd
      rw [put_session, hsame hdc hd hh]
      exact hw.holds hd hh
  · intro k hk
    have hk := hw.closes hk
    rw [put_session, ht.eq_of_other hhold Holder.noConfusion hk]
    exact hk
  · intro d call'' hd ha
    by_cases hdc : d = c
    · subst hdc
      rw [put_calls_self] at hd
      cases hd
      exact ht.owns howns hrest ha
    · rw [put_calls_of_ne _ _ _ hdc] at hd
      rw [put_session, hsame hdc hd ha.holds]
      exact hw.owns hd ha
  · intro hnone
    have ha : ¬ call'.phase.Active := hnone c call' (put_calls_self ..)
    by_cases hh : call.phase.Holds
    · exact ht.rest howns hrest hh ha
    · -- the call waited for `transaction_`: nobody had a sequence number before either
      have hw' : w.session.Rest := hw.rest fun d call'' hd ha' => by
        by_cases hdc : d = c
        · subst hdc
          rw [hc] at hd
          cases hd
          exact hh ha'.holds
        · exact hnone d call'' (by rw [put_calls_of_ne _ _ _ hdc]; exact hd) ha'
      obtain rfl | ⟨-, rfl⟩ := ht.eq_of_not_holds hh
      · exact hw'
      · exact ⟨hw'.pending, hw'.used⟩

/-- A step of a closer does. -/
theorem Sound.close (hw : w.Sound) {k : CloserId} {a : CloseAction} {s : Session} {p : ClosePhase}
    (h : w.session.close k (w.closers k) a = some (s, p)) :
    Sound { w with session := s, closers := Function.update w.closers k (some p) } := by
  have hq := Session.quiet_of_close h
  have hother {o : Holder} (ho : o ≠ .close k) (hs : w.session.transaction = some o) :
      s.transaction = some o := by
    obtain ht | ⟨ht, -⟩ | ⟨hp, -⟩ := Session.transaction_of_close h
    · exact ht.trans hs
    · rw [hs] at ht; cases ht
    · exact absurd (Option.some.inj (hs.symm.trans (hw.closes (.inr hp)))) ho
  refine ⟨fun hc hh => hother Holder.noConfusion (hw.holds hc hh), fun {j} hj => ?_,
    fun hc ha => (hw.owns hc ha).quiet hq, fun hnone => (hw.rest hnone).quiet hq⟩
  by_cases hjk : j = k
  · subst hjk
    simp only [Function.update_self, Option.some.injEq] at hj
    exact Session.close_holds h (fun hp => hw.closes (.inl hp)) hj
  · simp only [Function.update_of_ne hjk] at hj
    exact hother (fun h => hjk (Holder.close.inj h)) (hw.closes hj)

/-- And whatever the environment does. -/
theorem Sound.environment (hw : w.Sound) {l : Label} {s : Session}
    (h : environment w.session l = some s) : Sound { w with session := s } := by
  obtain ⟨hq, ht⟩ := Session.quiet_of_environment h
  exact ⟨fun hc hh => ht.trans (hw.holds hc hh), fun hk => ht.trans (hw.closes hk),
    fun hc ha => (hw.owns hc ha).quiet hq, fun hnone => (hw.rest hnone).quiet hq⟩

/-- Every step keeps the invariant. -/
theorem Sound.step (hw : w.Sound) {l : Label} (h : w.step l = some w') : w'.Sound := by
  obtain ⟨c, cmd, now, rfl, hc, rfl⟩ | ⟨c, a, call, s, call', rfl, hc, ht, rfl⟩ |
    ⟨k, a, s, p, rfl, hs, rfl⟩ | ⟨s, -, hs, rfl⟩ := step_cases h
  · exact hw.enter cmd now hc
  · exact hw.act hc ht
  · exact hw.close hs
  · exact hw.environment hs

/-- **Every state a run reaches is sound.** -/
theorem sound_run {protocol : ReceiverRef → UInt32} {ls : List Label}
    (h : Run.run step (opened protocol) ls = some w) : w.Sound :=
  Run.invariant (fun _ _ _ hm hs => hm.step hs) (sound_opened protocol) h

end World

end Mongoose
