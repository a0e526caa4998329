import Mongoose.Link
import Mongoose.Session.Bounds
import Mongoose.Session.Outcome
import Mongoose.Tty.Serial

/-!
# Mongoose.Link.Joined

Where a command of the session stands in the transport.

A run of a `Link` is one of the session and one of the transport, so what holds of either
holds here.  `Joined` says which phase of a command goes with which place in `send`: a
thread is there exactly from the call of `send` to its end, with the frame of the command.
-/

namespace Mongoose

/-- A thread inside `send` writes this frame. -/
def Visit.Carries (wire : Bytes) : Visit → Prop
  | .entering data _ | .checking data _ => data = wire
  | .tracing s | .writing s => s.data = wire
  | .sent | .threw _ => True
  | .stop _ => False

/-- The phase of a command and its place in the transport. -/
def Phase.Joined (wire : Bytes) (o : Option Visit) : Phase → Prop
  | .sent => ∃ v, o = some v ∧ v.Carries wire
  | .abandon e => o = some (.threw e)
  | .waiting | .returned _ => o = some .sent
  | .threw _ => o = none ∨ o = some .sent ∨ ∃ e, o = some (.threw e)
  | _ => o = none

/-- A step of a command that does not leave the session leaves it where it is in the transport. -/
theorem Took.joined {c : CallId} {s s' : Session} {call call' : Call} {o : Option Visit} {b : Action} (h : Took c s call b s' call') (hout : Label.Outside (.act c b))
    (hj : call.phase.Joined call.wire o) : call'.phase.Joined call'.wire o := by
  cases h with
  | send | sendReturns | sendThrows => exact hout.elim
  | slot hp | allocated _ _ _ hp | known hp | knownThrows _ _ hp | late _ hp | budget _ _ hp =>
      rw [hp] at hj
      exact hj
  | slotTimeout _ hp | closing _ hp | failed _ hp | full _ _ hp | oversize _ _ _ hp | undo _ hp =>
      rw [hp] at hj
      exact .inl hj
  | abandon e hp =>
      rw [hp] at hj
      exact .inr (.inr ⟨e, hj⟩)
  | woken _ hp | expire _ hp =>
      rw [hp] at hj
      exact .inr (.inl hj)
  | answered _ hp =>
      rw [hp] at hj
      exact hj

/-- A step inside `send` goes on with the same frame. -/
theorem Visit.Carries.sent {strerror : Int → String} {tty tty' : TtyMembers Holder} {i : Holder} {u v : Visit}
    {b : SendStep} {wire : Bytes} (hs : Line.Sent strerror tty i (some u) b tty' v)
    (hserial : ∀ s, u = .writing s → s.Valid) (h : u.Carries wire) : v.Carries wire := by
  cases hs with
  | locked data timeout hio => exact h
  | stopped | traceThrew => trivial
  | checked data timeout s hsend => exact (Sending.valid_of_send hsend).2.1.trans h
  | traced s => exact h
  | called s s' e hstep => exact ((hserial s rfl).step hstep).2.1.trans h
  | ended s s' e v hstep hv => obtain ⟨rfl, -⟩ | ⟨error, rfl, -⟩ := hv <;> trivial

/-- A thread that goes on inside `send` belongs to a command whose send goes on. -/
theorem Phase.Joined.sent {strerror : Int → String} {tty tty' : TtyMembers Holder} {i : Holder} {u v : Visit}
    {b : SendStep} {wire : Bytes} {p : Phase} (h : p.Joined wire (some u))
    (hs : Line.Sent strerror tty i (some u) b tty' v) : p = .sent ∧ u.Carries wire := by
  have hnot := hs.goes.2
  cases p with
  | sent =>
      obtain ⟨u', hu, hc⟩ := h
      exact ⟨rfl, Option.some.inj hu ▸ hc⟩
  | abandon e => exact absurd (Option.some.inj h) (hnot.2 e)
  | waiting | returned => exact absurd (Option.some.inj h) hnot.1
  | threw =>
      obtain h | h | ⟨e, h⟩ := h
      · cases h
      · exact absurd (Option.some.inj h) hnot.1
      · exact absurd (Option.some.inj h) (hnot.2 e)
  | slot | started | allocated | known | sending | undo => cases h

/-- The thread of a command is never inside `stop`. -/
theorem Phase.Joined.not_stop {wire : Bytes} {p : Phase} {q : StopPhase} : ¬ p.Joined wire (some (.stop q)) := by
  cases p with
  | sent =>
      rintro ⟨v, hv, hc⟩
      cases hv
      exact hc
  | threw =>
      rintro (h | h | ⟨e, h⟩) <;> cases h
  | _ => nofun

/-- The wire of a call is the frame of its command. -/
def Call.HasFrame (call : Call) : Prop :=
  ∃ body, request call.command.opcode call.allocated call.command.payload call.command.destination
    call.command.chan = .ok body ∧ encode body = .ok call.wire

/-- A command has a frame once it has a sequence number. -/
theorem framed_run {protocol : ReceiverRef → UInt32} {ls : List Label} {w : World}
    (h : Run.run World.step (World.opened protocol) ls = some w) {c : CallId} {call : Call}
    (hc : w.calls c = some call) (ha : call.allocated ≠ 0) : call.HasFrame := by
  refine Run.invariant (I := fun w : World => ∀ c call, w.calls c = some call → call.allocated ≠ 0 → call.HasFrame)
    ?_ (fun _ _ hnone => by cases hnone) h c call hc ha
  intro w l w' ih hs d new hd ha
  obtain ⟨c, cmd, now, -, -, rfl⟩ | ⟨c, a, old, s, call', -, hc, ht, rfl⟩ | ⟨k, a, s, p, -, -, rfl⟩ |
    ⟨s, -, -, rfl⟩ := World.step_cases hs
  · by_cases hdc : d = c
    · rw [hdc, World.put_calls_self] at hd
      cases hd
      rw [Call.enter] at ha
      split at ha <;> exact absurd rfl ha
    · exact ih d new (by rwa [World.put_calls_of_ne _ _ _ hdc] at hd) ha
  · by_cases hdc : d = c
    · rw [hdc, World.put_calls_self] at hd
      cases hd
      cases ht with
      | allocated now q wire hp hu hq hw =>
          obtain ⟨body, hbody, hwire⟩ := bind_ok hw
          exact ⟨body, hbody, hwire⟩
      | _ => exact ih c old hc ha
    · exact ih d new (by rwa [World.put_calls_of_ne _ _ _ hdc] at hd) ha
  · exact ih d new hd ha
  · exact ih d new hd ha

namespace Link

variable {strerror : Int → String} {protocol : ReceiverRef → UInt32} {fd wake : Int} {exclusive : Bool}
  {l₀ : Line Holder} {log₀ : Line.Log Holder} {as : List Label} {k k' : Link} {a : Label}

/-! ## the two sides -/

/-- A run of the session, and one of the transport. -/
theorem sides (h : Run.run (step strerror) (opened protocol l₀ log₀) as = some k) :
    (∃ ls, Run.run (Run.recording World.step World.Log.note) (World.opened protocol, {}) ls = some k.1) ∧
      ∃ ks, Run.run (Line.logged strerror) (l₀, log₀) ks = some k.2 :=
  ⟨Product.exists_left_run h, Product.exists_right_run h⟩

/-- A run of the link is one of the session. -/
theorem world_run (h : Run.run (step strerror) (opened protocol l₀ log₀) as = some k) :
    ∃ ls, Run.run World.step (World.opened protocol) ls = some k.world := by
  obtain ⟨⟨ls, hrun⟩, -⟩ := sides h
  exact ⟨ls, Run.run_of_recording hrun⟩

/-- So its session is sound. -/
theorem sound (h : Run.run (step strerror) (opened protocol l₀ log₀) as = some k) : k.world.Sound := by
  obtain ⟨ls, hrun⟩ := world_run h
  exact World.sound_run hrun

/-- The bytes the worker hands over are received, whatever they are. -/
theorem receive_enabled (h : Run.run (step strerror) (opened protocol l₀ log₀) as = some k) (bytes : Bytes) :
    ∃ s, k.world.session.receive bytes = .ok s := by
  obtain ⟨ls, hrun⟩ := world_run h
  obtain ⟨s, -, hs⟩ := Session.receive_total ⟨by decide, by decide⟩ (World.fit_run hrun).session bytes
  exact ⟨s, hs⟩

/-- The outcomes of a step: what the session does in it, and what the transport. -/
inductive Moved (strerror : Int → String) (k k' : Link) : Label → Prop
  | session (l : Mongoose.Label) (hout : l.Outside) (hw : k.world.step l = some k'.world) (hl : k'.2 = k.2) :
      Moved strerror k k' (.session l)
  | transport (b : Line.Label Holder) (hin : b.Inside k.line.tty.worker) (hw : k'.world = k.world)
      (hl : Line.logged strerror k.2 b = some k'.2) : Moved strerror k k' (.transport b)
  | send (c : CallId) (call : Call) (n : Int) (hc : k.world.calls c = some call) (hp : call.phase = .sending n)
      (hw : k.world.step (.act c .send) = some k'.world)
      (hl : Line.logged strerror k.2 (.send (.command c) (.enter call.wire n.toNat)) = some k'.2) :
      Moved strerror k k' (.send c)
  | sendReturns (c : CallId) (ht : k.line.threads (.command c) = some .sent)
      (hw : k.world.step (.act c .sendReturns) = some k'.world) (hl : k'.2 = k.2) :
      Moved strerror k k' (.sendReturns c)
  | sendThrows (c : CallId) (e : Exception) (ht : k.line.threads (.command c) = some (.threw e))
      (hw : k.world.step (.act c (.sendThrows e)) = some k'.world) (hl : k'.2 = k.2) :
      Moved strerror k k' (.sendThrows c)
  | receive (bytes : Bytes) (hp : k.line.tty.worker = some (.delivering bytes))
      (hw : k.world.step (.receive bytes) = some k'.world)
      (hl : Line.logged strerror k.2 (.pump .receive) = some k'.2) : Moved strerror k k' .receive
  | failed (reason : String) (hp : k.line.tty.worker = some (.reporting reason))
      (hw : k.world.step (.failed reason) = some k'.world)
      (hl : Line.logged strerror k.2 (.pump .report) = some k'.2) : Moved strerror k k' .failed
  | stop (j : CloserId) (hw : k.world.step (.close j .stop) = some k'.world)
      (hl : Line.logged strerror k.2 (.stop (.close j) .enter) = some k'.2) : Moved strerror k k' (.stop j)
  | stopped (j : CloserId) (ht : k.line.threads (.close j) = some (.stop .done))
      (hw : k.world.step (.close j .done) = some k'.world) (hl : k'.2 = k.2) : Moved strerror k k' (.stopped j)

/-- A step is one of those listed. -/
theorem moved_of_step (h : step strerror k a = some k') : Moved strerror k k' a := by
  obtain ⟨l, b, hparts, hl, hb⟩ := Product.step_eq_some_iff.mp h
  have hworld {l' : Mongoose.Label} (hl' : l = some l') : k.world.step l' = some k'.world := by
    rw [hl'] at hl
    exact (Run.recording_eq_some_iff.mp hl).1
  have hsame (hl' : l = none) : k'.world = k.world := by
    rw [hl'] at hl
    exact congrArg Prod.fst (Option.some.inj hl).symm
  have hline {b' : Line.Label Holder} (hb' : b = some b') : Line.logged strerror k.2 b' = some k'.2 := by
    rwa [hb'] at hb
  have hrest (hb' : b = none) : k'.2 = k.2 := by
    rw [hb'] at hb
    exact (Option.some.inj hb).symm
  cases a with
  | session l' =>
      obtain ⟨hout, heq⟩ := Option.ite_none_right_eq_some.mp hparts
      obtain ⟨rfl, rfl⟩ := Prod.mk.inj (Option.some.inj heq)
      exact .session l' hout (hworld rfl) (hrest rfl)
  | transport b' =>
      obtain ⟨hin, heq⟩ := Option.ite_none_right_eq_some.mp hparts
      obtain ⟨rfl, rfl⟩ := Prod.mk.inj (Option.some.inj heq)
      exact .transport b' hin (hsame rfl) (hline rfl)
  | send c =>
      obtain ⟨call, hc, heq⟩ := Option.bind_eq_some_iff.mp hparts
      split at heq
      · next n hp =>
          obtain ⟨rfl, rfl⟩ := Prod.mk.inj (Option.some.inj heq)
          exact .send c call n hc hp (hworld rfl) (hline rfl)
      · cases heq
  | sendReturns c =>
      obtain ⟨ht, heq⟩ := Option.ite_none_right_eq_some.mp hparts
      obtain ⟨rfl, rfl⟩ := Prod.mk.inj (Option.some.inj heq)
      exact .sendReturns c ht (hworld rfl) (hrest rfl)
  | sendThrows c =>
      simp only [parts] at hparts
      split at hparts
      · next e ht =>
          obtain ⟨rfl, rfl⟩ := Prod.mk.inj (Option.some.inj hparts)
          exact .sendThrows c e ht (hworld rfl) (hrest rfl)
      · cases hparts
  | receive =>
      simp only [parts] at hparts
      split at hparts
      · next bytes hp =>
          obtain ⟨rfl, rfl⟩ := Prod.mk.inj (Option.some.inj hparts)
          exact .receive bytes hp (hworld rfl) (hline rfl)
      · cases hparts
  | failed =>
      simp only [parts] at hparts
      split at hparts
      · next reason hp =>
          obtain ⟨rfl, rfl⟩ := Prod.mk.inj (Option.some.inj hparts)
          exact .failed reason hp (hworld rfl) (hline rfl)
      · cases hparts
  | stop j =>
      obtain ⟨rfl, rfl⟩ := Prod.mk.inj (Option.some.inj hparts)
      exact .stop j (hworld rfl) (hline rfl)
  | stopped j =>
      obtain ⟨ht, heq⟩ := Option.ite_none_right_eq_some.mp hparts
      obtain ⟨rfl, rfl⟩ := Prod.mk.inj (Option.some.inj heq)
      exact .stopped j ht (hworld rfl) (hrest rfl)

/-! ## commands and their threads -/

/-- A command and its place in the transport. -/
def JoinedTo (o : Option Visit) : Option Call → Prop
  | none => o = none
  | some call => call.phase.Joined call.wire o

/-- A closer and its place in the transport. -/
def ClosedBy (o : Option Visit) : Option ClosePhase → Prop
  | some .stopping => ∃ p, o = some (.stop p)
  | some .done => o = none ∨ o = some (.stop .done)
  | _ => o = none

/-- Every command and every closer has its place. -/
structure Joined (k : Link) : Prop where
  commands : ∀ c, JoinedTo (k.line.threads (.command c)) (k.world.calls c)
  closers : ∀ j, ClosedBy (k.line.threads (.close j)) (k.world.closers j)

/-- What a step makes of one closer. -/
theorem closers_of_step {w w' : World} {l : Mongoose.Label} (h : w.step l = some w') (j : CloserId) :
    w'.closers j = w.closers j ∨ ∃ b s p, l = .close j b ∧
      w.session.close j (w.closers j) b = some (s, p) ∧ w'.closers j = some p := by
  obtain ⟨c, cmd, now, rfl, hc, rfl⟩ | ⟨c, a, call, s, call', rfl, hc, ht, rfl⟩ | ⟨i, b, s, p, rfl, hs, rfl⟩ |
    ⟨s, -, -, rfl⟩ := World.step_cases h
  · exact .inl rfl
  · exact .inl rfl
  · by_cases hj : j = i
    · subst hj
      exact .inr ⟨b, s, p, rfl, hs, Function.update_self ..⟩
    · exact .inl (Function.update_of_ne hj ..)
  · exact .inl rfl

/-- A step of the transport alone keeps the place of a command. -/
theorem joinedTo_inside {l l' : Line Holder} {b : Line.Label Holder} {c : CallId} {o : Option Call}
    {log : Line.Log Holder} (h : JoinedTo (l.threads (.command c)) o) (hserial : l.Serial log)
    (hin : b.Inside l.tty.worker) (hstep : Line.step strerror l b = some l') :
    JoinedTo (l'.threads (.command c)) o := by
  obtain heq | ⟨b, v, rfl, heq, hs⟩ | ⟨b, p, rfl, heq, hs⟩ := Line.thread_of_step hstep (.command c)
  · rwa [heq]
  · rw [heq]
    cases hu : l.threads (.command c) with
    | none =>
        rw [hu] at hs
        obtain ⟨data, timeout, rfl⟩ := hs.enters
        exact hin.elim
    | some u =>
        rw [hu] at hs h
        cases o with
        | none => cases h
        | some call =>
            obtain ⟨hp, hc⟩ := Phase.Joined.sent (p := call.phase) h hs
            have hcarries := hc.sent hs fun s hw => (hserial.threads _ (.writing s) (by rw [hu, hw])).1
            show call.phase.Joined call.wire (some v)
            rw [hp]
            exact ⟨v, rfl, hcarries⟩
  · cases hu : l.threads (.command c) with
    | none =>
        rw [hu] at hs
        obtain rfl := hs.enters
        exact hin.elim
    | some u =>
        rw [hu] at hs h
        obtain ⟨q, rfl, -⟩ := hs.goes
        cases o with
        | none => cases h
        | some call => exact absurd h Phase.Joined.not_stop

/-- A closer's visit is a stop. -/
theorem ClosedBy.stops {u : Visit} {o : Option ClosePhase} (h : ClosedBy (some u) o) : ∃ p, u = .stop p := by
  cases o with
  | none => cases h
  | some q =>
      cases q with
      | stopping =>
          obtain ⟨p, hp⟩ := h
          exact ⟨p, Option.some.inj hp⟩
      | done =>
          obtain h | h := h
          · cases h
          · exact ⟨_, Option.some.inj h⟩
      | locked | draining | drained => cases h

/-- A closer that is inside `stop` goes on there. -/
theorem closedBy_inside {l l' : Line Holder} {b : Line.Label Holder} {j : CloserId} {o : Option ClosePhase}
    (h : ClosedBy (l.threads (.close j)) o) (hin : b.Inside l.tty.worker)
    (hstep : Line.step strerror l b = some l') : ClosedBy (l'.threads (.close j)) o := by
  obtain heq | ⟨b, v, rfl, heq, hs⟩ | ⟨b, p, rfl, heq, hs⟩ := Line.thread_of_step hstep (.close j)
  · rwa [heq]
  · cases hu : l.threads (.close j) with
    | none =>
        rw [hu] at hs
        obtain ⟨data, timeout, rfl⟩ := hs.enters
        exact hin.elim
    | some u =>
        rw [hu] at hs h
        obtain ⟨p, hp⟩ := h.stops
        exact absurd hp (hs.goes.1 p)
  · cases hu : l.threads (.close j) with
    | none =>
        rw [hu] at hs
        obtain rfl := hs.enters
        exact hin.elim
    | some u =>
        rw [hu] at hs h
        obtain ⟨q, rfl, hne⟩ := hs.goes
        rw [heq]
        cases o with
        | none => cases h
        | some phase =>
            cases phase with
            | stopping => exact ⟨p, rfl⟩
            | done =>
                obtain h | h := h
                · cases h
                · exact absurd (Visit.stop.inj (Option.some.inj h)) hne
            | locked | draining | drained => cases h

/-- A section of `close` outside the transport keeps its place. -/
theorem closedBy_outside {w w' : World} {l : Mongoose.Label} {j : CloserId} {v : Option Visit}
    (h : ClosedBy v (w.closers j)) (hout : l.Outside) (hstep : w.step l = some w') :
    ClosedBy v (w'.closers j) := by
  obtain heq | ⟨b, s, p, rfl, hs, heq⟩ := closers_of_step hstep j
  · rwa [heq]
  · rw [heq]
    cases b with
    | lock =>
        obtain ⟨⟨hp, -⟩, hs⟩ := Option.ite_none_right_eq_some.mp hs
        cases hs
        rw [hp] at h
        exact h
    | mark =>
        obtain ⟨hp, hs⟩ := Option.ite_none_right_eq_some.mp hs
        rw [hp] at h
        rw [Session.mark_closing] at hs
        split at hs
        · cases hs
          exact .inl h
        · cases hs
          exact h
    | drain =>
        obtain ⟨⟨hp, -⟩, hs⟩ := Option.ite_none_right_eq_some.mp hs
        cases hs
        rw [hp] at h
        exact h
    | stop | done => exact hout.elim

/-- A step of the session alone keeps it too. -/
theorem joinedTo_outside {w w' : World} {l : Mongoose.Label} {c : CallId} {v : Option Visit}
    (h : JoinedTo v (w.calls c)) (hout : l.Outside) (hstep : w.step l = some w') : JoinedTo v (w'.calls c) := by
  obtain heq | ⟨cmd, now, -, hnone, heq⟩ | ⟨b, call, call', rfl, hcall, heq, s, ht⟩ := World.calls_of_step hstep c
  · rwa [heq]
  · rw [hnone] at h
    rw [heq, show v = none from h]
    show (Call.enter cmd now).phase.Joined _ none
    rw [Call.enter]
    split
    · exact .inl rfl
    · exact rfl
  · rw [hcall] at h
    rw [heq]
    exact ht.joined hout h

/-- A step of one thread leaves the others' places alone. -/
theorem threads_of_logged {l l' : Line Holder × Line.Log Holder} {b : Line.Label Holder}
    (h : Line.logged strerror l b = some l') {i : Holder} (hi : ∀ c, b ≠ .send i c) (hi' : ∀ c, b ≠ .stop i c) :
    l'.1.threads i = l.1.threads i := by
  obtain heq | ⟨c, v, rfl, -⟩ | ⟨c, p, rfl, -⟩ := Line.thread_of_step (Run.recording_eq_some_iff.mp h).1 i
  · exact heq
  · exact absurd rfl (hi c)
  · exact absurd rfl (hi' c)

/-- A step that is not of a command leaves it where it was. -/
theorem calls_of_other {w w' : World} {l : Mongoose.Label} {c : CallId} (h : w.step l = some w')
    (hl : l.call ≠ some c) : w'.calls c = w.calls c := by
  obtain heq | ⟨cmd, now, rfl, -⟩ | ⟨b, call, call', rfl, -⟩ := World.calls_of_step h c
  · exact heq
  · exact absurd rfl hl
  · exact absurd rfl hl

/-- A step of a command is one that it may take. -/
theorem took_of_act {w w' : World} {c : CallId} {b : Action} (h : w.step (.act c b) = some w') :
    ∃ call s call', w.calls c = some call ∧ Took c w.session call b s call' ∧ w' = w.put s c call' := by
  obtain ⟨d, cmd, now, hl, -⟩ | ⟨d, a, call, s, call', hl, hc, ht, rfl⟩ | ⟨j, a, s, p, hl, -⟩ | ⟨s, hl, -⟩ :=
    World.step_cases h
  · cases hl
  · cases hl
    exact ⟨call, s, call', hc, ht, rfl⟩
  · cases hl
  · cases hl

/-- A thread enters `send` with its frame, or is refused. -/
theorem carries_of_enter {l l' : Line Holder} {i : Holder} {data : Bytes} {timeout : Nat}
    (h : Line.step strerror l (.send i (.enter data timeout)) = some l') :
    ∃ v, l'.threads i = some v ∧ v.Carries data ∧ v ≠ .sent := by
  obtain ⟨⟨tty, v⟩, hs, rfl⟩ := Option.map_eq_some_iff.mp h
  have hm := Line.sent_of_send hs
  generalize l.threads i = o at hm
  refine ⟨v, Line.put_threads_self .., ?_⟩
  cases hm with
  | refused => exact ⟨trivial, nofun⟩
  | entered => exact ⟨rfl, nofun⟩

/-- A closer performs a section of `close`. -/
theorem closer_of_close {w w' : World} {j : CloserId} {b : CloseAction} (h : w.step (.close j b) = some w') :
    ∃ s p, w.session.close j (w.closers j) b = some (s, p) ∧ w'.closers j = some p := by
  obtain ⟨⟨s, p⟩, hs, rfl⟩ := Option.map_eq_some_iff.mp h
  exact ⟨s, p, hs, Function.update_self ..⟩

/-- A closer enters `stop`. -/
theorem thread_of_enter {l l' : Line Holder} {i : Holder} (h : Line.step strerror l (.stop i .enter) = some l') :
    l'.threads i = some (.stop .entering) := by
  obtain ⟨⟨tty, v⟩, hs, rfl⟩ := Option.map_eq_some_iff.mp h
  obtain ⟨p, rfl, hm⟩ := Line.stopped_of_stop hs
  rw [Line.put_threads_self]
  generalize l.threads i = o at hm
  cases hm
  rfl

/-- Every command stays joined to its send, -/
theorem Joined.commands_step (h : Joined k) (hserial : k.line.Serial k.log) (hstep : step strerror k a = some k')
    (c : CallId) : JoinedTo (k'.line.threads (.command c)) (k'.world.calls c) := by
  have hc := h.commands c
  obtain ⟨l, hout, hw, hl⟩ | ⟨b, hin, hw, hl⟩ | ⟨d, call, n, hd, hp, hw, hl⟩ | ⟨d, ht, hw, hl⟩ |
    ⟨d, e, ht, hw, hl⟩ | ⟨bytes, hp, hw, hl⟩ | ⟨reason, hp, hw, hl⟩ | ⟨j, hw, hl⟩ | ⟨j, ht, hw, hl⟩ :=
    moved_of_step hstep
  · rw [show k'.line = k.line from congrArg Prod.fst hl]
    exact joinedTo_outside hc hout hw
  · rw [hw]
    exact joinedTo_inside hc hserial hin (Run.recording_eq_some_iff.mp hl).1
  · by_cases hdc : c = d
    · subst hdc
      obtain ⟨old, s, new, hold, ht, hput⟩ := took_of_act hw
      obtain rfl := Option.some.inj (hold.symm.trans hd)
      rw [hput, World.put_calls_self]
      cases ht with
      | send m hm =>
          obtain ⟨v, hv, hcarries, -⟩ := carries_of_enter (Run.recording_eq_some_iff.mp hl).1
          exact ⟨v, hv, hcarries⟩
    · rw [threads_of_logged hl (fun b hb => hdc (by cases hb; rfl)) nofun,
        calls_of_other hw fun hl => hdc (Option.some.inj hl).symm]
      exact hc
  · rw [show k'.line = k.line from congrArg Prod.fst hl]
    by_cases hdc : c = d
    · subst hdc
      obtain ⟨old, s, new, hold, hm, hput⟩ := took_of_act hw
      rw [hput, World.put_calls_self]
      cases hm
      exact ht
    · rw [calls_of_other hw fun hl => hdc (Option.some.inj hl).symm]
      exact hc
  · rw [show k'.line = k.line from congrArg Prod.fst hl]
    by_cases hdc : c = d
    · subst hdc
      obtain ⟨old, s, new, hold, hm, hput⟩ := took_of_act hw
      rw [hput, World.put_calls_self]
      cases hm
      exact ht
    · rw [calls_of_other hw fun hl => hdc (Option.some.inj hl).symm]
      exact hc
  · rw [threads_of_logged hl (by nofun) (by nofun), calls_of_other hw nofun]
    exact hc
  · rw [threads_of_logged hl (by nofun) (by nofun), calls_of_other hw nofun]
    exact hc
  · rw [threads_of_logged hl (by nofun) (by nofun), calls_of_other hw nofun]
    exact hc
  · rw [show k'.line = k.line from congrArg Prod.fst hl, calls_of_other hw nofun]
    exact hc

/-- and every closer to its stop, -/
theorem Joined.closers_step (h : Joined k) (hstep : step strerror k a = some k') (j : CloserId) :
    ClosedBy (k'.line.threads (.close j)) (k'.world.closers j) := by
  have hj := h.closers j
  have hsame {l : Mongoose.Label} (hw : k.world.step l = some k'.world) (hl : ∀ b, l ≠ .close j b) :
      k'.world.closers j = k.world.closers j := by
    obtain heq | ⟨b, s, p, rfl, -⟩ := closers_of_step hw j
    · exact heq
    · exact absurd rfl (hl b)
  obtain ⟨l, hout, hw, hl⟩ | ⟨b, hin, hw, hl⟩ | ⟨d, call, n, hd, hp, hw, hl⟩ | ⟨d, ht, hw, hl⟩ |
    ⟨d, e, ht, hw, hl⟩ | ⟨bytes, hp, hw, hl⟩ | ⟨reason, hp, hw, hl⟩ | ⟨i, hw, hl⟩ | ⟨i, ht, hw, hl⟩ :=
    moved_of_step hstep
  · rw [show k'.line = k.line from congrArg Prod.fst hl]
    exact closedBy_outside hj hout hw
  · rw [hw]
    exact closedBy_inside hj hin (Run.recording_eq_some_iff.mp hl).1
  · rw [threads_of_logged hl (by nofun) (by nofun), hsame hw (by nofun)]
    exact hj
  · rw [show k'.line = k.line from congrArg Prod.fst hl, hsame hw (by nofun)]
    exact hj
  · rw [show k'.line = k.line from congrArg Prod.fst hl, hsame hw (by nofun)]
    exact hj
  · rw [threads_of_logged hl (by nofun) (by nofun), hsame hw (by nofun)]
    exact hj
  · rw [threads_of_logged hl (by nofun) (by nofun), hsame hw (by nofun)]
    exact hj
  · by_cases hji : j = i
    · subst hji
      obtain ⟨s, p, hs, heq⟩ := closer_of_close hw
      obtain ⟨hp, hs⟩ := Option.ite_none_right_eq_some.mp hs
      cases hs
      rw [heq]
      exact ⟨_, thread_of_enter (Run.recording_eq_some_iff.mp hl).1⟩
    · rw [threads_of_logged hl (by nofun) fun b hb => hji (by cases hb; rfl), hsame hw fun b hb => hji (by cases hb; rfl)]
      exact hj
  · rw [show k'.line = k.line from congrArg Prod.fst hl]
    by_cases hji : j = i
    · subst hji
      obtain ⟨s, p, hs, heq⟩ := closer_of_close hw
      obtain ⟨hp, hs⟩ := Option.ite_none_right_eq_some.mp hs
      cases hs
      rw [heq, ht]
      exact .inr rfl
    · rw [hsame hw fun b hb => hji (by cases hb; rfl)]
      exact hj

/-- in every step. -/
theorem Joined.step (h : Joined k) (hserial : k.line.Serial k.log) (hstep : step strerror k a = some k') :
    Joined k' :=
  ⟨h.commands_step hserial hstep, h.closers_step hstep⟩

/-- The thread of a closer is inside `stop`. -/
theorem Joined.closer_stops (h : Joined k) {j : CloserId} {v : Visit} (hv : k.line.threads (.close j) = some v) :
    ∃ p, v = .stop p := by
  have hj := h.closers j
  rw [hv] at hj
  exact hj.stops

/-- What holds of a run of both sides. -/
theorem joined_run (hfd : 0 ≤ fd) (hne : wake ≠ fd) (hinit : Line.Started strerror fd wake exclusive l₀ log₀)
    (h : Run.run (step strerror) (opened protocol l₀ log₀) as = some k) : Joined k := by
  refine Run.run_induction (P := fun _ k => Joined k) ?_ ?_ h
  · obtain ⟨fds, hstart, -⟩ := hinit
    have hthreads := Line.threads_of_start hstart
    exact ⟨fun c => congrFun hthreads _, fun j => congrFun hthreads _⟩
  · intro bs m b m' hm hj hstep
    obtain ⟨-, ks, hrun⟩ := sides hm
    exact hj.step (Line.serial_run hfd hne hinit hrun).1 hstep

end Link

end Mongoose
