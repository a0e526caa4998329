import Mongoose.Lib.Leads
import Mongoose.Link.Joined
import Mongoose.Session.Closing
import Mongoose.Tty.Progress

/-!
# Mongoose.Link.Progress

No call hangs.

A thread of the session may wait for `transaction_`, `close_mutex_`, `stop_mutex_`,
`io_mutex_` or the worker.  In every state that a session over its transport reaches, the
one that is waited for is on its way and waits for nobody: from there the commands and the
closers that are inside can all come to their ends, with no help from new callers or from
the adapter.  A closer gets there without any deadline passing.
-/

namespace Mongoose

/-! ## who holds `transaction_` -/

/-- A call that is inside a section and leaves it gives `transaction_` back. -/
theorem Took.released {c : CallId} {s s' : Session} {call call' : Call} {a : Action} (h : Took c s call a s' call')
    (hh : call.phase.Holds) (hn : ¬ call'.phase.Holds) : s'.transaction = none := by
  cases h with
  | slot hp | slotTimeout _ hp =>
      rw [hp] at hh
      exact hh.elim
  | closing | failed | full | oversize | undo | abandon | woken | answered | expire => rfl
  | allocated | known | knownThrows | late | budget | send | sendReturns | sendThrows => exact absurd trivial hn

/-- A call that stays outside its sections moves nothing. -/
theorem Took.eq_of_outside {c : CallId} {s s' : Session} {call call' : Call} {a : Action}
    (h : Took c s call a s' call') (hh : ¬ call.phase.Holds) (hn : ¬ call'.phase.Holds) : s' = s := by
  cases h with
  | slot => exact absurd trivial hn
  | slotTimeout => rfl
  | closing _ hp | failed _ hp | full _ _ hp | oversize _ _ _ hp | allocated _ _ _ hp | known hp
  | knownThrows _ _ hp | late _ hp | budget _ _ hp | send _ hp | sendReturns hp | sendThrows _ hp
  | undo _ hp | abandon _ hp | woken _ hp | answered _ hp | expire _ hp =>
      exact absurd (by rw [hp]; trivial) hh

namespace World

variable {w w' : World} {l : Mongoose.Label}

/-- A thread is inside a section that holds `transaction_`. -/
def Inside (w : World) : Holder → Prop
  | .command c => ∃ call, w.calls c = some call ∧ call.phase.Holds
  | .close j => w.closers j = some .drained ∨ w.closers j = some .stopping

/-- Whoever `transaction_` names is inside. -/
def Staffed (w : World) : Prop := ∀ o, w.session.transaction = some o → w.Inside o

/-- A call that was outside goes on while others stay. -/
theorem Staffed.other (h : w.Staffed) {c : CallId} (hc : ∀ call, w.calls c = some call → ¬ call.phase.Holds)
    (call' : Call) : (w.put w.session c call').Staffed := by
  intro o ho
  have hs := h o ho
  cases o with
  | command d =>
      obtain ⟨call, hd, hholds⟩ := hs
      have hdc : d ≠ c := fun hdc => hc call (hdc ▸ hd) hholds
      exact ⟨call, by rw [put_calls_of_ne _ _ _ hdc]; exact hd, hholds⟩
  | close j => exact hs

/-- A step of a command leaves whoever has the slot inside. -/
theorem Staffed.act (h : w.Staffed) (hw : w.Sound) {c : CallId} {call call' : Call} {a : Action} {s : Session}
    (hc : w.calls c = some call) (ht : Took c w.session call a s call') : (w.put s c call').Staffed := by
  by_cases hh : call'.phase.Holds
  · intro o ho
    obtain rfl := Option.some.inj (ho.symm.trans (ht.transaction_of_holds (hw.holds hc) hh))
    exact ⟨call', put_calls_self .., hh⟩
  · by_cases hold : call.phase.Holds
    · intro o ho
      rw [put_session, ht.released hold hh] at ho
      cases ho
    · rw [ht.eq_of_outside hold hh]
      exact h.other (fun call'' hc' => Option.some.inj (hc.symm.trans hc') ▸ hold) call'

/-- A closer that was outside, or stays inside, leaves the others where they are. -/
theorem Inside.close {o : Holder} (h : w.Inside o) {s : Session} {j : CloserId} {p : ClosePhase}
    (hj : w.closers j ≠ some .drained ∧ w.closers j ≠ some .stopping ∨ p = .stopping) :
    Inside { w with session := s, closers := Function.update w.closers j (some p) } o := by
  cases o with
  | command c => exact h
  | close i =>
      by_cases hij : i = j
      · subst hij
        obtain hj | rfl := hj
        · exact (h.elim hj.1 hj.2).elim
        · exact .inr (Function.update_self ..)
      · have hi : Function.update w.closers j (some p) i = w.closers i := Function.update_of_ne hij ..
        exact h.imp hi.trans hi.trans

/-- So does a closer. -/
theorem Staffed.close (h : w.Staffed) {j : CloserId} {a : CloseAction} {s : Session} {p : ClosePhase}
    (hs : Closed j w.session (w.closers j) a s p) :
    Staffed { w with session := s, closers := Function.update w.closers j (some p) } := by
  intro o ho
  generalize hk : w.closers j = q at hs
  cases hs with
  | lock | again | mark => exact (h o ho).close (.inl (by simp [hk]))
  | drain ht =>
      obtain rfl := Option.some.inj ho
      exact .inl (Function.update_self ..)
  | stop => exact (h o ho).close (.inr rfl)
  | done => cases ho

/-- Somebody works whenever the slot is taken. -/
theorem Staffed.step (h : w.Staffed) (hw : w.Sound) (hs : w.step l = some w') : w'.Staffed := by
  obtain ⟨c, cmd, now, rfl, hc, rfl⟩ | ⟨c, a, call, s, call', rfl, hc, ht, rfl⟩ | ⟨j, a, s, p, rfl, hclose, rfl⟩ |
    ⟨s, -, he, rfl⟩ := step_cases hs
  · exact h.other (fun call hc' => by rw [hc] at hc'; cases hc') _
  · exact h.act hw hc ht
  · exact h.close (closed_of_close hclose)
  · intro o ho
    exact h o ((Session.quiet_of_environment he).2.symm.trans ho)

/-- In every run. -/
theorem staffed_run {protocol : ReceiverRef → UInt32} {ls : List Mongoose.Label}
    (h : Run.run step (opened protocol) ls = some w) : w.Staffed := by
  refine (Run.invariant (I := fun w => w.Sound ∧ w.Staffed) ?_ ⟨sound_opened protocol, fun o ho => ?_⟩ h).2
  · intro m l t hm hs
    exact ⟨hm.1.step hs, hm.2.step hm.1 hs⟩
  · cases ho

end World

/-! ## steps that are there -/

/-- A command whose thread is on its way inside the transport is in its send. -/
theorem Phase.Joined.sent_of_not_over {wire : Bytes} {v : Visit} {p : Phase} (h : p.Joined wire (some v))
    (hv : ¬ v.Over) : p = .sent := by
  cases p with
  | sent => rfl
  | abandon e =>
      obtain rfl := Option.some.inj h
      exact absurd trivial hv
  | waiting | returned =>
      obtain rfl := Option.some.inj h
      exact absurd trivial hv
  | threw e =>
      obtain h | h | ⟨e, h⟩ := h
      · cases h
      · obtain rfl := Option.some.inj h
        exact absurd trivial hv
      · obtain rfl := Option.some.inj h
        exact absurd trivial hv
  | slot | started | allocated | known | sending | undo => cases h

/-- A thread that holds a mutex of the transport is on its way. -/
theorem Visit.Writes.not_over {v : Visit} (h : v.Writes) : ¬ v.Over := by
  cases v with
  | stop p => cases p <;> first | exact h.elim | exact id
  | _ => first | exact h.elim | exact id

/-- A visit that stops the transport is not over. -/
theorem Visit.Stops.not_over {v : Visit} (h : v.Stops) : ¬ v.Over := by
  cases v with
  | stop p => cases p <;> first | exact h.elim | exact id
  | _ => exact h.elim

/-- And a closer is in its stop. -/
theorem Link.ClosedBy.stopping_of_not_over {v : Visit} {o : Option ClosePhase} (h : Link.ClosedBy (some v) o)
    (hv : ¬ v.Over) : o = some .stopping := by
  cases o with
  | none => cases h
  | some q =>
      cases q with
      | stopping => rfl
      | done =>
          obtain h | h := h
          · cases h
          · obtain rfl := Option.some.inj h
            exact absurd trivial hv
      | locked | draining | drained => cases h

namespace Link

/-- A step of a thread that is inside already, and that brings no more bytes. -/
def Label.Settles : Label → Prop
  | .session (.enter ..) | .session (.close _ .lock) | .session (.set_can_receiver _) | .session (.client ..) => False
  | .transport (.pump (.read (.ok bytes))) => bytes = []
  | _ => True

/-- A wait that ends at its deadline. -/
def Label.Expires : Label → Prop
  | .session (.act _ (.slotTimeout _)) | .session (.act _ (.expire _)) => True
  | _ => False

/-- A step that needs neither. -/
def Label.Prompt (a : Label) : Prop := a.Settles ∧ ¬ a.Expires

variable {strerror : Int → String} {k : Link} {a : Label}

/-- A step of the session alone is one of the link. -/
theorem exists_session {l : Mongoose.Label} {w : World} (hparts : parts k a = some (some l, none))
    (hw : k.world.step l = some w) : ∃ k', step strerror k a = some k' ∧ k'.world = w ∧ k'.2 = k.2 :=
  ⟨((w, World.Log.note k.world l w k.heard), k.2),
    Product.step_eq_some_iff.mpr ⟨_, _, hparts, Run.recording_eq_some_iff.mpr ⟨hw, rfl⟩, rfl⟩, rfl, rfl⟩

/-- So is one of the transport alone. -/
theorem exists_transport {b : Line.Label Holder} {l : Line Holder} (hparts : parts k a = some (none, some b))
    (hl : Line.step strerror k.line b = some l) : ∃ k', step strerror k a = some k' ∧ k'.world = k.world ∧ k'.line = l :=
  ⟨(k.1, (l, Line.Log.note strerror k.line b l k.log)),
    Product.step_eq_some_iff.mpr ⟨_, _, hparts, rfl, Run.recording_eq_some_iff.mpr ⟨hl, rfl⟩⟩, rfl, rfl⟩

/-- And one of both together. -/
theorem exists_both {l : Mongoose.Label} {w : World} {b : Line.Label Holder} {m : Line Holder}
    (hparts : parts k a = some (some l, some b)) (hw : k.world.step l = some w)
    (hl : Line.step strerror k.line b = some m) : ∃ k', step strerror k a = some k' ∧ k'.world = w ∧ k'.line = m :=
  ⟨((w, World.Log.note k.world l w k.heard), (m, Line.Log.note strerror k.line b m k.log)),
    Product.step_eq_some_iff.mpr ⟨_, _, hparts, Run.recording_eq_some_iff.mpr ⟨hw, rfl⟩,
      Run.recording_eq_some_iff.mpr ⟨hl, rfl⟩⟩, rfl, rfl⟩

/-! ## what is known of a state -/

/-- A state that some session over a started transport reaches. -/
def Reached (strerror : Int → String) (k : Link) : Prop :=
  ∃ protocol fd wake exclusive l₀ log₀ as, 0 ≤ fd ∧ wake ≠ fd ∧ Line.Started strerror fd wake exclusive l₀ log₀ ∧
    Run.run (step strerror) (opened protocol l₀ log₀) as = some k

/-- The invariants of both sides. -/
structure Settled (k : Link) : Prop where
  world : k.world.Sound
  staffed : k.world.Staffed
  closers : ∃ ls, World.Closers ls k.world
  joined : Joined k
  line : ∃ fd wake, Line.Sound fd wake k.line
  serial : k.line.Serial k.log
  live : k.line.Live
  receive : ∀ bytes, ∃ s, k.world.session.receive bytes = .ok s

theorem Reached.settled (h : Reached strerror k) : Settled k := by
  obtain ⟨protocol, fd, wake, exclusive, l₀, log₀, as, hfd, hne, hinit, hrun⟩ := h
  obtain ⟨ls, hworld⟩ := world_run hrun
  obtain ⟨-, ks, hline⟩ := sides hrun
  exact {
    world := sound hrun
    staffed := World.staffed_run hworld
    closers := ⟨ls, World.closers_run hworld⟩
    joined := joined_run hfd hne hinit hrun
    line := ⟨fd, wake, (Line.told_run hfd hne hinit hline).1⟩
    serial := (Line.serial_run hfd hne hinit hline).1
    live := Line.live_run hinit hline
    receive := receive_enabled hrun }

/-- A step leads to another state that can be reached. -/
theorem Reached.step {k' : Link} (h : Reached strerror k) (hstep : Link.step strerror k a = some k') :
    Reached strerror k' := by
  obtain ⟨protocol, fd, wake, exclusive, l₀, log₀, as, hfd, hne, hinit, hrun⟩ := h
  exact ⟨protocol, fd, wake, exclusive, l₀, log₀, as ++ [a], hfd, hne, hinit, Run.run_concat hrun hstep⟩

/-- Only the thread that holds `transaction_` is on its way inside the transport. -/
theorem Settled.inside (h : Settled k) {i : Holder} {v : Visit} (hi : k.line.threads i = some v) (hv : ¬ v.Over) :
    k.world.session.transaction = some i := by
  cases i with
  | command c =>
      have hc := h.joined.commands c
      rw [hi] at hc
      cases hcall : k.world.calls c with
      | none =>
          rw [hcall] at hc
          cases hc
      | some call =>
          rw [hcall] at hc
          refine h.world.holds hcall ?_
          rw [Phase.Joined.sent_of_not_over hc hv]
          trivial
  | close j =>
      have hj := h.joined.closers j
      rw [hi] at hj
      exact h.world.closes (.inr (hj.stopping_of_not_over hv))

/-- So no other thread keeps it from a mutex of the transport. -/
theorem Settled.free (h : Settled k) {In : Visit → Prop} {m : Option Holder}
    (hm : Mutex.Guards In k.line.threads m) (hin : ∀ u, In u → ¬ u.Over) {i : Holder} {v : Visit}
    (hi : k.line.threads i = some v) (hv : ¬ v.Over) (hout : ¬ In v) : m = none := by
  by_contra hne
  obtain ⟨j, rfl⟩ := Option.ne_none_iff_exists'.mp hne
  obtain ⟨u, hj, hu⟩ := (hm j).mp rfl
  obtain rfl : j = i := Option.some.inj ((h.inside hj (hin u hu)).symm.trans (h.inside hi hv))
  exact hout (Option.some.inj (hj.symm.trans hi) ▸ hu)

/-! ## commands -/

/-- The closers stand where they stood, and a command is where `P` says. -/
def Holding (strerror : Int → String) (cl : CloserId → Option ClosePhase) (c : CallId) (P : Session → Call → Prop)
    (k : Link) : Prop :=
  Reached strerror k ∧ k.world.closers = cl ∧ ∃ call, k.world.calls c = some call ∧ P k.world.session call

/-- The command is over, and nobody holds `transaction_`. -/
def Left (s : Session) (call : Call) : Prop := call.phase.Ended ∧ s.transaction = none

variable {cl : CloserId → Option ClosePhase} {c : CallId} {P Q : Session → Call → Prop}

/-- A step of the command that does not leave the session. -/
theorem leads_act {ok : Label → Prop} (h : ∀ k call, Settled k → k.world.closers = cl → P k.world.session call →
      ∃ b s call', ok (.session (.act c b)) ∧ Label.Outside (.act c b) ∧
        call.step c k.world.session b = some (s, call') ∧ Q s call') :
    Run.Leads (step strerror) ok (Holding strerror cl c P) (Holding strerror cl c Q) := by
  refine .of_step fun k hk => ?_
  obtain ⟨hr, hcl, call, hc, hp⟩ := hk
  obtain ⟨b, s, call', hok, hout, hstep, hq⟩ := h k call hr.settled hcl hp
  have hworld : k.world.step (.act c b) = some (k.world.put s c call') := by simp [World.step, hc, hstep]
  obtain ⟨k', hk', hworld, -⟩ :=
    exists_session (a := .session (.act c b)) (if_pos hout) hworld
  refine ⟨_, k', hok, hk', hr.step hk', ?_, call', ?_, ?_⟩
  · rw [hworld]
    exact hcl
  · rw [hworld]
    exact World.put_calls_self ..
  · rw [hworld]
    exact hq

/-- Nothing but the two timeouts needs the clock. -/
theorem prompt_act {b : Action} (h : (∀ now, b ≠ .slotTimeout now) ∧ ∀ now, b ≠ .expire now) :
    (Label.session (.act c b)).Prompt := by
  refine ⟨trivial, ?_⟩
  cases b with
  | slotTimeout now => exact absurd rfl (h.1 now)
  | expire now => exact absurd rfl (h.2 now)
  | _ => exact id

/-- A command whose send failed leaves. -/
theorem leads_abandon : Run.Leads (step strerror) Label.Prompt
    (Holding strerror cl c fun _ call => ∃ e, call.phase = .abandon e) (Holding strerror cl c Left) := by
  refine leads_act fun k call _ _ hp => ?_
  obtain ⟨e, hp⟩ := hp
  exact ⟨.abandon, Call.release k.world.session.abandon, call.goto (.threw e), prompt_act (by simp), trivial,
    by simp [Call.step, hp], trivial, rfl⟩

/-- So does one that gave up before it sent. -/
theorem leads_undo : Run.Leads (step strerror) Label.Prompt
    (Holding strerror cl c fun _ call => ∃ e, call.phase = .undo e) (Holding strerror cl c Left) := by
  refine leads_act fun k call _ _ hp => ?_
  obtain ⟨e, hp⟩ := hp
  exact ⟨.undo, Call.release (k.world.session.undo call.allocated), call.goto (.threw e), prompt_act (by simp), trivial,
    by simp [Call.step, hp], trivial, rfl⟩

/-- A command in its send comes out of the transport. -/
theorem leads_sent : Run.Leads (step strerror) Label.Prompt
    (Holding strerror cl c fun _ call => call.phase = .sent)
    (Holding strerror cl c fun _ call => call.phase = .waiting ∨ ∃ e, call.phase = .abandon e) := by
  refine .of_rank (fun k => ((k.line.threads (.command c)).map Visit.rank).getD 0) fun k hk => ?_
  obtain ⟨hr, hcl, call, hc, hp⟩ := hk
  have hs := hr.settled
  have hj := hs.joined.commands c
  rw [hc, JoinedTo, hp] at hj
  obtain ⟨v, hv, hcarries⟩ := hj
  have hact {b : Action} {call' : Call} (hstep : call.step c k.world.session b = some (k.world.session, call')) :
      k.world.step (.act c b) = some (k.world.put k.world.session c call') := by
    simp [World.step, hc, hstep]
  by_cases hover : v.Over
  · cases v with
    | sent =>
        obtain ⟨k', hk', hworld, -⟩ := exists_session (a := .sendReturns c) (if_pos hv)
          (hact (b := .sendReturns) (by simp [Call.step, hp]; rfl))
        exact ⟨.sendReturns c, k', ⟨trivial, id⟩, hk', .inl ⟨hr.step hk', by rw [hworld]; exact hcl, _,
          by rw [hworld]; exact World.put_calls_self .., .inl rfl⟩⟩
    | threw e =>
        obtain ⟨k', hk', hworld, -⟩ := exists_session (a := .sendThrows c) (by simp [parts, hv])
          (hact (b := .sendThrows e) (by simp [Call.step, hp]; rfl))
        exact ⟨.sendThrows c, k', ⟨trivial, id⟩, hk', .inl ⟨hr.step hk', by rw [hworld]; exact hcl, _,
          by rw [hworld]; exact World.put_calls_self .., .inr ⟨e, rfl⟩⟩⟩
    | stop p => exact hcarries.elim
    | entering | checking | tracing | writing => exact hover.elim
  · obtain ⟨fd, wake, hline⟩ := hs.line
    have hstop (p : StopPhase) : v ≠ .stop p := by
      intro hv
      rw [hv] at hcarries
      exact hcarries
    obtain ⟨b, l', u, hb, hstep, hu, hu', hrank⟩ := Line.exists_send_step hs.serial hs.live hv hover hstop
      (by
        intro h
        obtain ⟨data, timeout, rfl⟩ := h
        exact hs.free hline.io (fun u hu => hu.not_over) hv hover (by simp [Visit.Writes]))
    have hin : Line.Label.Inside k.line.tty.worker (.send (.command c) b) := by
      cases b with
      | enter data timeout => exact absurd rfl (hb data timeout)
      | _ => trivial
    obtain ⟨k', hk', hworld, hline'⟩ :=
      exists_transport (k := k) (a := .transport (.send (.command c) b)) (if_pos hin) hstep
    refine ⟨.transport (.send (.command c) b), k', ⟨trivial, id⟩, hk',
      .inr ⟨⟨hr.step hk', hworld ▸ hcl, call, hworld ▸ hc, hp⟩, ?_⟩⟩
    simpa [hline', hu, hv] using hrank

/-- A command enters the transport. -/
theorem leads_sending : Run.Leads (step strerror) Label.Prompt
    (Holding strerror cl c fun _ call => ∃ n, call.phase = .sending n)
    (Holding strerror cl c fun _ call => call.phase = .sent) := by
  refine .of_step fun k hk => ?_
  obtain ⟨hr, hcl, call, hc, n, hp⟩ := hk
  have hj := hr.settled.joined.commands c
  rw [hc, JoinedTo, hp] at hj
  have hv : k.line.threads (.command c) = none := hj
  have hworld : k.world.step (.act c .send) = some (k.world.put k.world.session c (call.goto .sent)) := by
    simp [World.step, hc, Call.step, hp]
  obtain ⟨k', hk', hw, -⟩ := exists_both (k := k) (a := .send c)
    (b := .send (.command c) (.enter call.wire n.toNat)) (by simp [parts, hc, hp]) hworld
    (by simp [Line.step, Line.send, hv]; rfl)
  exact ⟨.send c, k', ⟨trivial, id⟩, hk', hr.step hk', by rw [hw]; exact hcl, _,
    by rw [hw]; exact World.put_calls_self .., rfl⟩

/-- A command that is known gets to send, when the clock is read before its deadline. -/
theorem leads_known : Run.Leads (step strerror) Label.Prompt
    (Holding strerror cl c fun _ call => call.phase = .known)
    (Holding strerror cl c fun _ call => ∃ n, call.phase = .sending n) := by
  refine leads_act fun k call _ _ hp => ?_
  -- a reading of the clock before the deadline
  have hstep : call.step c k.world.session (.budget (call.deadline - 1)) =
      some (k.world.session, call.goto (call.budget (call.deadline - 1))) :=
    if_pos hp
  refine ⟨.budget (call.deadline - 1), _, _, prompt_act (by simp), trivial, hstep, ?_⟩
  simp [Call.goto, Call.budget]

/-- What was allocated becomes known. -/
theorem leads_allocated : Run.Leads (step strerror) Label.Prompt
    (Holding strerror cl c fun _ call => call.phase = .allocated)
    (Holding strerror cl c fun _ call => call.phase = .known) :=
  leads_act fun k call _ _ hp =>
    ⟨.known, call.known k.world.session, call.goto .known, prompt_act (by simp), trivial, by simp [Call.step, hp], rfl⟩

/-- A command that has just got `transaction_` takes a sequence, or leaves. -/
theorem leads_started : Run.Leads (step strerror) Label.Prompt
    (Holding strerror cl c fun _ call => call.phase = .started)
    (Holding strerror cl c fun s call => call.phase = .allocated ∨ Left s call) := by
  refine leads_act fun k call _ _ hp => ?_
  obtain ⟨s, call', hstart⟩ : ∃ s call', call.start k.world.session 0 = (s, call') := ⟨_, _, rfl⟩
  refine ⟨.start 0, s, call', prompt_act (by simp), trivial, by simp [Call.step, hp, hstart], ?_⟩
  cases took_of_start (c := c) hp hstart with
  | closing | failed | full | oversize => exact .inr ⟨trivial, rfl⟩
  | allocated => exact .inl rfl

/-- A weaker condition is held as well. -/
theorem Holding.imp {k : Link} (h : Holding strerror cl c P k) (hpq : ∀ s call, P s call → Q s call) :
    Holding strerror cl c Q k := by
  obtain ⟨hr, hcl, call, hc, hp⟩ := h
  exact ⟨hr, hcl, call, hc, hpq _ _ hp⟩

/-- Two ways on lead to one end. -/
theorem leads_or {R : Session → Call → Prop} {ok : Label → Prop}
    (h : Run.Leads (step strerror) ok (Holding strerror cl c P) (Holding strerror cl c R))
    (h' : Run.Leads (step strerror) ok (Holding strerror cl c Q) (Holding strerror cl c R)) :
    Run.Leads (step strerror) ok (Holding strerror cl c fun s call => P s call ∨ Q s call) (Holding strerror cl c R) := by
  intro k hk
  obtain ⟨hr, hcl, call, hc, hp | hq⟩ := hk
  · exact h k ⟨hr, hcl, call, hc, hp⟩
  · exact h' k ⟨hr, hcl, call, hc, hq⟩

/-- A command inside a section comes to its wait for the response, or leaves. -/
theorem leads_holds : Run.Leads (step strerror) Label.Prompt
    (Holding strerror cl c fun _ call => call.phase.Holds)
    (Holding strerror cl c fun s call => call.phase = .waiting ∨ Left s call) := by
  have hleft : Run.Leads (step strerror) Label.Prompt (Holding strerror cl c Left)
      (Holding strerror cl c fun s call => call.phase = .waiting ∨ Left s call) :=
    .of_imp fun k hk => hk.imp fun s call h => .inr h
  have hwaiting : Run.Leads (step strerror) Label.Prompt (Holding strerror cl c fun _ call => call.phase = .waiting)
      (Holding strerror cl c fun s call => call.phase = .waiting ∨ Left s call) :=
    .of_imp fun k hk => hk.imp fun s call h => .inl h
  have hsent := leads_sent.trans (leads_or hwaiting (leads_abandon.trans hleft))
  have hsending := leads_sending.trans hsent
  have hknown := leads_known.trans hsending
  have hallocated := leads_allocated.trans hknown
  have hstarted := leads_started.trans (leads_or hallocated hleft)
  intro k hk
  obtain ⟨hr, hcl, call, hc, hp⟩ := hk
  cases h : call.phase with
  | slot | returned | threw =>
      rw [h] at hp
      exact hp.elim
  | started => exact hstarted k ⟨hr, hcl, call, hc, h⟩
  | allocated => exact hallocated k ⟨hr, hcl, call, hc, h⟩
  | known => exact hknown k ⟨hr, hcl, call, hc, h⟩
  | sending n => exact hsending k ⟨hr, hcl, call, hc, n, h⟩
  | sent => exact hsent k ⟨hr, hcl, call, hc, h⟩
  | undo e => exact (leads_undo.trans hleft) k ⟨hr, hcl, call, hc, e, h⟩
  | abandon e => exact (leads_abandon.trans hleft) k ⟨hr, hcl, call, hc, e, h⟩
  | waiting => exact hwaiting k ⟨hr, hcl, call, hc, h⟩

/-- A wait that is ready ends. -/
theorem exists_wake {s : Session} {call : Call} (hp : call.phase = .waiting) (hr : s.ready) :
    ∃ s' call', call.step c s .wake = some (s', call') ∧ Left s' call' := by
  refine ⟨(call.wake s).1, (call.wake s).2, by simp [Call.step, hp, hr], ?_⟩
  rw [Call.wake]
  split <;> exact ⟨trivial, rfl⟩

/-- So does every wait once a closer has set `closing_`. -/
theorem leads_woken {j : CloserId} {p : ClosePhase} (hj : cl j = some p) (hp : p.Marked) :
    Run.Leads (step strerror) Label.Prompt
      (Holding strerror cl c fun _ call => call.phase = .waiting) (Holding strerror cl c Left) := by
  refine leads_act fun k call hs hcl hwait => ?_
  obtain ⟨ls, hclosers⟩ := hs.closers
  have hclosing := hclosers.closing j p (by rw [hcl, hj]) hp
  obtain ⟨s, call', hstep, hleft⟩ := exists_wake (c := c) hwait (.inr (.inl hclosing))
  exact ⟨.wake, s, call', prompt_act (by simp), trivial, hstep, hleft⟩

/-- Any other ends at its deadline at the latest. -/
theorem leads_expired : Run.Leads (step strerror) Label.Settles
    (Holding strerror cl c fun _ call => call.phase = .waiting) (Holding strerror cl c Left) := by
  refine leads_act fun k call _ _ hp => ?_
  by_cases hready : k.world.session.ready
  · obtain ⟨s, call', hstep, hleft⟩ := exists_wake (c := c) hp hready
    exact ⟨.wake, s, call', trivial, trivial, hstep, hleft⟩
  · exact ⟨.expire call.deadline, Call.release k.world.session.expire, call.goto (.threw _), trivial, trivial,
      by simp [Call.step, hp, hready]; rfl, trivial, rfl⟩

/-- A command that waits for the slot can run out of its time. -/
theorem leads_slot : Run.Leads (step strerror) Label.Settles
    (Holding strerror cl c fun _ call => call.phase = .slot)
    (Holding strerror cl c fun _ call => call.phase.Ended) := by
  refine leads_act fun k call _ _ hp => ?_
  exact ⟨.slotTimeout call.deadline, k.world.session, call.goto (.threw _), trivial, trivial,
    by simp [Call.step, hp]; rfl, trivial⟩

/-- A command comes to its end. -/
theorem leads_ended : Run.Leads (step strerror) Label.Settles
    (Holding strerror cl c fun _ _ => True) (Holding strerror cl c fun _ call => call.phase.Ended) := by
  have hleft : Run.Leads (step strerror) Label.Settles (Holding strerror cl c Left)
      (Holding strerror cl c fun _ call => call.phase.Ended) :=
    .of_imp fun k hk => hk.imp fun s call h => h.1
  have hwaits : Run.Leads (step strerror) Label.Settles (Holding strerror cl c fun _ call => call.phase.Holds)
      (Holding strerror cl c fun s call => call.phase = .waiting ∨ Left s call) :=
    leads_holds.mono fun a ha => ha.1
  have hholds := hwaits.trans (leads_or (leads_expired.trans hleft) hleft)
  intro k hk
  obtain ⟨hr, hcl, call, hc, -⟩ := hk
  cases h : call.phase with
  | slot => exact leads_slot k ⟨hr, hcl, call, hc, h⟩
  | returned | threw => exact ⟨[], k, by simp, rfl, hr, hcl, call, hc, by simp [h, Phase.Ended]⟩
  | _ => exact hholds k ⟨hr, hcl, call, hc, by simp [h, Phase.Holds]⟩

/-! ## closers -/

/-- A closer stands where `p` says. -/
def Closing (strerror : Int → String) (j : CloserId) (p : ClosePhase) (k : Link) : Prop :=
  Reached strerror k ∧ k.world.closers j = some p

variable {j : CloserId}

/-- A section of `close` that does not leave the session. -/
theorem exists_close {b : CloseAction} {s : Session} {p : ClosePhase} (hr : Reached strerror k)
    (hb : b ≠ .lock ∧ b ≠ .stop ∧ b ≠ .done) (hclose : k.world.session.close j (k.world.closers j) b = some (s, p)) :
    ∃ k', (Label.session (.close j b)).Prompt ∧ step strerror k (.session (.close j b)) = some k' ∧ Closing strerror j p k' := by
  have hworld : k.world.step (.close j b) =
      some { k.world with session := s, closers := Function.update k.world.closers j (some p) } := by
    simp [World.step, hclose]
  have hout : Label.Outside (.close j b) := by
    cases b with
    | lock => exact absurd rfl hb.1
    | stop => exact absurd rfl hb.2.1
    | done => exact absurd rfl hb.2.2
    | _ => trivial
  obtain ⟨k', hk', hw, -⟩ := exists_session (a := .session (.close j b)) (if_pos hout) hworld
  refine ⟨k', ⟨?_, id⟩, hk', hr.step hk', by rw [hw]; exact Function.update_self ..⟩
  cases b with
  | lock => exact absurd rfl hb.1
  | _ => trivial

/-- A closer that has `close_mutex_` sets `closing_`, or finds the session stopped. -/
theorem leads_locked : Run.Leads (step strerror) Label.Prompt (Closing strerror j .locked)
    fun k => Closing strerror j .draining k ∨ Closing strerror j .done k := by
  refine .of_step fun k hk => ?_
  obtain ⟨hr, hj⟩ := hk
  obtain ⟨k', hprompt, hk', hclosing⟩ := exists_close (j := j) (b := .mark) (s := k.world.session.mark_closing.1)
    (p := k.world.session.mark_closing.2) hr (by simp) (by simp [Session.close, hj])
  refine ⟨_, k', hprompt, hk', ?_⟩
  rw [Session.mark_closing] at hclosing
  split at hclosing
  · exact .inr hclosing
  · exact .inl hclosing

/-- A closer gets `transaction_` from the command that holds it. -/
theorem leads_draining : Run.Leads (step strerror) Label.Prompt (Closing strerror j .draining) (Closing strerror j .drained) := by
  have hfree : Run.Leads (step strerror) Label.Prompt
      (fun k => Closing strerror j .draining k ∧ k.world.session.transaction = none) (Closing strerror j .drained) := by
    refine .of_step fun k hk => ?_
    obtain ⟨⟨hr, hj⟩, ht⟩ := hk
    obtain ⟨k', hprompt, hk', hclosing⟩ := exists_close (j := j) (b := .drain)
      (s := { k.world.session with transaction := some (.close j) }) (p := .drained) hr (by simp)
      (by simp [Session.close, hj, ht])
    exact ⟨_, k', hprompt, hk', hclosing⟩
  intro k hk
  obtain ⟨hr, hj⟩ := hk
  have hs := hr.settled
  cases ht : k.world.session.transaction with
  | none => exact hfree k ⟨⟨hr, hj⟩, ht⟩
  | some o =>
      have hinside := hs.staffed o ht
      cases o with
      | command c =>
          obtain ⟨call, hc, hholds⟩ := hinside
          have hleaves : Run.Leads (step strerror) Label.Prompt
              (Holding strerror k.world.closers c fun _ call => call.phase.Holds) (Holding strerror k.world.closers c Left) :=
            leads_holds.trans (leads_or (leads_woken hj trivial) (.of_imp fun _ h => h))
          refine (hleaves.trans (.of_imp fun m hm => ?_) |>.trans hfree) k ⟨hr, rfl, call, hc, hholds⟩
          obtain ⟨hr', hcl, call', -, -, hnone⟩ := hm
          exact ⟨⟨hr', by rw [hcl, hj]⟩, hnone⟩
      | close i =>
          -- a closer that holds `transaction_` holds `close_mutex_` too
          obtain ⟨ls, hclosers⟩ := hs.closers
          obtain hi | hi := hinside
          · obtain rfl := hclosers.eq hj hi (by simp) (by simp)
            rw [hj] at hi
            cases hi
          · obtain rfl := hclosers.eq hj hi (by simp) (by simp)
            rw [hj] at hi
            cases hi

/-- A closer that has drained the session goes on to stop the transport. -/
theorem leads_drained : Run.Leads (step strerror) Label.Prompt (Closing strerror j .drained) (Closing strerror j .stopping) := by
  refine .of_step fun k hk => ?_
  obtain ⟨hr, hj⟩ := hk
  have hv := hr.settled.joined.closers j
  rw [hj] at hv
  have hv : k.line.threads (.close j) = none := hv
  have hworld : k.world.step (.close j .stop) = some { k.world with
      session := { k.world.session with stopped := true }
      closers := Function.update k.world.closers j (some .stopping) } := by
    simp [World.step, Session.close, hj]
  obtain ⟨k', hk', hw, -⟩ := exists_both (k := k) (a := .stop j) (b := .stop (.close j) .enter)
    rfl hworld (by simp [Line.step, Line.stop, hv]; rfl)
  exact ⟨.stop j, k', ⟨trivial, id⟩, hk', hr.step hk', by rw [hw]; exact Function.update_self ..⟩

/-- How far a closer and the worker are from the end of a stop. -/
def stop_rank (j : CloserId) (k : Link) : ℕ :=
  ((k.line.threads (.close j)).map Visit.rank).getD 0 + (k.line.tty.worker.map PumpPhase.rank).getD 0

/-- The worker goes on while a closer waits for it. -/
theorem exists_worker {p : PumpPhase} (hr : Reached strerror k) (hj : k.world.closers j = some .stopping)
    (hp : k.line.tty.worker = some p) (hne : p ≠ .exited) (hs : k.line.tty.stopping = true) :
    ∃ a k', Label.Prompt a ∧ step strerror k a = some k' ∧ Closing strerror j .stopping k' ∧
      stop_rank j k' < stop_rank j k := by
  obtain ⟨tty, q, hstep, hq, hrank⟩ := Line.exists_pump_step hp hne hs
  have hdone {a : Label} {k' : Link} (hk' : step strerror k a = some k') (hw : k'.world.closers = k.world.closers)
      (hl : k'.line = { k.line with tty := tty }) :
      Closing strerror j .stopping k' ∧ stop_rank j k' < stop_rank j k := by
    refine ⟨⟨hr.step hk', by rw [hw, hj]⟩, ?_⟩
    simp only [stop_rank, hl, hq, hp, Option.map_some, Option.getD_some]
    omega
  have hplain (hin : Line.Label.Inside k.line.tty.worker (.pump p.next))
      (hsettles : Label.Settles (.transport (.pump p.next))) :
      ∃ a k', Label.Prompt a ∧ step strerror k a = some k' ∧ Closing strerror j .stopping k' ∧
        stop_rank j k' < stop_rank j k := by
    obtain ⟨k', hk', hw, hl⟩ := exists_transport (a := .transport (.pump p.next)) (if_pos hin) hstep
    exact ⟨_, k', ⟨hsettles, id⟩, hk', hdone hk' (by rw [hw]) hl⟩
  cases p with
  | delivering bytes =>
      obtain ⟨s, hreceive⟩ := hr.settled.receive bytes
      have hworld : k.world.step (.receive bytes) = some { k.world with session := s } := by
        simp [World.step, World.environment, hreceive, Except.toOption]
      obtain ⟨k', hk', hw, hl⟩ := exists_both (a := .receive) (by simp [parts, hp]; rfl) hworld hstep
      exact ⟨.receive, k', ⟨trivial, id⟩, hk', hdone hk' (by rw [hw]) hl⟩
  | reporting reason =>
      have hworld : k.world.step (.failed reason) = some { k.world with session := k.world.session.failed reason } := by
        simp [World.step, World.environment]
      obtain ⟨k', hk', hw, hl⟩ := exists_both (a := .failed) (by simp [parts, hp]; rfl) hworld hstep
      exact ⟨.failed, k', ⟨trivial, id⟩, hk', hdone hk' (by rw [hw]) hl⟩
  | exited => exact absurd rfl hne
  | top | polling | tracing | faulting => exact hplain trivial trivial
  | reading => exact hplain trivial rfl

/-- A closer in its stop comes out of the transport, and `close` returns. -/
theorem leads_stopping : Run.Leads (step strerror) Label.Prompt (Closing strerror j .stopping) (Closing strerror j .done) := by
  refine .of_rank (stop_rank j) fun k hk => ?_
  obtain ⟨hr, hj⟩ := hk
  have hs := hr.settled
  have hv := hs.joined.closers j
  rw [hj] at hv
  obtain ⟨p, hp⟩ : ∃ p, k.line.threads (.close j) = some (.stop p) := hv
  by_cases hdone : p = .done
  · subst hdone
    have hworld : k.world.step (.close j .done) = some { k.world with
        session := { k.world.session with transaction := none, close_mutex := none }
        closers := Function.update k.world.closers j (some .done) } := by
      simp [World.step, Session.close, hj]
    obtain ⟨k', hk', hw, -⟩ := exists_session (a := .stopped j) (if_pos hp) hworld
    exact ⟨.stopped j, k', ⟨trivial, id⟩, hk', .inl ⟨hr.step hk', by rw [hw]; exact Function.update_self ..⟩⟩
  have hover : ¬ (Visit.stop p).Over := by
    cases p <;> first | exact absurd rfl hdone | exact id
  obtain ⟨fd, wake, hline⟩ := hs.line
  by_cases hworker : p = .joining ∧ ∃ q, k.line.tty.worker = some q ∧ q ≠ .exited
  · obtain ⟨rfl, q, hq, hne⟩ := hworker
    have hstands := hline.stands _ _ hp
    obtain ⟨a, k', hprompt, hk', hclosing, hrank⟩ := exists_worker hr hj hq hne hstands.2
    exact ⟨a, k', hprompt, hk', .inr ⟨hclosing, hrank⟩⟩
  · obtain ⟨b, l', q, hb, hstep, hq, hrank, hworker'⟩ := Line.exists_stop_step hp hdone
      (fun he => by
        subst he
        exact hs.free hline.stop (fun u hu => hu.not_over) hp hover (by simp [Visit.Stops]))
      (fun he => by
        subst he
        cases hw : k.line.tty.worker with
        | none => exact .inl rfl
        | some q =>
            by_contra hne
            exact hworker ⟨rfl, q, hw, by simpa using hne⟩)
      (fun he => by
        subst he
        exact hs.free hline.io (fun u hu => hu.not_over) hp hover (by simp [Visit.Writes]))
    have hin : Line.Label.Inside k.line.tty.worker (.stop (.close j) b) := by
      cases b with
      | enter => exact absurd rfl hb
      | _ => trivial
    obtain ⟨k', hk', hw, hl⟩ := exists_transport (a := .transport (.stop (.close j) b)) (if_pos hin) hstep
    refine ⟨.transport (.stop (.close j) b), k', ⟨trivial, id⟩, hk', .inr ⟨⟨hr.step hk', by rw [hw, hj]⟩, ?_⟩⟩
    simp only [stop_rank, hl, hq, hp, Option.map_some, Option.getD_some, Visit.rank]
    obtain hworker' | hworker' := hworker'
    · rw [hworker']
      omega
    · rw [hworker', Option.map_none, Option.getD_none]
      omega

/-- A closer comes to its end. -/
theorem leads_closed : Run.Leads (step strerror) Label.Prompt
    (fun k => ∃ p, Closing strerror j p k) (Closing strerror j .done) := by
  have hdone : Run.Leads (step strerror) Label.Prompt (Closing strerror j .done) (Closing strerror j .done) :=
    .of_imp fun _ h => h
  have hdrained : Run.Leads (step strerror) Label.Prompt (Closing strerror j .drained) (Closing strerror j .done) :=
    leads_drained.trans leads_stopping
  have hdraining := leads_draining.trans hdrained
  intro k hk
  obtain ⟨p, hr, hj⟩ := hk
  cases p with
  | locked => exact (leads_locked.trans (hdraining.or hdone)) k ⟨hr, hj⟩
  | draining => exact hdraining k ⟨hr, hj⟩
  | drained => exact hdrained k ⟨hr, hj⟩
  | stopping => exact leads_stopping k ⟨hr, hj⟩
  | done => exact hdone k ⟨hr, hj⟩

/-! ## the end -/

variable {protocol : ReceiverRef → UInt32} {fd wake : Int} {exclusive : Bool} {l₀ : Line Holder}
  {log₀ : Line.Log Holder} {as : List Label}

/-- **No call hangs.**  From every state that a session over its transport reaches, whatever its threads are in
the middle of, each command can come to its end, and each closer too, by steps of the threads that are inside
already and with nothing more from the adapter; a closer needs no deadline to pass. -/
theorem calls_end (hfd : 0 ≤ fd) (hne : wake ≠ fd) (hinit : Line.Started strerror fd wake exclusive l₀ log₀)
    (h : Run.run (step strerror) (opened protocol l₀ log₀) as = some k) :
    (∀ c call, k.world.calls c = some call → ∃ bs k', (∀ b ∈ bs, b.Settles) ∧
      Run.run (step strerror) k bs = some k' ∧ k'.world.Ended c) ∧
    ∀ j p, k.world.closers j = some p → ∃ bs k', (∀ b ∈ bs, b.Settles ∧ ¬ b.Expires) ∧
      Run.run (step strerror) k bs = some k' ∧ k'.world.closers j = some .done := by
  have hr : Reached strerror k := ⟨protocol, fd, wake, exclusive, l₀, log₀, as, hfd, hne, hinit, h⟩
  refine ⟨fun c call hc => ?_, fun j p hj => ?_⟩
  · obtain ⟨bs, k', hbs, hrun, -, -, call', hc', hended⟩ := leads_ended k ⟨hr, rfl, call, hc, trivial⟩
    exact ⟨bs, k', hbs, hrun, call', hc', hended⟩
  · obtain ⟨bs, k', hbs, hrun, -, hdone⟩ := leads_closed k ⟨p, hr, hj⟩
    exact ⟨bs, k', hbs, hrun, hdone⟩

/-- A command waits for an answer that does not come, and a closer waits for the command. -/
def unanswered : List Label :=
  [.session (.enter 0 { opcode := 3 } 0), .session (.act 0 .slot), .session (.act 0 (.start 1)),
    .session (.act 0 .known), .session (.act 0 (.budget 2)), .send 0, .transport (.send (.command 0) .lock),
    .transport (.send (.command 0) .check), .transport (.send (.command 0) .trace),
    .transport (.send (.command 0) (.call (.now 0))), .transport (.send (.command 0) (.call (.write 16 0))),
    .sendReturns 0, .session (.close 0 .lock), .session (.close 0 .mark), .transport (.pump .test)]

/-- The closer need not wait for the deadline of the command. -/
theorem calls_end_unanswered :
    ∃ l₀ log₀ k, Run.run (step fun _ => "") (opened (fun _ => CAN) l₀ log₀) unanswered = some k ∧
      k.world.closers 0 = some .draining ∧ ∃ bs k', (∀ b ∈ bs, b.Settles ∧ ¬ b.Expires) ∧
        Run.run (step fun _ => "") k bs = some k' ∧ k'.world.closers 0 = some .done := by
  let first : Except Exception Unit × List FdOp × Line Holder :=
    Line.start (fun _ => "") (Line.opened 3 false) 4 0 none
  have hinit : Line.Started (fun _ => "") 3 4 false first.2.2 { fds := first.2.1 } := ⟨_, rfl, rfl⟩
  have hrun : (Run.run (step fun _ => "") (opened (fun _ => CAN) first.2.2 { fds := first.2.1 }) unanswered).map
      (fun k => k.world.closers 0) = some (some .draining) := by
    decide +kernel
  obtain ⟨k, hrun, hj⟩ := Option.map_eq_some_iff.mp hrun
  obtain ⟨-, hcloses⟩ := calls_end (by decide) (by decide) hinit hrun
  exact ⟨_, _, k, hrun, hj, hcloses 0 .draining hj⟩

end Link

end Mongoose
