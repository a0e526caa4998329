import Mongoose.Lib.Mutex
import Mongoose.Tty.Moves

/-!
# Mongoose.Tty.Lifecycle

A transport from its start to its stop, whatever the order of its threads.

`Sound` ties the mutexes, the worker and the descriptors together; it says in particular
that nobody is between the locks of a `send` when `stop` closes the device, because
`stop` cleans up under both mutexes and after the worker was joined.  `Told` is the same
for what a run leaves behind.  From the two: no descriptor is used after it was closed,
and after a `stop` has returned there is nothing more, `stop_final`.
-/

namespace Mongoose

namespace Line

variable {ι : Type} {strerror : Int → String} {fd wake : Int}

/-! ## the invariant -/

/-- What a thread inside `send` or `stop` can rely on. -/
def Stands (tty : TtyMembers ι) : Visit → Prop
  | .tracing _ | .writing _ => tty.closed = false
  | .stop .waking | .stop .joining => tty.closed = false ∧ tty.stopping = true
  | .stop .joined | .stop .cleaning => tty.closed = false ∧ tty.stopping = true ∧ tty.worker = none
  | .stop .done => tty.closed = true
  | _ => True

/-- What holds of a started transport and its threads. -/
structure Sound (fd wake : Int) (l : Line ι) : Prop where
  io : Mutex.Guards Visit.Writes l.threads l.tty.io_mutex
  stop : Mutex.Guards Visit.Stops l.threads l.tty.stop_mutex
  stands : ∀ i v, l.threads i = some v → Stands l.tty v
  open_fds : l.tty.closed = false → l.tty.fd = fd ∧ l.tty.wake = wake
  closed_fds : l.tty.closed = true → l.tty.fd < 0 ∧ l.tty.wake < 0
  closed : l.tty.closed = true → l.tty.worker = none ∧ l.tty.stopping = true

/-- A thread that relies on an open transport holds a mutex. -/
theorem Stands.closed {tty : TtyMembers ι} {v : Visit} (hw : ¬ v.Writes) (hs : ¬ v.Stops) (hd : tty.closed = true) :
    Stands tty v := by
  obtain _ | _ | _ | _ | _ | _ | p := v
  · trivial
  · exact absurd trivial hw
  · exact absurd trivial hw
  · exact absurd trivial hw
  · trivial
  · trivial
  · cases p with
    | entering => trivial
    | done => exact hd
    | _ => exact absurd trivial hs

/-- It may stop, and the worker may be joined, while a thread is inside. -/
theorem Stands.mono {tty tty' : TtyMembers ι} {v : Visit} (h : Stands tty v) (hc : tty'.closed = tty.closed)
    (hs : tty.stopping = true → tty'.stopping = true) (hw : tty.worker = none → tty'.worker = none) :
    Stands tty' v := by
  obtain _ | _ | _ | _ | _ | _ | p := v
  · trivial
  · trivial
  · exact hc.trans h
  · exact hc.trans h
  · trivial
  · trivial
  · cases p with
    | entering | locked => trivial
    | waking | joining => exact ⟨hc.trans h.1, hs h.2⟩
    | joined | cleaning => exact ⟨hc.trans h.1, hs h.2.1, hw h.2.2⟩
    | done => exact hc.trans h

variable {l l' : Line ι} {i : ι} {v : Visit} {tty : TtyMembers ι}

/-- A send that has passed its checks runs on an open transport. -/
theorem Sound.closed_of_send {data : Bytes} {timeout : Nat} {s : Sending} (h : Sound fd wake l)
    (hs : l.tty.toTty.send data timeout = .ok s) : l.tty.closed = false := by
  by_contra hc
  have hfd := (h.closed_fds (by simpa using hc)).1
  rw [Tty.send] at hs
  split at hs
  · cases hs
  · rw [if_pos (.inr (.inr hfd))] at hs
    cases hs

/-- After a cleanup there are no descriptors. -/
theorem cleanup_fds (tty : TtyMembers ι) : tty.cleanup.2.fd < 0 ∧ tty.cleanup.2.wake < 0 := by
  simp only [TtyMembers.cleanup]
  constructor <;> split_ifs <;> omega

/-! ## the worker keeps it -/

/-- The worker changes its own phase, and may set the flag. -/
theorem Pumped.same {p : PumpPhase} {b : PumpStep} (h : Pumped l.tty p b tty) :
    ∃ q stopping, tty = { l.tty with worker := some q, stopping := stopping } ∧
      (l.tty.stopping = true → stopping = true) := by
  cases h <;> first | exact ⟨_, _, rfl, id⟩ | exact ⟨_, _, rfl, fun _ => rfl⟩

/-- A step of the worker keeps the transport sound. -/
theorem Sound.pumped {p : PumpPhase} {b : PumpStep} (h : Sound fd wake l) (hp : l.tty.worker = some p)
    (hs : Pumped l.tty p b tty) : Sound fd wake { l with tty := tty } := by
  obtain ⟨q, stopping, rfl, hstop⟩ := hs.same
  -- a worker that is there has not been joined, so the transport is open
  have hnone {P : Prop} (h : l.tty.worker = none) : P := by rw [hp] at h; cases h
  exact {
    io := h.io
    stop := h.stop
    stands := fun j u hj => (h.stands j u hj).mono rfl hstop hnone
    open_fds := h.open_fds
    closed_fds := h.closed_fds
    closed := fun hc => hnone (h.closed hc).1 }

/-! ## what a run leaves behind -/

/-- The descriptors that are open. -/
def held (fd wake : Int) (closed : Bool) (r : Int) : Bool := !closed && (decide (r = fd) || decide (r = wake))

/-- At most one chunk that was read has not been handed over. -/
def Outstanding (log : Log ι) : Prop := log.read = log.delivered ∨ ∃ bytes, log.read = log.delivered ++ [bytes]

/-- What the worker has made of the inbound chunks, and of a failure. -/
def Pumping (log : Log ι) : Option PumpPhase → Prop
  | some .top | some .polling | some .reading => log.read = log.delivered ∧ log.failures = []
  | some (.tracing bytes) | some (.delivering bytes) =>
      log.read = log.delivered ++ [bytes] ∧ log.failures = []
  | some (.faulting _) | some (.reporting _) => Outstanding log ∧ log.failures = []
  | some .exited | none =>
      Outstanding log ∧ (log.read = log.delivered ∨ log.failures ≠ []) ∧ log.failures.length ≤ 1

/-- What holds of the log: every descriptor operation is allowed, and the worker is where it says. -/
structure Told (fd wake : Int) (l : Line ι) (log : Log ι) : Prop where
  lawful : (Resource.owned fun r => decide (r = fd)).Lawful log.fds
  state : (Resource.owned fun r => decide (r = fd)).state log.fds = held fd wake l.tty.closed
  pumping : Pumping log l.tty.worker

section told

variable {log : Log ι}

/-- Operations that only use the open descriptors. -/
theorem Told.use (h : Told fd wake l log) (fds : List FdOp) (hc : l.tty.closed = false)
    (hfds : ∀ op ∈ fds, op = .use fd ∨ op = .use wake) :
    (Resource.owned fun r => decide (r = fd)).Lawful (log.fds ++ fds) ∧
      (Resource.owned fun r => decide (r = fd)).state (log.fds ++ fds) = held fd wake l.tty.closed := by
  have hind : ∀ op ∈ fds, (Resource.owned fun r => decide (r = fd)).Indifferent
      ((Resource.owned fun r => decide (r = fd)).state log.fds) op := by
    intro op hop
    rw [h.state, hc]
    obtain rfl | rfl := hfds op hop
    · exact ⟨rfl, by simp [Resource.owned, held]⟩
    · exact ⟨rfl, by simp [Resource.owned, held]⟩
  exact ⟨h.lawful.append hind, (Monitor.state_append_of_indifferent hind).trans h.state⟩

/-- Both descriptors are closed, once. -/
theorem Told.cleanup (h : Told fd wake l log) (hs : Sound fd wake l) (hc : l.tty.closed = false) (hfd : 0 ≤ fd)
    (hwake : 0 ≤ wake) (hne : wake ≠ fd) :
    (Resource.owned fun r => decide (r = fd)).Lawful (log.fds ++ l.tty.cleanup.1) ∧
      (Resource.owned fun r => decide (r = fd)).state (log.fds ++ l.tty.cleanup.1) = held fd wake true := by
  obtain ⟨hf, hw⟩ := hs.open_fds hc
  have hops : l.tty.cleanup.1 =
      (if l.tty.exclusive then [.use fd] else []) ++ [.release fd, .release wake] := by
    simp [TtyMembers.cleanup, hf, hw, hfd, hwake]
  obtain ⟨hlaw, hstate⟩ := h.use (if l.tty.exclusive then [.use fd] else []) hc (by
    intro op hop
    split at hop <;> simp_all)
  rw [hops, ← List.append_assoc]
  generalize hlog : log.fds ++ (if l.tty.exclusive then [.use fd] else []) = fds at hlaw hstate
  rw [hc] at hstate
  have hlaw' : (Resource.owned fun r => decide (r = fd)).Lawful (fds ++ [.release fd]) := by
    rw [Monitor.lawful_concat_iff, hstate]
    exact ⟨hlaw, by simp [Resource.owned, held]⟩
  have hstate' : (Resource.owned fun r => decide (r = fd)).state (fds ++ [.release fd]) =
      Function.update (held fd wake false) fd false := by
    rw [Monitor.state_concat, hstate]
    rfl
  rw [show fds ++ [Resource.Op.release fd, .release wake] = (fds ++ [.release fd]) ++ [.release wake] by simp]
  constructor
  · rw [Monitor.lawful_concat_iff, hstate']
    exact ⟨hlaw', by simp [Resource.owned, held, Function.update_of_ne hne]⟩
  · rw [Monitor.state_concat, hstate']
    funext r
    by_cases hr : r = wake
    · subst hr
      simp [Resource.owned, held]
    · by_cases hr' : r = fd
      · subst hr'
        simp [Resource.owned, held, Function.update_of_ne hr]
      · simp [Resource.owned, held, hr, hr']

/-- A step that uses open descriptors at most. -/
theorem Told.goes {log' : Log ι} (h : Told fd wake l log) (fds : List FdOp) (hclosed : l'.tty.closed = l.tty.closed)
    (hlog : log'.fds = log.fds ++ fds) (hfds : ∀ op ∈ fds, op = .use fd ∨ op = .use wake)
    (hc : fds = [] ∨ l.tty.closed = false) (hp : Pumping log' l'.tty.worker) : Told fd wake l' log' := by
  obtain rfl | hc := hc
  · rw [List.append_nil] at hlog
    exact ⟨hlog ▸ h.lawful, by rw [hlog, h.state, hclosed], hp⟩
  · obtain ⟨hlaw, hstate⟩ := h.use fds hc hfds
    exact ⟨hlog ▸ hlaw, by rw [hlog, hstate, hclosed], hp⟩

/-- A send logs the use of its descriptor, and nothing of the worker. -/
theorem note_call_eq (log : Log ι) (strerror : Int → String) (fd : Int) (i : ι) (s : Sending) (e : SystemCall) :
    ∃ fds, (log.note_call strerror fd i s e).fds = log.fds ++ fds ∧ (∀ op ∈ fds, op = .use fd) ∧
      (log.note_call strerror fd i s e).read = log.read ∧
      (log.note_call strerror fd i s e).delivered = log.delivered ∧
      (log.note_call strerror fd i s e).failures = log.failures := by
  have hend (t : Sending) (log : Log ι) : (log.note_end i t).fds = log.fds ∧ (log.note_end i t).read = log.read ∧
      (log.note_end i t).delivered = log.delivered ∧ (log.note_end i t).failures = log.failures := by
    rw [Log.note_end]
    split <;> exact ⟨rfl, rfl, rfl, rfl⟩
  cases e with
  | now t =>
      refine ⟨[], ?_⟩
      simp only [Log.note_call]
      split
      · simp
      · simp [hend]
  | write wrote errno =>
      refine ⟨[.use fd], ?_⟩
      simp only [Log.note_call]
      split
      · simp
      · simp [hend]
  | poll ready errno revents =>
      refine ⟨[.use fd], ?_⟩
      simp only [Log.note_call]
      split
      · simp
      · simp [hend]

/-- Other entries of the log are none of its concern. -/
theorem Pumping.congr {log' : Log ι} {p : Option PumpPhase} (h : Pumping log p) (hr : log'.read = log.read)
    (hd : log'.delivered = log.delivered) (hf : log'.failures = log.failures) : Pumping log' p := by
  unfold Pumping Outstanding at h ⊢
  rwa [hr, hd, hf]

/-- At most one chunk is outstanding, and one failure reported. -/
theorem Pumping.outstanding {p : Option PumpPhase} (h : Pumping log p) :
    Outstanding log ∧ log.failures.length ≤ 1 := by
  have hnone (hf : log.failures = []) : log.failures.length ≤ 1 := by simp [hf]
  unfold Pumping at h
  split at h
  · exact ⟨.inl h.1, hnone h.2⟩
  · exact ⟨.inl h.1, hnone h.2⟩
  · exact ⟨.inl h.1, hnone h.2⟩
  · exact ⟨.inr ⟨_, h.1⟩, hnone h.2⟩
  · exact ⟨.inr ⟨_, h.1⟩, hnone h.2⟩
  · exact ⟨h.1, hnone h.2⟩
  · exact ⟨h.1, hnone h.2⟩
  · exact ⟨h.1, h.2.2⟩
  · exact ⟨h.1, h.2.2⟩

/-- What was delivered is what was read, but for the last chunk. -/
theorem Outstanding.initial (h : Outstanding log) :
    log.delivered <+: log.read ∧ log.read.length ≤ log.delivered.length + 1 := by
  obtain h | ⟨bytes, h⟩ := h <;> simp [h]

/-- A worker that has gone is one that will not deliver. -/
theorem Pumping.joined {p : Option PumpPhase} (h : Pumping log p) (hp : p = none ∨ p = some .exited) :
    Pumping log none := by
  obtain rfl | rfl := hp <;> exact h

/-- The worker logs what it does. -/
theorem Told.pumped {strerror : Int → String} {p : PumpPhase} {b : PumpStep} (h : Told fd wake l log)
    (hs : Sound fd wake l) (hp : l.tty.worker = some p) (hm : Pumped l.tty p b tty) :
    Told fd wake { l with tty := tty } (log.note strerror l (.pump b) { l with tty := tty }) := by
  have hc : l.tty.closed = false := by
    by_contra hc
    have hw := (hs.closed (by simpa using hc)).1
    rw [hp] at hw
    cases hw
  obtain ⟨hfd, hwake⟩ := hs.open_fds hc
  have hpump : Pumping log (some p) := hp ▸ h.pumping
  have huse : ∀ op ∈ [Resource.Op.use l.tty.fd], op = .use fd ∨ op = .use wake := by
    intro op hop
    rw [List.mem_singleton.mp hop, hfd]
    exact .inl rfl
  have hnone (hf : log.failures = []) : log.failures.length ≤ 1 := by simp [hf]
  cases hm with
  | quit hstop => exact h.goes [] rfl (List.append_nil _).symm nofun (.inl rfl) ⟨.inl hpump.1, .inl hpump.1, hnone hpump.2⟩
  | runs hstop => exact h.goes [] rfl (List.append_nil _).symm nofun (.inl rfl) hpump
  | polled ready errno revents wake_revents q hq =>
      refine h.goes [.use l.tty.fd, .use l.tty.wake] rfl rfl ?_ (.inr hc) ?_
      · intro op hop
        simpa [hfd, hwake] using hop
      · obtain rfl | rfl | rfl | ⟨reason, rfl⟩ := hq
        · exact hpump
        · exact ⟨.inl hpump.1, .inl hpump.1, hnone hpump.2⟩
        · exact hpump
        · exact ⟨.inl hpump.1, hpump.2⟩
  | readFailed errno q hq =>
      refine h.goes [.use l.tty.fd] rfl rfl huse (.inr hc) ?_
      obtain rfl | ⟨reason, rfl⟩ := hq
      · exact hpump
      · exact ⟨.inl hpump.1, hpump.2⟩
  | readNone => exact h.goes [.use l.tty.fd] rfl rfl huse (.inr hc) hpump
  | readSome bytes hne hlen =>
      refine h.goes [.use l.tty.fd] rfl rfl huse (.inr hc) ⟨?_, hpump.2⟩
      simp [Log.note, hne, hpump.1]
  | traced bytes => exact h.goes [] rfl (List.append_nil _).symm nofun (.inl rfl) hpump
  | received bytes =>
      refine h.goes [] rfl (by simp [Log.note, hp]) nofun (.inl rfl) ?_
      simp only [Log.note, hp]
      exact hpump
  | threw p bytes what hq =>
      refine h.goes [] rfl (List.append_nil _).symm nofun (.inl rfl) ?_
      obtain rfl | rfl := hq
      · exact ⟨.inr ⟨bytes, hpump.1⟩, hpump.2⟩
      · exact ⟨.inr ⟨bytes, hpump.1⟩, hpump.2⟩
  | faulted reason => exact h.goes [] rfl (List.append_nil _).symm nofun (.inl rfl) hpump
  | reported reason =>
      refine h.goes [] rfl (by simp [Log.note, hp]) nofun (.inl rfl) ?_
      simp only [Log.note, hp]
      exact ⟨hpump.1, .inr (by simp), by simp [hpump.2]⟩

end told

section threads

variable [DecidableEq ι]

/-- A step that leaves the descriptors and the worker alone keeps what is about them. -/
theorem Sound.moved {io stop : Option ι} {stopping : Bool} (h : Sound fd wake l)
    (hio : Mutex.Guards Visit.Writes (Function.update l.threads i (some v)) io)
    (hstop : Mutex.Guards Visit.Stops (Function.update l.threads i (some v)) stop)
    (hs : l.tty.stopping = true → stopping = true)
    (hv : Stands { l.tty with stopping := stopping } v) :
    Sound fd wake (l.put { l.tty with stopping := stopping, io_mutex := io, stop_mutex := stop } i v) where
  io := hio
  stop := hstop
  stands := forall_put (P := fun _ => Stands _) (fun j u hj _ => (h.stands j u hj).mono rfl hs id) (hv.mono rfl id id)
  open_fds := h.open_fds
  closed_fds := h.closed_fds
  closed hc := ⟨(h.closed hc).1, hs (h.closed hc).2⟩

/-! ## send keeps it -/

/-- A step of a `send` keeps it. -/
theorem Sound.sent {o : Option Visit} {a : SendStep} (h : Sound fd wake l) (ho : l.threads i = o)
    (hs : Sent strerror l.tty i o a tty v) : Sound fd wake (l.put tty i v) := by
  have hkeep {v' : Visit} (ho : l.threads i = some v') (hv : ¬ v'.Stops) (hn : ¬ v.Stops) :
      Mutex.Guards Visit.Stops (Function.update l.threads i (some v)) l.tty.stop_mutex :=
    h.stop.keep ho (iff_of_false hn hv)
  have hfree {v' : Visit} (ho : l.threads i = some v') (hv : v'.Writes) (hn : ¬ v.Writes) :
      Mutex.Guards Visit.Writes (Function.update l.threads i (some v)) none := by
    have hio := h.io
    rw [h.io.holds ho hv] at hio
    exact hio.release hn
  cases hs with
  | refused data timeout e => exact h.moved (h.io.enter ho id) (h.stop.enter ho id) id trivial
  | entered data timeout hgood => exact h.moved (h.io.enter ho id) (h.stop.enter ho id) id trivial
  | locked data timeout hio =>
      have hg := h.io
      rw [hio] at hg
      exact h.moved (hg.acquire trivial) (hkeep ho id id) id trivial
  | stopped data timeout e hs => exact h.moved (hfree ho trivial id) (hkeep ho id id) id trivial
  | checked data timeout s hs =>
      exact h.moved (h.io.keep ho (iff_of_true trivial trivial)) (hkeep ho id id) id (h.closed_of_send hs)
  | traced s =>
      exact h.moved (h.io.keep ho (iff_of_true trivial trivial)) (hkeep ho id id) id (h.stands i (.tracing s) ho)
  | traceThrew s e => exact h.moved (hfree ho trivial id) (hkeep ho id id) id trivial
  | called s s' e hs hgoes hio =>
      have hio := h.io.holds ho trivial
      refine h.moved ?_ (hkeep ho id id) id (h.stands i (.writing s) ho)
      exact hio ▸ h.io.keep ho (iff_of_true trivial trivial)
  | ended s s' e v hs hv =>
      obtain ⟨rfl, -⟩ | ⟨error, rfl, -⟩ := hv
      · exact h.moved (hfree ho trivial id) (hkeep ho id id) id trivial
      · exact h.moved (hfree ho trivial id) (hkeep ho id id) id trivial

/-! ## stop keeps it -/

/-- A step of a `stop` does. -/
theorem Sound.stopped {o : Option Visit} {a : StopStep} {p : StopPhase} (h : Sound fd wake l)
    (ho : l.threads i = o) (hs : Stopped l.tty i o a tty p) : Sound fd wake (l.put tty i (.stop p)) := by
  have hkeep {v : Visit} (ho : l.threads i = some v) (hv : v.Stops) (hp : Visit.Stops (.stop p)) :
      Mutex.Guards Visit.Stops (Function.update l.threads i (some (.stop p))) l.tty.stop_mutex :=
    h.stop.keep ho (iff_of_true hp hv)
  have hfree {v : Visit} (ho : l.threads i = some v) (hv : v.Stops) (hp : ¬ Visit.Stops (.stop p)) :
      Mutex.Guards Visit.Stops (Function.update l.threads i (some (.stop p))) none := by
    have hstop := h.stop
    rw [h.stop.holds ho hv] at hstop
    exact hstop.release hp
  cases hs with
  | entered => exact h.moved (h.io.enter ho id) (h.stop.enter ho id) id trivial
  | locked hm =>
      have hg := h.stop
      rw [hm] at hg
      exact h.moved (h.io.keep ho (iff_of_false id id)) (hg.acquire trivial) id trivial
  | closed hc => exact h.moved (h.io.keep ho (iff_of_false id id)) (hfree ho trivial id) id hc
  | stopping hc =>
      exact h.moved (h.io.keep ho (iff_of_false id id)) (hkeep ho trivial trivial) (fun _ => rfl) ⟨hc, rfl⟩
  | woken =>
      exact h.moved (h.io.keep ho (iff_of_false id id)) (hkeep ho trivial trivial) id
        (h.stands i (.stop .waking) ho)
  | joined hw =>
      obtain ⟨hc, hs⟩ := h.stands i _ ho
      exact {
        io := h.io.keep ho (iff_of_false id id)
        stop := hkeep ho trivial trivial
        stands := forall_put (P := fun _ => Stands { l.tty with worker := none })
          (fun j u hj _ => (h.stands j u hj).mono rfl id fun _ => rfl) ⟨hc, hs, rfl⟩
        open_fds := h.open_fds
        closed_fds := h.closed_fds
        closed := fun hc => ⟨rfl, (h.closed hc).2⟩ }
  | locked_io hio =>
      have hg := h.io
      rw [hio] at hg
      exact h.moved (hg.acquire trivial) (hkeep ho trivial trivial) id (h.stands i (.stop .joined) ho)
  | cleaned =>
      obtain ⟨-, hs, hw⟩ := h.stands i _ ho
      have hio := h.io
      rw [h.io.holds ho trivial] at hio
      have hfds := cleanup_fds l.tty
      -- both mutexes are held, so every other thread is outside of what they guard
      exact {
        io := hio.release id
        stop := hfree ho trivial id
        stands := forall_put (P := fun _ => Stands _) (fun j u hj hji => Stands.closed (fun hu => hji (h.io.unique hj hu ho trivial))
          (fun hu => hji (h.stop.unique hj hu ho trivial)) rfl) rfl
        open_fds := nofun
        closed_fds := fun _ => hfds
        closed := fun _ => ⟨hw, hs⟩ }

/-- So does every step. -/
theorem Sound.step {a : Label ι} (h : Sound fd wake l) (hs : step strerror l a = some l') : Sound fd wake l' := by
  obtain ⟨i, b, tty, v, rfl, hm, rfl⟩ | ⟨i, b, tty, p, rfl, hm, rfl⟩ | ⟨b, p, tty, rfl, hp, hm, rfl⟩ :=
    step_cases hs
  · exact h.sent rfl hm
  · exact h.stopped rfl hm
  · exact h.pumped hp hm

/-! ## over a run -/

/-- Every step keeps what holds of the log. -/
theorem Told.step {log : Log ι} {a : Label ι} (h : Told fd wake l log) (hs : Sound fd wake l)
    (hfd : 0 ≤ fd) (hwake : 0 ≤ wake) (hne : wake ≠ fd) (hstep : step strerror l a = some l') :
    Told fd wake l' (log.note strerror l a l') := by
  obtain ⟨i, b, tty, v, rfl, hm, rfl⟩ | ⟨i, b, tty, p, rfl, hm, rfl⟩ | ⟨b, p, tty, rfl, hp, hm, rfl⟩ :=
    step_cases hstep
  · generalize ho : l.threads i = o at hm
    cases hm with
    | called s s' e hs' hgoes hio =>
        have hc : l.tty.closed = false := hs.stands i _ ho
        obtain ⟨fds, hfds, huse, hr, hd, hf⟩ := note_call_eq log strerror l.tty.fd i s e
        refine h.goes fds rfl (by simp [Log.note, ho, hfds]) ?_ (.inr hc) ?_
        · exact fun op hop => .inl ((huse op hop).trans (by rw [(hs.open_fds hc).1]))
        · simp only [Log.note, ho]
          exact h.pumping.congr hr hd hf
    | ended s s' e v hs' hv =>
        have hc : l.tty.closed = false := hs.stands i _ ho
        obtain ⟨fds, hfds, huse, hr, hd, hf⟩ := note_call_eq log strerror l.tty.fd i s e
        refine h.goes fds rfl (by simp [Log.note, ho, hfds]) ?_ (.inr hc) ?_
        · exact fun op hop => .inl ((huse op hop).trans (by rw [(hs.open_fds hc).1]))
        · simp only [Log.note, ho]
          exact h.pumping.congr hr hd hf
    | refused | entered | locked | stopped | checked | traced | traceThrew =>
        exact h.goes [] rfl (List.append_nil _).symm nofun (.inl rfl) h.pumping
  · generalize ho : l.threads i = o at hm
    cases hm with
    | woken =>
        have hc : l.tty.closed = false := (hs.stands i _ ho).1
        have hw := (hs.open_fds hc).2
        refine h.goes [.use wake] rfl (by simp [Log.note, hw, hwake]) ?_ (.inr hc) ?_
        · exact fun op hop => .inr (List.mem_singleton.mp hop)
        · simp only [Log.note, hw, hwake]
          exact h.pumping
    | joined hw => exact h.goes [] rfl (List.append_nil _).symm nofun (.inl rfl) (h.pumping.joined hw)
    | cleaned =>
        have hc : l.tty.closed = false := (hs.stands i _ ho).1
        obtain ⟨hlaw, hstate⟩ := h.cleanup hs hc hfd hwake hne
        exact ⟨hlaw, hstate, h.pumping⟩
    | entered | locked | closed | stopping | locked_io =>
        exact h.goes [] rfl (List.append_nil _).symm nofun (.inl rfl) h.pumping
  · exact h.pumped hs hp hm

/-- A transport that was started, and the log of its start. -/
def Started (strerror : Int → String) (fd wake : Int) (exclusive : Bool) (l : Line ι) (log : Log ι) : Prop :=
  ∃ fds, start strerror (opened fd exclusive) wake 0 none = (.ok (), fds, l) ∧ log = { fds := fds }

omit [DecidableEq ι] in
/-- `start` leaves the threads alone. -/
theorem threads_of_start {exclusive : Bool} {errno : Int} {thread : Option Exception} {r : Except Exception Unit}
    {fds : List FdOp} (h : start strerror (opened fd exclusive) wake errno thread = (r, fds, l)) :
    l.threads = fun _ => none := by
  simp only [start, opened, stopped] at h
  split at h
  · cases h
    rfl
  · split at h
    · cases h
      rfl
    · split at h <;> cases h <;> rfl

omit [DecidableEq ι] in
/-- A transport that was started is sound, and so is its log. -/
theorem started {exclusive : Bool} {log : Log ι} (hne : wake ≠ fd)
    (h : Started strerror fd wake exclusive l log) : 0 ≤ wake ∧ Sound fd wake l ∧ Told fd wake l log := by
  obtain ⟨fds, hstart, rfl⟩ := h
  simp only [start, opened] at hstart
  by_cases hwake : wake < 0
  · simp [hwake] at hstart
  simp only [hwake] at hstart
  simp at hstart
  obtain ⟨rfl, rfl⟩ := hstart
  refine ⟨Int.not_lt.mp hwake, ⟨Mutex.guards_none nofun, Mutex.guards_none nofun, nofun, fun _ => ⟨rfl, rfl⟩, nofun, nofun⟩, ?_, ?_, rfl, rfl⟩
  · rw [show [Resource.Op.acquire wake] = [] ++ [.acquire wake] from rfl, Monitor.lawful_concat_iff]
    exact ⟨Monitor.lawful_nil _, by simp [Resource.owned, hne]⟩
  · funext r
    by_cases hr : r = wake
    · subst hr
      simp [Resource.owned, Monitor.state, held]
    · simp [Resource.owned, Monitor.state, held, hr]

variable {exclusive : Bool} {l₀ : Line ι} {log₀ log : Log ι} {ls : List (Label ι)}

/-- In every run. -/
theorem told_run (hfd : 0 ≤ fd) (hne : wake ≠ fd)
    (hinit : Started strerror fd wake exclusive l₀ log₀)
    (h : Run.run (logged strerror) (l₀, log₀) ls = some (l, log)) : Sound fd wake l ∧ Told fd wake l log := by
  obtain ⟨hwake, hsound⟩ := started hne hinit
  refine Run.invariant (I := fun s => Sound fd wake s.1 ∧ Told fd wake s.1 s.2) ?_ hsound h
  rintro ⟨m, log⟩ a ⟨m', log'⟩ ⟨hs, ht⟩ hstep
  obtain ⟨hm, rfl⟩ := Run.recording_eq_some_iff.mp hstep
  exact ⟨hs.step hm, ht.step hs hfd hwake hne hm⟩

/-! ## the end -/

/-- Once the descriptors are closed a step leaves nothing behind. -/
theorem closed_step {a : Label ι} (hs : Sound fd wake l) (hc : l.tty.closed = true)
    (hstep : Line.step strerror l a = some l') : l'.tty.closed = true ∧ log.note strerror l a l' = log := by
  have hopen {P : Prop} (h : l.tty.closed = false) : P := by rw [hc] at h; cases h
  obtain ⟨i, b, tty, v, rfl, hm, rfl⟩ | ⟨i, b, tty, p, rfl, hm, rfl⟩ | ⟨b, p, tty, rfl, hp, hm, rfl⟩ :=
    step_cases hstep
  · generalize ho : l.threads i = o at hm
    cases hm with
    | called | ended => exact hopen (hs.stands i _ ho)
    | refused | entered | locked | stopped | checked | traced | traceThrew => exact ⟨hc, rfl⟩
  · generalize ho : l.threads i = o at hm
    cases hm with
    | woken | joined | locked_io | cleaned => exact hopen (hs.stands i _ ho).1
    | stopping hc' => exact hopen hc'
    | entered | locked | closed => exact ⟨hc, rfl⟩
  · rw [(hs.closed hc).1] at hp
    cases hp

/-- Nor does a run. -/
theorem closed_run {l' : Line ι} {log' : Log ι} (hs : Sound fd wake l) (hc : l.tty.closed = true)
    (h : Run.run (logged strerror) (l, log) ls = some (l', log')) : log' = log := by
  refine (Run.invariant (I := fun s => Sound fd wake s.1 ∧ s.1.tty.closed = true ∧ s.2 = log) ?_
    ⟨hs, hc, rfl⟩ h).2.2
  rintro ⟨m, log'⟩ a ⟨m', log''⟩ ⟨hs, hc, rfl⟩ hstep
  obtain ⟨hm, rfl⟩ := Run.recording_eq_some_iff.mp hstep
  obtain ⟨hc', hlog⟩ := closed_step hs hc hm
  exact ⟨hs.step hm, hc', hlog⟩

omit [DecidableEq ι] in
/-- When both descriptors are closed, every chunk was handed over or the failure was reported. -/
theorem Told.closed (h : Told fd wake l log) (hs : Sound fd wake l) (hc : l.tty.closed = true) :
    (∀ r, (Resource.owned fun r => decide (r = fd)).state log.fds r = false) ∧
      (log.delivered = log.read ∨ log.failures ≠ []) := by
  refine ⟨fun r => by rw [h.state, hc]; rfl, ?_⟩
  have hpump := h.pumping
  rw [(hs.closed hc).1] at hpump
  exact hpump.2.1.imp_left Eq.symm

/-- **A transport to its end.**  In every interleaving of a started transport's threads: no descriptor is
used after it was closed, nor closed twice; the receiver has been given the chunks that were read, in order,
all but at most the last; at most one failure is reported.  Once a `stop` has returned both descriptors are
closed, the receiver has been given every chunk or the failure was reported, and whatever follows makes no
system call on them and no callback.  The callbacks meant are the receiver's and the failure's: the log holds no
trace. -/
theorem stop_final (hfd : 0 ≤ fd) (hne : wake ≠ fd)
    (hinit : Started strerror fd wake exclusive l₀ log₀)
    (h : Run.run (logged strerror) (l₀, log₀) ls = some (l, log)) :
    (Resource.owned fun r => decide (r = fd)).Lawful log.fds ∧
      log.delivered <+: log.read ∧ log.read.length ≤ log.delivered.length + 1 ∧ log.failures.length ≤ 1 ∧
      ∀ i, l.threads i = some (.stop .done) →
        (∀ r, (Resource.owned fun r => decide (r = fd)).state log.fds r = false) ∧
          (log.delivered = log.read ∨ log.failures ≠ []) ∧
          ∀ ls' l' log', Run.run (logged strerror) (l, log) ls' = some (l', log') → log' = log := by
  obtain ⟨hs, ht⟩ := told_run hfd hne hinit h
  obtain ⟨hout, hfail⟩ := ht.pumping.outstanding
  obtain ⟨hpre, hlen⟩ := hout.initial
  refine ⟨ht.lawful, hpre, hlen, hfail, fun i hdone => ?_⟩
  have hc : l.tty.closed = true := hs.stands i _ hdone
  obtain ⟨hclosed, hread⟩ := ht.closed hs hc
  exact ⟨hclosed, hread, fun ls' l' log' hrun => closed_run hs hc hrun⟩

/-- A chunk comes in and a frame goes out, then the transport is stopped. -/
def stopping : List (Label Nat) :=
  [.pump .test, .pump (.poll 1 0 POLLIN 0), .pump (.read (.ok [7])), .pump .trace, .pump .receive, .pump .test,
    .send 0 (.enter [1, 2] 5), .send 0 .lock, .send 0 .check, .send 0 .trace, .send 0 (.call (.now 0)),
    .send 0 (.call (.write 2 0)), .stop 1 .enter, .stop 1 .lock, .stop 1 .test, .stop 1 .wake,
    .pump (.poll 1 0 0 POLLIN), .stop 1 .join, .stop 1 .lock_io, .stop 1 .cleanup]

/-- Nothing comes after that. -/
theorem stop_final_stopped :
    ∃ l₀ log₀ l log, Run.run (logged fun _ => "") (l₀, log₀) stopping = some (l, log) ∧ log.delivered = [[7]] ∧
      ∀ ls' l' log', Run.run (logged fun _ => "") (l, log) ls' = some (l', log') → log' = log := by
  let first : Except Exception Unit × List FdOp × Line Nat := start (fun _ => "") (opened 3 false) 4 0 none
  have hinit : Started (fun _ => "") 3 4 false first.2.2 { fds := first.2.1 } := ⟨_, rfl, rfl⟩
  have hdone : (Run.run (logged fun _ => "") (first.2.2, { fds := first.2.1 }) stopping).map
      (fun s => (s.1.threads 1, s.2.delivered)) = some (some (.stop .done), [[7]]) := rfl
  obtain ⟨⟨l, log⟩, hrun, hs⟩ := Option.map_eq_some_iff.mp hdone
  obtain ⟨hthread, hdelivered⟩ := Prod.mk.inj hs
  obtain ⟨-, -, -, -, hfinal⟩ := stop_final (by decide) (by decide) hinit hrun
  exact ⟨_, _, l, log, hrun, hdelivered, (hfinal 1 hthread).2.2⟩

end threads

end Line

end Mongoose
