import Mongoose.Tty.Serial

/-!
# Mongoose.Tty.Progress

How a thread inside the transport comes to its end.

Each phase has a rank, and a step that lowers it: a system call of a send with the answer of
a device that takes what it is offered, a step of the worker once it was told to stop.
`Live` says that a send which is over has left `writing`, so that such a step is there.
-/

namespace Mongoose

/-! ## one send -/

/-- How far a send is from having written everything. -/
def SendPhase.rank : SendPhase → ℕ
  | .starting => 5
  | .waiting => 4
  | .polling _ => 3
  | .checking => 2
  | .writing => 1
  | .returned | .threw _ => 0

namespace Sending

variable {strerror : Int → String} {s : Sending}

/-- The loop of a send with something left goes on to the clock or to a `write`. -/
theorem loop_rank (h : s.sent < s.data.length) : s.loop.phase.rank ≤ 2 := by
  rw [loop, if_pos h]
  by_cases hsent : s.sent > 0 <;> simp [hsent, SendPhase.rank]

/-- A send comes nearer to its end if the device takes what it is offered before the deadline. -/
theorem Valid.exists_step (h : s.Valid) (hover : ¬ s.Over) :
    ∃ e t, s.step strerror e = some t ∧ t.phase.rank < s.phase.rank := by
  have hlt : s.sent < s.data.length := h.2.lt fun hp => hover (.inl hp)
  cases hp : s.phase with
  | starting =>
      have hrank := loop_rank (s := { s with deadline := 0 + milliseconds s.timeout }) hlt
      exact ⟨.now 0, _, by rw [Sending.step, hp], Nat.lt_of_le_of_lt hrank (by simp [SendPhase.rank])⟩
  | checking =>
      exact ⟨.now (s.deadline - 1), { s with phase := .writing }, by simp [Sending.step, hp], by simp [SendPhase.rank]⟩
  | writing =>
      refine ⟨.write (s.data.length - s.sent : Nat) 0, (s.advance (s.data.length - s.sent)).loop, ?_, ?_⟩
      · have hrest : ((s.data.length - s.sent : Nat) : Int) > 0 := by omega
        simp only [Sending.step, hp]
        rw [if_neg (lt_irrefl _), if_pos hrest, Int.toNat_natCast]
      · have hsent : s.sent + (s.data.length - s.sent) = s.data.length := by omega
        have hne : s.data.length ≠ 0 := by omega
        simp [loop, finish, advance, hsent, hne, SendPhase.rank]
  | waiting =>
      exact ⟨.now (s.deadline - 1), { s with phase := .polling (poll_budget 1) }, by simp [Sending.step, hp],
        by simp [SendPhase.rank]⟩
  | polling budget =>
      have hrank := loop_rank hlt
      exact ⟨.poll 1 0 0, s.loop, by simp [Sending.step, hp], Nat.lt_of_le_of_lt hrank (by simp [SendPhase.rank])⟩
  | returned => exact absurd (.inl hp) hover
  | threw error => exact absurd (.inr ⟨error, hp⟩) hover

end Sending

/-! ## the threads -/

/-- How far the worker is from its end, once `stopping_` is set. -/
def PumpPhase.rank : PumpPhase → ℕ
  | .polling => 6
  | .reading => 5
  | .tracing _ => 4
  | .delivering _ => 3
  | .faulting _ => 2
  | .top | .reporting _ => 1
  | .exited => 0

/-- What a worker that was told to stop does next, with nothing more to read. -/
def PumpPhase.next : PumpPhase → PumpStep
  | .top | .exited => .test
  | .polling => .poll 1 0 0 POLLIN
  | .reading => .read (.ok [])
  | .tracing _ => .trace
  | .delivering _ => .receive
  | .faulting _ => .fault
  | .reporting _ => .report

def StopPhase.rank : StopPhase → ℕ
  | .entering => 6
  | .locked => 5
  | .waking => 4
  | .joining => 3
  | .joined => 2
  | .cleaning => 1
  | .done => 0

/-- How far a thread is from the end of its call. -/
def Visit.rank : Visit → ℕ
  | .entering .. => 9
  | .checking .. => 8
  | .tracing _ => 7
  | .writing s => s.phase.rank
  | .sent | .threw _ => 0
  | .stop p => p.rank

namespace Line

variable {ι : Type} {strerror : Int → String} {fd wake : Int} {l l' : Line ι} {log : Log ι} {i : ι}

/-- A send that is under way is not over. -/
def Goes : Visit → Prop
  | .tracing s => s.phase = .starting
  | .writing s => ¬ s.Over
  | _ => True

/-- Every thread that writes goes on. -/
def Live (l : Line ι) : Prop := ∀ i v, l.threads i = some v → Goes v

/-- A send that has just been checked has done nothing yet. -/
theorem starting_of_send {tty : Tty} {data : Bytes} {timeout : Nat} {s : Sending}
    (h : tty.send data timeout = .ok s) : s.phase = .starting := by
  obtain ⟨-, -, hs⟩ := Sending.send_ok h
  rw [hs]

theorem Sent.goes_on {tty tty' : TtyMembers ι} {o : Option Visit} {a : SendStep} {v : Visit}
    (h : Sent strerror tty i o a tty' v) (ho : ∀ u, o = some u → Goes u) : Goes v := by
  cases h with
  | checked data timeout s hs => exact starting_of_send hs
  | traced s =>
      have hs : s.phase = .starting := ho _ rfl
      simp [Goes, Sending.Over, hs]
  | called s s' e hs hgoes hio =>
      rintro (hp | ⟨error, hp⟩)
      · rw [after_call, hp] at hgoes
        cases hgoes
      · rw [after_call, hp] at hgoes
        cases hgoes
  | ended s s' e v hs hv => obtain ⟨rfl, -⟩ | ⟨error, rfl, -⟩ := hv <;> trivial
  | refused | entered | locked | stopped | traceThrew => trivial

section threads

variable [DecidableEq ι]

theorem Live.step {a : Label ι} (h : Live l) (hstep : Line.step strerror l a = some l') : Live l' := by
  intro j u hu
  obtain heq | ⟨b, v, rfl, heq, hs⟩ | ⟨b, p, rfl, heq, hs⟩ := thread_of_step hstep j
  · exact h j u (heq ▸ hu)
  · obtain rfl := Option.some.inj (heq.symm.trans hu)
    exact hs.goes_on (h j)
  · obtain rfl := Option.some.inj (heq.symm.trans hu)
    trivial

theorem live_run {exclusive : Bool} {l₀ : Line ι} {log₀ : Log ι} {ls : List (Label ι)}
    (hinit : Started strerror fd wake exclusive l₀ log₀)
    (h : Run.run (logged strerror) (l₀, log₀) ls = some (l, log)) : Live l := by
  refine Run.invariant (I := fun s => Live s.1) ?_ ?_ h
  · intro s a t hs hstep
    obtain ⟨m, log⟩ := s
    obtain ⟨m', log'⟩ := t
    exact hs.step (Run.recording_eq_some_iff.mp hstep).1
  · obtain ⟨fds, hstart, -⟩ := hinit
    intro j u hu
    rw [threads_of_start hstart] at hu
    cases hu

/-! ## a step that is there -/

omit [DecidableEq ι] in
/-- A system call leaves a send as near to its end as its phase says. -/
theorem rank_after_call (s : Sending) : (after_call s).rank = s.phase.rank ∧ ∀ p, after_call s ≠ .stop p := by
  rw [after_call]
  split
  · next hp => simp [Visit.rank, SendPhase.rank, hp]
  · next error hp => simp [Visit.rank, SendPhase.rank, hp]
  · simp [Visit.rank]

/-- A thread inside `send` that need not wait for `io_mutex_` comes nearer to its end. -/
theorem exists_send_step {v : Visit} (hserial : Serial l log) (hlive : Live l) (hi : l.threads i = some v)
    (hover : ¬ v.Over) (hsend : ∀ p, v ≠ .stop p)
    (hio : (∃ data timeout, v = .entering data timeout) → l.tty.io_mutex = none) :
    ∃ b l' u, (∀ data timeout, b ≠ .enter data timeout) ∧ Line.step strerror l (.send i b) = some l' ∧
      l'.threads i = some u ∧ (∀ p, u ≠ .stop p) ∧ u.rank < v.rank := by
  have hput (b : SendStep) (tty : TtyMembers ι) (u : Visit) (h : send strerror l.tty i (some v) b = some (tty, u)) :
      ∃ l', Line.step strerror l (.send i b) = some l' ∧ l'.threads i = some u :=
    ⟨l.put tty i u, by simp [step, hi, h], put_threads_self ..⟩
  cases v with
  | entering data timeout =>
      have hfree := hio ⟨_, _, rfl⟩
      obtain ⟨l', hl', hu⟩ := hput .lock { l.tty with io_mutex := some i } (.checking data timeout)
        (by simp [send, hfree])
      exact ⟨.lock, l', _, by simp, hl', hu, by simp, by simp [Visit.rank]⟩
  | checking data timeout =>
      cases hs : l.tty.toTty.send data timeout with
      | error e =>
          obtain ⟨l', hl', hu⟩ := hput .check { l.tty with io_mutex := none } (.threw e)
            (by simp [send, hs])
          exact ⟨.check, l', _, by simp, hl', hu, by simp, by simp [Visit.rank]⟩
      | ok s =>
          obtain ⟨l', hl', hu⟩ := hput .check l.tty (.tracing s) (by simp [send, hs])
          exact ⟨.check, l', _, by simp, hl', hu, by simp, by simp [Visit.rank]⟩
  | tracing s =>
      have hs : s.phase = .starting := hlive i _ hi
      obtain ⟨l', hl', hu⟩ := hput .trace l.tty (.writing s) (by simp [send])
      exact ⟨.trace, l', _, by simp, hl', hu, by simp, by simp [Visit.rank, SendPhase.rank, hs]⟩
  | writing s =>
      have hnext : ∃ e t, Sending.step strerror s e = some t ∧ t.phase.rank < s.phase.rank :=
        (hserial.threads i _ hi).1.exists_step (hlive i _ hi)
      obtain ⟨e, t, hstep, hrank⟩ := hnext
      obtain ⟨hsame, hstop⟩ := rank_after_call t
      obtain ⟨l', hl', hu⟩ := hput (.call e) { l.tty with io_mutex := io_after i (after_call t) }
        (after_call t) (by simp [send, hstep])
      exact ⟨.call e, l', _, by simp, hl', hu, hstop, hsame ▸ hrank⟩
  | sent | threw => exact absurd trivial hover
  | stop p => exact absurd rfl (hsend p)

/-- A thread inside `stop` that need not wait comes nearer to its end. -/
theorem exists_stop_step {p : StopPhase} (hi : l.threads i = some (.stop p)) (hp : p ≠ .done)
    (hstop : p = .entering → l.tty.stop_mutex = none)
    (hworker : p = .joining → l.tty.worker = none ∨ l.tty.worker = some .exited)
    (hio : p = .joined → l.tty.io_mutex = none) :
    ∃ b l' q, b ≠ .enter ∧ Line.step strerror l (.stop i b) = some l' ∧ l'.threads i = some (.stop q) ∧
      q.rank < p.rank ∧ (l'.tty.worker = l.tty.worker ∨ l'.tty.worker = none) := by
  have hput {b : StopStep} {tty : TtyMembers ι} {q : StopPhase}
      (h : stop l.tty i (some (.stop p)) b = some (tty, .stop q)) :
      ∃ l', Line.step strerror l (.stop i b) = some l' ∧ l'.threads i = some (.stop q) ∧ l'.tty = tty :=
    ⟨l.put tty i (.stop q), by simp [step, hi, h], put_threads_self .., rfl⟩
  cases p with
  | entering =>
      obtain ⟨l', hl', hq, htty⟩ := hput (b := .lock) (q := .locked) (by simp [stop, hstop rfl]; rfl)
      exact ⟨.lock, l', _, by simp, hl', hq, by simp [StopPhase.rank], .inl (by rw [htty])⟩
  | locked =>
      cases hc : l.tty.closed with
      | true =>
          obtain ⟨l', hl', hq, htty⟩ := hput (b := .test) (q := .done) (by simp [stop, hc]; rfl)
          exact ⟨.test, l', _, by simp, hl', hq, by simp [StopPhase.rank], .inl (by rw [htty])⟩
      | false =>
          obtain ⟨l', hl', hq, htty⟩ := hput (b := .test) (q := .waking) (by simp [stop, hc]; rfl)
          exact ⟨.test, l', _, by simp, hl', hq, by simp [StopPhase.rank], .inl (by rw [htty])⟩
  | waking =>
      obtain ⟨l', hl', hq, htty⟩ := hput (b := .wake) (q := .joining) (by simp [stop]; rfl)
      exact ⟨.wake, l', _, by simp, hl', hq, by simp [StopPhase.rank], .inl (by rw [htty])⟩
  | joining =>
      obtain ⟨l', hl', hq, htty⟩ := hput (b := .join) (q := .joined) (by simp [stop, hworker rfl]; rfl)
      exact ⟨.join, l', _, by simp, hl', hq, by simp [StopPhase.rank], .inr (by rw [htty])⟩
  | joined =>
      obtain ⟨l', hl', hq, htty⟩ := hput (b := .lock_io) (q := .cleaning) (by simp [stop, hio rfl]; rfl)
      exact ⟨.lock_io, l', _, by simp, hl', hq, by simp [StopPhase.rank], .inl (by rw [htty])⟩
  | cleaning =>
      obtain ⟨l', hl', hq, htty⟩ := hput (b := .cleanup) (q := .done) (by simp [stop]; rfl)
      exact ⟨.cleanup, l', _, by simp, hl', hq, by simp [StopPhase.rank], .inl (by rw [htty]; rfl)⟩
  | done => exact absurd rfl hp

/-- A worker that was told to stop comes nearer to its end. -/
theorem exists_pump_step {p : PumpPhase} (hp : l.tty.worker = some p) (hne : p ≠ .exited) (hs : l.tty.stopping = true) :
    ∃ tty q, Line.step strerror l (.pump (PumpPhase.next p)) = some { l with tty := tty } ∧ tty.worker = some q ∧
      q.rank < p.rank := by
  have hput {tty : TtyMembers ι} (h : pump strerror l.tty p (PumpPhase.next p) = some tty) :
      Line.step strerror l (.pump (PumpPhase.next p)) = some { l with tty := tty } := by
    simp [step, hp, h]
  cases p with
  | top => exact ⟨_, .exited, hput (by simp [pump, PumpPhase.next, hs]; rfl), rfl, by simp [PumpPhase.rank]⟩
  | polling => exact ⟨_, .exited, hput (by simp [pump, PumpPhase.next, POLLIN]; rfl), rfl, by simp [PumpPhase.rank]⟩
  | reading => exact ⟨_, .top, hput (by simp [pump, PumpPhase.next]; rfl), rfl, by simp [PumpPhase.rank]⟩
  | tracing bytes =>
      exact ⟨_, .delivering bytes, hput (by simp [pump, PumpPhase.next]; rfl), rfl, by simp [PumpPhase.rank]⟩
  | delivering bytes => exact ⟨_, .top, hput (by simp [pump, PumpPhase.next]; rfl), rfl, by simp [PumpPhase.rank]⟩
  | faulting reason =>
      exact ⟨_, .reporting reason, hput (by simp [pump, PumpPhase.next]; rfl), rfl, by simp [PumpPhase.rank]⟩
  | reporting reason => exact ⟨_, .exited, hput (by simp [pump, PumpPhase.next]; rfl), rfl, by simp [PumpPhase.rank]⟩
  | exited => exact absurd rfl hne

end threads

end Line

end Mongoose
