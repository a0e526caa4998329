import Mongoose.Api.Writes

/-!
# Mongoose.Api.Deadlines

The arithmetic of deadlines and budgets.

The clock counts nanoseconds in 64 bits.  `int64` is a result of that arithmetic, or none
where it would overflow; the functions that compute deadlines are written once more over
it.  `Budgeted` follows a command from its call to its send along the run of a session
whose clock goes forward.
-/

namespace Mongoose

/-! ## 64-bit arithmetic -/

/-- A signed 64-bit result. -/
def int64 (x : Int) : Option Int := if -2 ^ 63 ≤ x ∧ x ≤ clock_max then some x else none

/-- A value in range is stored as it is. -/
theorem int64_eq {x : Int} (h : -2 ^ 63 ≤ x) (h' : x ≤ clock_max) : int64 x = some x := if_pos ⟨h, h'⟩

/-- `deadline_after`, operation by operation. -/
def deadline_after_int64 (timeout_ms : UInt32) (now : Int) : Option Int := do
  let available ← int64 (clock_max - now)
  let duration : Int := timeout_ms.toNat
  if duration ≥ available.tdiv 1000000 then pure clock_max
  else
    let duration ← int64 (milliseconds duration)
    int64 (now + duration)

/-- The deadline of a command, operation by operation. -/
def command_deadline_int64 (timeout : Int) (now : Int) : Option Int := do
  let duration ← int64 (milliseconds timeout)
  int64 (now + duration)

section arithmetic

variable {timeout timeout' : UInt32} {now : Int}

/-- A timeout is added, or it reaches the end of the clock. -/
theorem deadline_after_cases (timeout : UInt32) (h : now ≤ clock_max) :
    ((clock_max - now) / 1000000 ≤ timeout.toNat ∧ deadline_after timeout now = clock_max) ∨
      (timeout.toNat < (clock_max - now) / 1000000 ∧
        deadline_after timeout now = now + timeout.toNat * 1000000) := by
  have htrunc : (clock_max - now).tdiv 1000000 = (clock_max - now) / 1000000 :=
    Int.tdiv_eq_ediv_of_nonneg (by omega)
  simp only [deadline_after, htrunc, milliseconds]
  by_cases hlong : (timeout.toNat : Int) ≥ (clock_max - now) / 1000000
  · exact .inl ⟨hlong, if_pos hlong⟩
  · exact .inr ⟨by omega, if_neg hlong⟩

/-- No deadline overflows. -/
theorem deadline_after_int64_eq (h : 0 ≤ now) (h' : now ≤ clock_max) :
    deadline_after_int64 timeout now = some (deadline_after timeout now) := by
  have hspan : int64 (clock_max - now) = some (clock_max - now) := int64_eq (by omega) (by omega)
  have htrunc : (clock_max - now).tdiv 1000000 = (clock_max - now) / 1000000 :=
    Int.tdiv_eq_ediv_of_nonneg (by omega)
  unfold deadline_after_int64
  rw [hspan]
  simp only [Option.bind_eq_bind, Option.bind_some, htrunc, milliseconds]
  obtain ⟨hlong, heq⟩ | ⟨hshort, heq⟩ := deadline_after_cases timeout h'
  · rw [heq, if_pos hlong]
    rfl
  · have hmax : clock_max = 9223372036854775807 := rfl
    rw [heq, if_neg (by omega), int64_eq (by omega) (by omega), Option.bind_some,
      int64_eq (by omega) (by omega)]

/-- A deadline is not in the past. -/
theorem le_deadline_after (timeout : UInt32) (h : now ≤ clock_max) : now ≤ deadline_after timeout now := by
  have hcases := deadline_after_cases timeout h
  omega

/-- A longer timeout ends no earlier. -/
theorem deadline_after_mono (h : now ≤ clock_max) (hle : timeout ≤ timeout') :
    deadline_after timeout now ≤ deadline_after timeout' now := by
  have hle : timeout.toNat ≤ timeout'.toNat := hle
  have hcases := deadline_after_cases timeout h
  have hcases' := deadline_after_cases timeout' h
  omega

/-- A timeout that ends a millisecond before the clock does is added as it is. -/
theorem deadline_after_eq (h : now + milliseconds timeout.toNat + milliseconds 1 ≤ clock_max) :
    deadline_after timeout now = now + milliseconds timeout.toNat := by
  unfold milliseconds at h ⊢
  have hcases := deadline_after_cases timeout (show now ≤ clock_max by omega)
  omega

/-- A command has between one and ten seconds for its answer. -/
theorem acknowledgement_budget_bounds (timeout : UInt32) (remaining : Int) :
    1000 ≤ acknowledgement_budget timeout remaining ∧ acknowledgement_budget timeout remaining ≤ 10000 := by
  unfold acknowledgement_budget
  split
  · omega
  · omega

/-- The argument check of a command never fires for a write. -/
theorem Writer.command_enters (wr : Writer) (c : TransmitCall) (m : PASSTHRU_MSG) (payload : Bytes)
    (before_send now : Int) : (Call.enter (wr.command c m payload before_send) now).phase = .slot := by
  have hbounds := acknowledgement_budget_bounds wr.timeout (wr.deadline - before_send)
  unfold Call.enter
  rw [if_neg]
  show ¬ (acknowledgement_budget wr.timeout (wr.deadline - before_send) ≤ 0 ∨
    acknowledgement_budget wr.timeout (wr.deadline - before_send) > 60000)
  omega

end arithmetic

/-! ## readings of the clock -/

def Action.reading : Action → Option Int
  | .slotTimeout now | .start now | .budget now | .expire now => some now
  | _ => none

def Label.reading : Label → Option Int
  | .enter _ _ now => some now
  | .act _ a => a.reading
  | _ => none

/-- The readings of the clock in a run, in their order. -/
def readings (ls : List Label) : List Int := ls.filterMap Label.reading

/-- The clock goes forward, and ends a minute before it could overflow. -/
structure Forward (ls : List Label) : Prop where
  ordered : (readings ls).Pairwise (· ≤ ·)
  bounded : ∀ t ∈ readings ls, 0 ≤ t ∧ t + milliseconds 60000 ≤ clock_max

/-- One more reading of the clock. -/
theorem readings_concat (ls : List Label) (l : Label) :
    readings (ls ++ [l]) = readings ls ++ l.reading.toList := by
  cases h : l.reading <;> simp [readings, h]

/-- A clock that goes forward has always done so. -/
theorem Forward.of_concat {ls : List Label} {l : Label} (h : Forward (ls ++ [l])) : Forward ls where
  ordered := by
    have hordered := h.ordered
    rw [readings_concat] at hordered
    exact (List.pairwise_append.mp hordered).1
  bounded t ht := h.bounded t (by rw [readings_concat]; exact List.mem_append_left _ ht)

/-- What was read before is not after what is read now. -/
theorem Forward.le {ls : List Label} {l : Label} (h : Forward (ls ++ [l])) {t now : Int} (ht : t ∈ readings ls)
    (hl : l.reading = some now) : t ≤ now := by
  have hordered := h.ordered
  rw [readings_concat, hl] at hordered
  exact (List.pairwise_append.mp hordered).2.2 t ht now (List.mem_singleton_self _)

/-! ## from the call to the send -/

/-- The budget that a command hands the transport, by the reading that set it. -/
structure Budget (call : Call) (now n : Int) : Prop where
  positive : 0 < n
  le : n ≤ 60000
  enough : call.deadline - now ≤ milliseconds n
  tight : milliseconds n < call.deadline - now + milliseconds 1
  int64 : int64 (call.deadline - now) = some (call.deadline - now)

/-- A command that has passed its argument check has a deadline from then, and a budget when it is about
to send. -/
structure Budgeted (ls : List Label) (c : CallId) (call : Call) : Prop where
  entered : (∃ error, call.phase = .threw error) ∨ ∃ t ∈ readings ls, 0 < call.command.timeout ∧
    call.command.timeout ≤ 60000 ∧ command_deadline_int64 call.command.timeout t = some call.deadline
  budget : ∀ n, call.phase = .sending n → ∃ ks now ms, ls = ks ++ .act c (.budget now) :: ms ∧ Budget call now n

/-- The deadline of a command never moves. -/
theorem Took.deadline_eq {c : CallId} {s s' : Session} {call call' : Call} {a : Action}
    (h : Took c s call a s' call') : call'.deadline = call.deadline := by
  cases h <;> rfl

/-- It does not overflow either. -/
theorem command_deadline_eq {timeout t deadline : Int} (h0 : 0 < timeout) (h : timeout ≤ 60000)
    (ht : 0 ≤ t ∧ t + milliseconds 60000 ≤ clock_max)
    (hd : command_deadline_int64 timeout t = some deadline) : deadline = t + milliseconds timeout := by
  unfold milliseconds at ht ⊢
  have hmax : clock_max = 9223372036854775807 := rfl
  unfold command_deadline_int64 milliseconds at hd
  rw [int64_eq (by omega) (by omega), Option.bind_eq_bind, Option.bind_some,
    int64_eq (by omega) (by omega)] at hd
  exact (Option.some.inj hd).symm

/-- A new command has its whole budget. -/
theorem budgeted_enter {ls : List Label} {c : CallId} {cmd : Command} {now : Int}
    (hf : Forward (ls ++ [.enter c cmd now])) : Budgeted (ls ++ [.enter c cmd now]) c (Call.enter cmd now) := by
  have hmem : now ∈ readings (ls ++ [.enter c cmd now]) := by
    rw [readings_concat]
    exact List.mem_append_right _ (List.mem_singleton_self _)
  have hbound := hf.bounded now hmem
  unfold Call.enter
  by_cases hbad : cmd.timeout ≤ 0 ∨ cmd.timeout > 60000
  · rw [if_pos hbad]
    exact ⟨.inl ⟨_, rfl⟩, nofun⟩
  · rw [if_neg hbad]
    refine ⟨.inr ⟨now, hmem, show 0 < cmd.timeout by omega, show cmd.timeout ≤ 60000 by omega, ?_⟩, nofun⟩
    have hmax : clock_max = 9223372036854775807 := rfl
    unfold milliseconds at hbound
    show command_deadline_int64 cmd.timeout now = some (now + milliseconds cmd.timeout)
    unfold command_deadline_int64 milliseconds
    rw [int64_eq (by omega) (by omega), Option.bind_eq_bind, Option.bind_some, int64_eq (by omega) (by omega)]

/-- The budget is the time left, rounded up. -/
theorem budget_of_reading {call : Call} {t now n : Int} (h0 : 0 < call.command.timeout)
    (h : call.command.timeout ≤ 60000) (hd : call.deadline = t + milliseconds call.command.timeout)
    (hle : t ≤ now)
    (hbudget : call.budget now = .sending n) : Budget call now n := by
  unfold milliseconds at hd
  have hmax : clock_max = 9223372036854775807 := rfl
  unfold Call.budget at hbudget
  by_cases hlate : call.deadline - now ≤ 0
  · rw [if_pos hlate] at hbudget
    cases hbudget
  · rw [if_neg hlate] at hbudget
    have hn := Phase.sending.inj hbudget
    refine ⟨by omega, by omega, ?_, ?_, int64_eq (by omega) (by omega)⟩
    · unfold milliseconds
      omega
    · unfold milliseconds
      omega

/-- A step of another thread leaves a command as it is. -/
theorem Budgeted.concat {ls : List Label} {c : CallId} {call : Call} (h : Budgeted ls c call) (l : Label) :
    Budgeted (ls ++ [l]) c call where
  entered := h.entered.imp_right fun ⟨t, ht, hrest⟩ =>
    ⟨t, by rw [readings_concat]; exact List.mem_append_left _ ht, hrest⟩
  budget n hn := by
    obtain ⟨ks, now, ms, rfl, hb⟩ := h.budget n hn
    exact ⟨ks, now, ms ++ [l], by simp, hb⟩

/-- A command takes a step. -/
theorem Budgeted.step {ls : List Label} {c : CallId} {s s' : Session} {call call' : Call} {a : Action}
    (h : Budgeted ls c call) (hf : Forward (ls ++ [.act c a])) (hs : call.step c s a = some (s', call')) :
    Budgeted (ls ++ [.act c a]) c call' := by
  have ht := took_of_step hs
  have hnot : ¬ ∃ error, call.phase = .threw error := by
    rintro ⟨error, hp⟩
    exact ht.not_ended (by rw [hp]; trivial)
  obtain ⟨t, hmem, h0, hle, hdeadline⟩ := h.entered.resolve_left hnot
  constructor
  · refine .inr ⟨t, ?_, ?_⟩
    · rw [readings_concat]
      exact List.mem_append_left _ hmem
    · rw [ht.command_eq, ht.deadline_eq]
      exact ⟨h0, hle, hdeadline⟩
  · intro n hn
    have hbound := hf.of_concat.bounded t hmem
    have hd := command_deadline_eq h0 hle hbound hdeadline
    cases ht with
    | budget now n' hp hlt hpos =>
        simp only [Call.step, hp, if_pos, Option.some.injEq, Prod.mk.injEq] at hs
        have hbudget : call.budget now = .sending n := by
          have hphase := congrArg Call.phase hs.2
          exact hphase.trans hn
        have hread : t ≤ now := hf.le hmem rfl
        obtain ⟨hpos, hle', henough, htight, hint⟩ := budget_of_reading h0 hle hd hread hbudget
        exact ⟨ls, now, [], rfl, hpos, hle', henough, htight, hint⟩
    | _ => cases hn

/-- In every run each command keeps to its budget. -/
theorem budgeted_run {protocol : ReceiverRef → UInt32} {ls : List Label} {w : World}
    (hrun : Run.run World.step (World.opened protocol) ls = some w) (hf : Forward ls) {c : CallId} {call : Call}
    (hc : w.calls c = some call) : Budgeted ls c call := by
  refine Run.run_induction (P := fun ls w => Forward ls → ∀ c call, w.calls c = some call → Budgeted ls c call)
    (fun _ _ _ h => by cases h) ?_ hrun hf c call hc
  intro ls m l t _ ih hstep hf c call' hc'
  have hold := ih hf.of_concat c
  obtain hsame | ⟨cmd, now, rfl, -, hnew⟩ | ⟨a, call, call'', rfl, hcall, -, -⟩ := World.calls_of_step hstep c
  · exact (hold call' (hsame ▸ hc')).concat l
  · obtain rfl := Option.some.inj (hnew.symm.trans hc')
    exact budgeted_enter hf
  · obtain ⟨call₁, hcall₁, hstep⟩ := Option.bind_eq_some_iff.mp hstep
    obtain rfl := Option.some.inj (hcall.symm.trans hcall₁)
    obtain ⟨⟨s, call₂⟩, hs, rfl⟩ := Option.map_eq_some_iff.mp hstep
    obtain rfl := Option.some.inj ((World.put_calls_self ..).symm.trans hc')
    exact (hold call hcall).step hf hs

/-- **Deadlines and budgets.**  The deadline of a call is computed without overflow, is not before now,
grows with the timeout and is what the timeout says, short of the clock's end.  A write's commands pass
their argument check.  And what a command hands the transport is a positive number of milliseconds, at
most a minute, that covers the time left by less than one. -/
theorem deadlines_sound :
    (∀ (timeout : UInt32) (now : Int), 0 ≤ now → now ≤ clock_max →
      deadline_after_int64 timeout now = some (deadline_after timeout now) ∧ now ≤ deadline_after timeout now ∧
      (∀ timeout' : UInt32, timeout ≤ timeout' → deadline_after timeout now ≤ deadline_after timeout' now) ∧
      (now + milliseconds timeout.toNat + milliseconds 1 ≤ clock_max →
        deadline_after timeout now = now + milliseconds timeout.toNat)) ∧
    (∀ (timeout : UInt32) (remaining : Int),
      1000 ≤ acknowledgement_budget timeout remaining ∧ acknowledgement_budget timeout remaining ≤ 10000) ∧
    (∀ (wr : Writer) c m payload before_send now,
      (Call.enter (wr.command c m payload before_send) now).phase = .slot) ∧
    ∀ (protocol : ReceiverRef → UInt32) (ls : List Label) (w : World) (c : CallId) (call : Call) (n : Int),
      Run.run World.step (World.opened protocol) ls = some w → Forward ls → w.calls c = some call →
      call.phase = .sending n →
      (∃ t ∈ readings ls, command_deadline_int64 call.command.timeout t = some call.deadline) ∧
        ∃ ks now ms, ls = ks ++ .act c (.budget now) :: ms ∧ Budget call now n := by
  refine ⟨fun timeout now h h' => ⟨deadline_after_int64_eq h h', le_deadline_after timeout h',
    fun timeout' => deadline_after_mono h', deadline_after_eq⟩, acknowledgement_budget_bounds,
    Writer.command_enters, fun protocol ls w c call n hrun hf hc hp => ?_⟩
  have hb := budgeted_run hrun hf hc
  refine ⟨?_, hb.budget n hp⟩
  obtain ⟨error, hthrew⟩ | ⟨t, hmem, -, -, hdeadline⟩ := hb.entered
  · rw [hp] at hthrew
    cases hthrew
  · exact ⟨t, hmem, hdeadline⟩

/-- A command with a budget of one millisecond, part of which is gone. -/
def hurried : List Label :=
  [.enter 0 { opcode := 3, timeout := 1 } 5, .act 0 .slot, .act 0 (.start 6), .act 0 .known, .act 0 (.budget 7)]

/-- It hands the transport one. -/
theorem deadlines_sound_hurried :
    ∃ w call, Run.run World.step (World.opened fun _ => CAN) hurried = some w ∧ w.calls 0 = some call ∧
      call.phase = .sending 1 ∧ ∃ ks now ms, hurried = ks ++ .act 0 (.budget now) :: ms ∧ Budget call now 1 := by
  have hdone : ((Run.run World.step (World.opened fun _ => CAN) hurried).bind (·.calls 0)).map Call.phase =
      some (.sending 1) := by
    decide
  obtain ⟨call, hcall, hp⟩ := Option.map_eq_some_iff.mp hdone
  obtain ⟨w, hrun, hc⟩ := Option.bind_eq_some_iff.mp hcall
  have hforward : Forward hurried := ⟨by decide, by decide⟩
  exact ⟨w, call, hrun, hc, hp, (deadlines_sound.2.2.2 _ _ w 0 call 1 hrun hforward hc hp).2⟩

end Mongoose
