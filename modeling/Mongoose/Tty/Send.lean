import Mongoose.Lib.Monitor
import Mongoose.Tty

/-!
# Mongoose.Tty.Send

What a send gives the device, and when it looks at the clock.

`Moved` lists what one system call makes of a send.  From it come the account of the
bytes, `stream_intact`, and of the time, `attempts_in_time_iff`: a send looks at the clock
before every attempt but those that follow a signal before the first byte.
-/

namespace Mongoose

namespace Sending

variable {strerror : Int → String} {s s' : Sending} {e : SystemCall}

/-! ## one system call -/

/-- What a system call makes of a send. -/
inductive Moved (strerror : Int → String) (s : Sending) : SystemCall → Sending → Prop
  | started (t : Int) (hp : s.phase = .starting) :
      Moved strerror s (.now t) { s with deadline := t + milliseconds s.timeout }.loop
  | late (t : Int) (hp : s.phase = .checking ∨ s.phase = .waiting) (ht : s.deadline ≤ t) :
      Moved strerror s (.now t) s.finish
  | inTime (t : Int) (hp : s.phase = .checking) (ht : t < s.deadline) :
      Moved strerror s (.now t) { s with phase := .writing }
  | left (t : Int) (hp : s.phase = .waiting) (ht : t < s.deadline) :
      Moved strerror s (.now t) { s with phase := .polling (poll_budget (s.deadline - t)) }
  | took (n : Nat) (errno : Int) (hp : s.phase = .writing) (hn : 0 < n) (hle : n ≤ s.data.length - s.sent) :
      Moved strerror s (.write n errno) (s.advance n).loop
  | interrupted (wrote : Int) (hp : s.phase = .writing) (hw : wrote < 0) :
      Moved strerror s (.write wrote EINTR) s.loop
  | failed (wrote errno : Int) (hp : s.phase = .writing) (hw : wrote < 0) (he : errno ≠ EINTR)
      (hb : errno ≠ EAGAIN) :
      Moved strerror s (.write wrote errno)
        (s.throws (.Error (errno_status errno) ("tty write: " ++ describe strerror errno)))
  | blocked (wrote errno : Int) (hp : s.phase = .writing) (hw : wrote ≤ 0) (he : wrote < 0 → errno ≠ EINTR) :
      Moved strerror s (.write wrote errno) { s with phase := .waiting }
  | polled (ready errno : Int) (revents : Nat) (budget : Int) (hp : s.phase = .polling budget) :
      Moved strerror s (.poll ready errno revents) s.loop
  | pollFailed (ready errno : Int) (revents : Nat) (budget : Int) (hp : s.phase = .polling budget)
      (hr : ready < 0) (he : errno ≠ EINTR) :
      Moved strerror s (.poll ready errno revents)
        (s.throws (.Error (errno_status errno) ("tty write poll: " ++ describe strerror errno)))
  | expired (errno : Int) (revents : Nat) (budget : Int) (hp : s.phase = .polling budget) :
      Moved strerror s (.poll 0 errno revents) s.finish
  | disconnected (ready errno : Int) (revents : Nat) (budget : Int) (hp : s.phase = .polling budget)
      (hr : 0 < ready) (hv : revents &&& (POLLERR ||| POLLHUP ||| POLLNVAL) ≠ 0) :
      Moved strerror s (.poll ready errno revents)
        (s.throws (.Error ERR_DEVICE_NOT_CONNECTED "adapter disconnected during write"))

/-- How a write goes. -/
theorem moved_of_write {wrote errno : Int} (h : s.step strerror (.write wrote errno) = some s') :
    Moved strerror s (.write wrote errno) s' := by
  cases hp : s.phase with
  | writing =>
      simp only [step, hp, Option.ite_none_left_eq_some] at h
      obtain ⟨hoffered, h⟩ := h
      by_cases hpos : wrote > 0
      · rw [if_pos hpos] at h
        obtain ⟨n, rfl⟩ := Int.eq_ofNat_of_zero_le (Int.le_of_lt hpos)
        exact Option.some.inj h ▸ .took n errno hp (by omega) (by omega)
      · rw [if_neg hpos] at h
        by_cases hintr : wrote < 0 ∧ errno = EINTR
        · rw [if_pos hintr] at h
          obtain ⟨hw, rfl⟩ := hintr
          exact Option.some.inj h ▸ .interrupted wrote hp hw
        · rw [if_neg hintr] at h
          by_cases hfail : wrote < 0 ∧ errno ≠ EAGAIN ∧ errno ≠ EWOULDBLOCK
          · rw [if_pos hfail] at h
            exact Option.some.inj h ▸ .failed wrote errno hp hfail.1 (fun he => hintr ⟨hfail.1, he⟩) hfail.2.1
          · rw [if_neg hfail] at h
            exact Option.some.inj h ▸ .blocked wrote errno hp (by omega) fun hw he => hintr ⟨hw, he⟩
  | _ => simp [step, hp] at h

/-- How a poll goes. -/
theorem moved_of_poll {ready errno : Int} {revents : Nat}
    (h : s.step strerror (.poll ready errno revents) = some s') :
    Moved strerror s (.poll ready errno revents) s' := by
  cases hp : s.phase with
  | polling budget =>
      simp only [step, hp] at h
      by_cases hintr : ready < 0 ∧ errno = EINTR
      · rw [if_pos hintr] at h
        exact Option.some.inj h ▸ .polled ready errno revents budget hp
      · rw [if_neg hintr] at h
        by_cases hfail : ready < 0
        · rw [if_pos hfail] at h
          exact Option.some.inj h ▸ .pollFailed ready errno revents budget hp hfail fun he => hintr ⟨hfail, he⟩
        · rw [if_neg hfail] at h
          by_cases hzero : ready = 0
          · rw [if_pos hzero] at h
            subst hzero
            exact Option.some.inj h ▸ .expired errno revents budget hp
          · rw [if_neg hzero] at h
            by_cases hgone : revents &&& (POLLERR ||| POLLHUP ||| POLLNVAL) ≠ 0
            · rw [if_pos hgone] at h
              exact Option.some.inj h ▸ .disconnected ready errno revents budget hp (by omega) hgone
            · rw [if_neg hgone] at h
              exact Option.some.inj h ▸ .polled ready errno revents budget hp
  | _ => simp [step, hp] at h

/-- How any system call goes. -/
theorem moved_of_step (h : s.step strerror e = some s') : Moved strerror s e s' := by
  cases e with
  | write wrote errno => exact moved_of_write h
  | poll ready errno revents => exact moved_of_poll h
  | now t =>
      cases hp : s.phase with
      | starting =>
          simp only [step, hp, Option.some.injEq] at h
          exact h ▸ .started t hp
      | checking =>
          simp only [step, hp, Option.some.injEq] at h
          by_cases ht : t ≥ s.deadline
          · rw [if_pos ht] at h
            exact h ▸ .late t (.inl hp) ht
          · rw [if_neg ht] at h
            exact h ▸ .inTime t hp (by omega)
      | waiting =>
          simp only [step, hp, Option.some.injEq] at h
          by_cases ht : s.deadline - t ≤ 0
          · rw [if_pos ht] at h
            exact h ▸ .late t (.inr hp) (by omega)
          · rw [if_neg ht] at h
            exact h ▸ .left t hp (by omega)
      | _ => simp [step, hp] at h

/-! ## the bytes -/

/-- How a send goes on at the head of the loop. -/
theorem loop_cases (s : Sending) (h : s.sent ≤ s.data.length) :
    (s.sent = s.data.length ∧ s.loop = s.finish) ∨
      (s.sent < s.data.length ∧ s.sent = 0 ∧ s.loop = { s with phase := .writing }) ∨
      (s.sent < s.data.length ∧ 0 < s.sent ∧ s.loop = { s with phase := .checking }) := by
  unfold loop
  by_cases hlt : s.sent < s.data.length
  · rw [if_pos hlt]
    by_cases hpos : s.sent > 0
    · exact .inr (.inr ⟨hlt, hpos, by rw [if_pos hpos]⟩)
    · exact .inr (.inl ⟨hlt, by omega, by rw [if_neg hpos]⟩)
  · rw [if_neg hlt]
    exact .inl ⟨by omega, rfl⟩

/-- What is behind the end of a send. -/
theorem finish_phase (s : Sending) (h : s.sent ≤ s.data.length) (hpos : s.data ≠ []) :
    (s.sent = 0 ∧ s.finish.phase = .threw timed_out) ∨
      (0 < s.sent ∧ s.sent < s.data.length ∧ s.finish.phase = .threw partial_write) ∨
      (s.sent = s.data.length ∧ s.finish.phase = .returned) := by
  have hlen := List.length_pos_iff.mpr hpos
  unfold finish
  by_cases hzero : s.sent = 0
  · simp [hzero]
  · by_cases hall : s.sent = s.data.length
    · simp [hall, hpos]
    · have hlt : 0 < s.sent ∧ s.sent < s.data.length := by omega
      simp [hzero, hall, hlt]

/-- An error of the device, and the system call that reports it. -/
def Fails (strerror : Int → String) (error : Exception) : SystemCall → Prop
  | .now _ => False
  | .write wrote errno =>
      wrote < 0 ∧ error = .Error (errno_status errno) ("tty write: " ++ describe strerror errno)
  | .poll ready errno revents =>
      (ready < 0 ∧ error = .Error (errno_status errno) ("tty write poll: " ++ describe strerror errno)) ∨
        (0 < ready ∧ revents &&& (POLLERR ||| POLLHUP ||| POLLNVAL) ≠ 0 ∧
          error = .Error ERR_DEVICE_NOT_CONNECTED "adapter disconnected during write")

/-- No device error reads like one of the two final ones. -/
theorem Fails.ne {error : Exception} (h : Fails strerror error e) :
    error ≠ timed_out ∧ error ≠ partial_write := by
  have htake (a b : String) (n : Nat) (hn : n ≤ a.toList.length) :
      (a ++ b).toList.take n = a.toList.take n := by
    rw [String.toList_append, List.take_append_of_le_length hn]
  have hne (a b w : String) (code code' : Int) (hn : 11 ≤ a.toList.length)
      (hw : a.toList.take 11 ≠ w.toList.take 11) : Exception.Error code (a ++ b) ≠ .Error code' w := by
    intro heq
    have htext := congrArg (fun x : String => x.toList.take 11) (Exception.Error.inj heq).2
    rw [htake a b 11 hn] at htext
    exact hw htext
  cases e with
  | now t => exact h.elim
  | write wrote errno =>
      obtain ⟨-, rfl⟩ := h
      exact ⟨hne _ _ _ _ _ (by decide) (by decide), hne _ _ _ _ _ (by decide) (by decide)⟩
  | poll ready errno revents =>
      obtain ⟨-, rfl⟩ | ⟨-, -, rfl⟩ := h
      · exact ⟨hne _ _ _ _ _ (by decide) (by decide), hne _ _ _ _ _ (by decide) (by decide)⟩
      · exact ⟨by decide, by decide⟩

/-- What holds of a send and the bytes the device has been given. -/
structure Kept (data : Bytes) (s : Sending) (bytes : Bytes) : Prop where
  data_eq : s.data = data
  bytes_eq : bytes = data.take s.sent
  sent_le : s.sent ≤ data.length
  returned : s.phase = .returned ↔ s.sent = data.length
  late : s.phase = .threw timed_out → s.sent = 0
  short : s.phase = .threw partial_write → 0 < s.sent

variable {data bytes : Bytes}

/-- A send that goes on with the same bytes. -/
theorem Kept.goto (h : Kept data s bytes) (hlt : s.sent < data.length) {p : SendPhase} (hr : p ≠ .returned)
    (hl : p ≠ .threw timed_out) (hs : p ≠ .threw partial_write) : Kept data { s with phase := p } bytes where
  data_eq := h.data_eq
  bytes_eq := h.bytes_eq
  sent_le := h.sent_le
  returned := iff_of_false hr (Nat.ne_of_lt hlt)
  late hp := absurd hp hl
  short hp := absurd hp hs

/-- A send that ends was given a prefix, and all of it if it returns. -/
theorem kept_finish (hdata : s.data = data) (hbytes : bytes = data.take s.sent) (hle : s.sent ≤ data.length)
    (hpos : data ≠ []) : Kept data s.finish bytes := by
  subst hdata
  have hlen := List.length_pos_iff.mpr hpos
  have hphase := s.finish_phase hle hpos
  refine ⟨rfl, hbytes, hle, ?_, ?_, ?_⟩ <;> rw [show s.finish.sent = s.sent from rfl] <;>
    obtain ⟨hs, hp⟩ | ⟨hs, hs', hp⟩ | ⟨hs, hp⟩ := hphase <;> rw [hp] <;> simp [timed_out, partial_write] <;> omega

/-- The head of the loop writes nothing. -/
theorem kept_loop (hdata : s.data = data) (hbytes : bytes = data.take s.sent) (hle : s.sent ≤ data.length)
    (hpos : data ≠ []) : Kept data s.loop bytes := by
  subst hdata
  obtain ⟨-, heq⟩ | ⟨hlt, -, heq⟩ | ⟨hlt, -, heq⟩ := s.loop_cases hle
  · rw [heq]
    exact kept_finish rfl hbytes hle hpos
  · rw [heq]
    exact ⟨rfl, hbytes, hle, iff_of_false nofun (Nat.ne_of_lt hlt), nofun, nofun⟩
  · rw [heq]
    exact ⟨rfl, hbytes, hle, iff_of_false nofun (Nat.ne_of_lt hlt), nofun, nofun⟩

/-- A send that is not over has bytes left. -/
theorem Kept.lt (h : Kept data s bytes) (hp : s.phase ≠ .returned) : s.sent < data.length := by
  have hle := h.sent_le
  have hne : s.sent ≠ data.length := fun heq => hp (h.returned.mpr heq)
  omega

/-- A system call keeps it. -/
theorem Kept.moved (h : Kept data s bytes) (hpos : data ≠ []) (hm : Moved strerror s e s') :
    Kept data s' (s.given e s' bytes) := by
  have hdata := h.data_eq
  have hbytes := h.bytes_eq
  have hle := h.sent_le
  have hnone (wrote : Int) (hw : wrote ≤ 0) : bytes ++ (s.data.drop s.sent).take wrote.toNat = bytes := by
    rw [Int.toNat_of_nonpos hw, List.take_zero, List.append_nil]
  cases hm with
  | started t hp => exact kept_loop hdata hbytes hle hpos
  | late t hp ht => exact kept_finish hdata hbytes hle hpos
  | inTime t hp ht => exact h.goto (h.lt (by simp [hp])) nofun nofun nofun
  | left t hp ht => exact h.goto (h.lt (by simp [hp])) nofun nofun nofun
  | took n errno hp hn hn' =>
      refine kept_loop hdata ?_ ?_ hpos
      · show bytes ++ (s.data.drop s.sent).take n = data.take (s.sent + n)
        rw [hbytes, hdata, List.take_add]
      · show s.sent + n ≤ data.length
        rw [← hdata] at hle ⊢
        omega
  | interrupted wrote hp hw =>
      show Kept data s.loop (bytes ++ (s.data.drop s.sent).take wrote.toNat)
      rw [hnone wrote (Int.le_of_lt hw)]
      exact kept_loop hdata hbytes hle hpos
  | failed wrote errno hp hw he hb =>
      show Kept data _ (bytes ++ (s.data.drop s.sent).take wrote.toNat)
      rw [hnone wrote (Int.le_of_lt hw)]
      have hfails : Fails strerror _ (.write wrote errno) := ⟨hw, rfl⟩
      have hne := hfails.ne
      exact h.goto (h.lt (by simp [hp])) nofun (fun heq => hne.1 (SendPhase.threw.inj heq))
        fun heq => hne.2 (SendPhase.threw.inj heq)
  | blocked wrote errno hp hw he =>
      show Kept data _ (bytes ++ (s.data.drop s.sent).take wrote.toNat)
      rw [hnone wrote hw]
      exact h.goto (h.lt (by simp [hp])) nofun nofun nofun
  | polled ready errno revents budget hp => exact kept_loop hdata hbytes hle hpos
  | pollFailed ready errno revents budget hp hr he =>
      have hfails : Fails strerror _ (.poll ready errno revents) := .inl ⟨hr, rfl⟩
      have hne := hfails.ne
      exact h.goto (h.lt (by simp [hp])) nofun (fun heq => hne.1 (SendPhase.threw.inj heq))
        fun heq => hne.2 (SendPhase.threw.inj heq)
  | expired errno revents budget hp => exact kept_finish hdata hbytes hle hpos
  | disconnected ready errno revents budget hp hr hv =>
      exact h.goto (h.lt (by simp [hp])) nofun (by simp [timed_out]) (by simp [partial_write])

/-- A send that runs out of time says whether a byte was taken. -/
theorem finish_threw {error : Exception} (hp : s.finish.phase = .threw error) :
    error = timed_out ∨ error = partial_write := by
  simp only [finish] at hp
  split_ifs at hp
  · exact .inl (SendPhase.threw.inj hp).symm
  · exact .inr (SendPhase.threw.inj hp).symm

/-- So at the head of the loop. -/
theorem loop_threw {error : Exception} (hp : s.loop.phase = .threw error) :
    error = timed_out ∨ error = partial_write := by
  unfold loop at hp
  split at hp
  · dsimp only at hp
    split at hp <;> cases hp
  · exact finish_threw hp

/-- Only a system call that fails makes a send throw on its way. -/
theorem Moved.fails (hm : Moved strerror s e s') {error : Exception} (hp' : s'.phase = .threw error) :
    (error = timed_out ∨ error = partial_write) ∨ Fails strerror error e := by
  cases hm with
  | started | took | interrupted | polled => exact .inl (loop_threw hp')
  | late | expired => exact .inl (finish_threw hp')
  | inTime | left | blocked => cases hp'
  | failed wrote errno hp hw he hb => exact .inr ⟨hw, (SendPhase.threw.inj hp').symm⟩
  | pollFailed ready errno revents budget hp hr he => exact .inr (.inl ⟨hr, (SendPhase.threw.inj hp').symm⟩)
  | disconnected ready errno revents budget hp hr hv =>
      exact .inr (.inr ⟨hr, hv, (SendPhase.threw.inj hp').symm⟩)

/-- What a send has passed. -/
theorem send_ok {tty : Tty} {timeout : Nat} (h : tty.send data timeout = .ok s) :
    data ≠ [] ∧ timeout ≠ 0 ∧ s = { data := data, timeout := timeout } := by
  unfold Tty.send at h
  obtain ⟨hargs, h⟩ := check_ok h
  obtain ⟨-, h⟩ := check_ok h
  exact ⟨fun hd => hargs (.inr (.inl hd)), fun ht => hargs (.inr (.inr ht)), (Except.ok.inj h).symm⟩

/-- In every run what was taken is a prefix. -/
theorem kept_run {tty : Tty} {timeout : Nat} {s₀ : Sending} {es : List SystemCall}
    (hsend : tty.send data timeout = .ok s₀)
    (hrun : Run.run (Run.recording (step strerror) given) (s₀, []) es = some (s, bytes)) : Kept data s bytes := by
  obtain ⟨hpos, -, rfl⟩ := send_ok hsend
  have hlen := List.length_pos_iff.mpr hpos
  refine Run.invariant (I := fun t : Sending × Bytes => Kept data t.1 t.2) ?_ ?_ hrun
  · intro (m, a) e (t, b) hk hstep
    obtain ⟨ht, rfl⟩ := Run.recording_eq_some_iff.mp hstep
    exact hk.moved hpos (moved_of_step ht)
  · exact ⟨rfl, rfl, Nat.zero_le _, iff_of_false nofun (Nat.ne_of_lt hlen), nofun, nofun⟩

/-- **A send keeps the byte stream.**  The device has been given a prefix of the data; the send returns
when that is all of it, and throws when it is not, after its checks or where the device failed. -/
theorem stream_intact {tty : Tty} {timeout : Nat} {s₀ : Sending} {es : List SystemCall}
    (hsend : tty.send data timeout = .ok s₀)
    (hrun : Run.run (Run.recording (step strerror) given) (s₀, []) es = some (s, bytes)) :
    bytes <+: data ∧ (s.phase = .returned ↔ bytes = data) ∧
      (s.phase = .threw timed_out → bytes = []) ∧
      (s.phase = .threw partial_write → bytes ≠ [] ∧ bytes ≠ data) ∧
      ∀ error, s.phase = .threw error → error = timed_out ∨ error = partial_write ∨
        ∃ ks e, es = ks ++ [e] ∧ Fails strerror error e := by
  have hk := kept_run hsend hrun
  obtain ⟨hpos, -, rfl⟩ := send_ok hsend
  have hlen := List.length_pos_iff.mpr hpos
  have hle := hk.sent_le
  have hbytes : bytes = data ↔ s.sent = data.length := by
    constructor
    · intro hall
      have hsame := congrArg List.length (hk.bytes_eq.symm.trans hall)
      rw [List.length_take] at hsame
      omega
    · intro hall
      rw [hk.bytes_eq, hall, List.take_length]
  refine ⟨hk.bytes_eq ▸ List.take_prefix _ _, hk.returned.trans hbytes.symm, fun hp => ?_, fun hp => ?_,
    fun error hp => ?_⟩
  · rw [hk.bytes_eq, hk.late hp, List.take_zero]
  · have hlt := hk.lt (by simp [hp])
    have hsome := hk.short hp
    refine ⟨fun hnil => ?_, fun hall => ?_⟩
    · have hzero := congrArg List.length (hnil.symm.trans hk.bytes_eq)
      simp only [List.length_nil, List.length_take] at hzero
      omega
    · exact absurd (hbytes.mp hall) (Nat.ne_of_lt hlt)
  · obtain rfl | ⟨ks, e, rfl⟩ := List.eq_nil_or_concat es
    · cases hrun
      cases hp
    · rw [List.concat_eq_append] at hrun ⊢
      obtain ⟨⟨m, a⟩, -, hstep⟩ := Run.run_concat_iff.mp hrun
      obtain hfinal | hfails := (moved_of_step (Run.recording_eq_some_iff.mp hstep).1).fails hp
      · exact hfinal.imp_right .inl
      · exact .inr (.inr ⟨ks, e, rfl, hfails⟩)

/-- Three bytes that the device takes one by one, after a signal. -/
def taken : List SystemCall := [.now 0, .write (-1) EINTR, .write 1 0, .now 1, .write 2 0]

/-- They arrive. -/
theorem stream_intact_taken :
    ∃ s bytes, Run.run (Run.recording (step fun _ => "") given) ({ data := [1, 2, 3], timeout := 1 }, []) taken =
      some (s, bytes) ∧ bytes = [1, 2, 3] := by
  have hdone : (Run.run (Run.recording (step fun _ => "") given)
      ({ data := [1, 2, 3], timeout := 1 }, []) taken).map (fun t => t.1.phase) = some .returned := by
    decide
  obtain ⟨⟨s, bytes⟩, hrun, hs⟩ := Option.map_eq_some_iff.mp hdone
  have hsend : (Tty.mk 3 true false).send [1, 2, 3] 1 = .ok { data := [1, 2, 3], timeout := 1 } := by decide
  exact ⟨s, bytes, hrun, (stream_intact hsend hrun).2.1.mp hs⟩

/-! ## the clock -/

/-- Watches whether the clock was read before the deadline since the last attempt, if there was one; only
then may there be another. -/
def attempts (deadline : Int) : Monitor SystemCall Bool where
  init := true
  step rested
    | .now t => rested || decide (t < deadline)
    | .write .. => false
    | .poll .. => rested
  Allows rested
    | .write .. => rested = true
    | _ => True

/-- A signal interrupts an attempt, and no byte was accepted before. -/
def InterruptedEarly (before : List SystemCall) : SystemCall → Prop
  | .write wrote errno =>
      wrote < 0 ∧ errno = EINTR ∧ ∀ wrote' errno', .write wrote' errno' ∈ before → wrote' ≤ 0
  | _ => False

/-- The last system call was an attempt that a signal has interrupted early. -/
def Stormed (es : List SystemCall) : Prop := ∃ before e, es = before ++ [e] ∧ InterruptedEarly before e

/-- At first there was no storm. -/
theorem not_stormed_nil : ¬ Stormed [] := by
  rintro ⟨before, e, h, -⟩
  simp at h

/-- A run is stormed if its last attempt was interrupted early. -/
theorem stormed_concat {es : List SystemCall} : Stormed (es ++ [e]) ↔ InterruptedEarly es e := by
  constructor
  · rintro ⟨before, e', heq, h⟩
    obtain ⟨rfl, he⟩ := List.append_inj' heq rfl
    cases he
    exact h
  · exact fun h => ⟨es, e, rfl, h⟩

/-- Nothing was accepted. -/
def Unaccepted (es : List SystemCall) : Prop := ∀ wrote errno, .write wrote errno ∈ es → wrote ≤ 0

/-- Nothing was accepted as long as no write was. -/
theorem unaccepted_concat {es : List SystemCall} :
    Unaccepted (es ++ [e]) ↔ Unaccepted es ∧ ∀ wrote errno, e = .write wrote errno → wrote ≤ 0 := by
  simp only [Unaccepted, List.mem_append, List.mem_singleton, or_imp, forall_and, eq_comm]

/-- What a send knows of the clock: it was read since the last attempt where the next may follow, unless
a signal interrupted that attempt early. -/
structure Timed (es : List SystemCall) (s : Sending) : Prop where
  sent : s.sent = 0 ↔ Unaccepted es
  starting : s.phase = .starting → es = []
  clock : (Stormed es ∧ s.phase = .writing ∧ (attempts s.deadline).state es = false) ∨
    (¬ Stormed es ∧ ((attempts s.deadline).state es = true ∨ s.phase ≠ .writing ∧ ∀ b, s.phase ≠ .polling b))

section timed

variable {es : List SystemCall} {p : SendPhase}

/-- No attempt was made, or none that accepted a byte. -/
theorem Timed.sent_concat (h : Timed es s) (he : ∀ wrote errno, e = .write wrote errno → wrote ≤ 0) :
    s.sent = 0 ↔ Unaccepted (es ++ [e]) := by
  rw [unaccepted_concat, h.sent]
  exact ⟨fun hes => ⟨hes, he⟩, fun hes => hes.1⟩

/-- The clock was read, and there is time left. -/
theorem Timed.read (h : Timed es s) {t : Int} (hp : p ≠ .starting) (ht : t < s.deadline) :
    Timed (es ++ [.now t]) { s with phase := p } where
  sent := h.sent_concat nofun
  starting hp' := absurd hp' hp
  clock := by
    right
    refine ⟨fun hs => stormed_concat.mp hs, .inl ?_⟩
    rw [Monitor.state_concat]
    simp [attempts, ht]

/-- An interruption that skips the clock comes before the first byte. -/
theorem InterruptedEarly.unaccepted (h : InterruptedEarly es e) : Unaccepted (es ++ [e]) := by
  cases e with
  | write wrote errno =>
      obtain ⟨hw, -, hes⟩ := h
      refine unaccepted_concat.mpr ⟨hes, fun wrote' errno' he => ?_⟩
      cases he
      omega
  | _ => exact h.elim

/-- A send that is not about to attempt anything. -/
theorem timed_rest (hsent : s.sent = 0 ↔ Unaccepted (es ++ [e])) (hs : ¬ InterruptedEarly es e)
    (hp : p ≠ .starting) (hw : p ≠ .writing) (hb : ∀ b, p ≠ .polling b) :
    Timed (es ++ [e]) { s with phase := p } where
  sent := hsent
  starting hp' := absurd hp' hp
  clock := .inr ⟨fun hst => hs (stormed_concat.mp hst), .inr ⟨hw, hb⟩⟩

/-- A send that ends makes no further attempt. -/
theorem timed_finish (hsent : s.sent = 0 ↔ Unaccepted (es ++ [e])) (hs : ¬ InterruptedEarly es e) :
    Timed (es ++ [e]) s.finish := by
  unfold finish
  split_ifs
  · exact timed_rest hsent hs nofun nofun fun _ => nofun
  · exact timed_rest hsent hs nofun nofun fun _ => nofun
  · exact timed_rest hsent hs nofun nofun fun _ => nofun

/-- At the head of the loop the clock matters to a send that has sent nothing. -/
theorem timed_loop (hsent : s.sent = 0 ↔ Unaccepted (es ++ [e])) (hle : s.sent ≤ s.data.length)
    (hpos : s.data ≠ [])
    (hfirst : s.sent = 0 → (Stormed (es ++ [e]) ∧ (attempts s.deadline).state (es ++ [e]) = false) ∨
      (¬ Stormed (es ++ [e]) ∧ (attempts s.deadline).state (es ++ [e]) = true)) :
    Timed (es ++ [e]) s.loop := by
  have hlen := List.length_pos_iff.mpr hpos
  have hearly (hsome : 0 < s.sent) : ¬ InterruptedEarly es e := fun h => by
    have hzero := hsent.mpr h.unaccepted
    omega
  obtain ⟨hall, heq⟩ | ⟨-, hzero, heq⟩ | ⟨-, hsome, heq⟩ := s.loop_cases hle
  · rw [heq]
    exact timed_finish hsent (hearly (by omega))
  · rw [heq]
    refine ⟨hsent, nofun, ?_⟩
    obtain ⟨hs, hstate⟩ | ⟨hs, hstate⟩ := hfirst hzero
    · exact .inl ⟨hs, rfl, hstate⟩
    · exact .inr ⟨hs, .inl hstate⟩
  · rw [heq]
    exact timed_rest hsent (hearly hsome) nofun nofun fun _ => nofun

/-- A system call keeps it. -/
theorem Timed.moved (h : Timed es s) (hle : s.sent ≤ s.data.length) (hpos : s.data ≠ [])
    (hm : Moved strerror s e s') : Timed (es ++ [e]) s' := by
  have hnone {e : SystemCall} (hs : ¬ InterruptedEarly es e) : ¬ Stormed (es ++ [e]) :=
    fun hst => hs (stormed_concat.mp hst)
  cases hm with
  | started t hp =>
      obtain rfl := h.starting hp
      exact timed_loop (h.sent_concat nofun) hle hpos fun _ => .inr ⟨hnone id, by simp [attempts, Monitor.state]⟩
  | late t hp ht => exact timed_finish (h.sent_concat nofun) id
  | inTime t hp ht | left t hp ht => exact h.read nofun ht
  | took n errno hp hn hn' =>
      have hsent : (s.advance n).sent = 0 ↔ Unaccepted (es ++ [.write n errno]) := by
        refine iff_of_false (show s.sent + n ≠ 0 by omega) fun hu => ?_
        have hnot := (unaccepted_concat.mp hu).2 n errno rfl
        omega
      refine timed_loop hsent (show s.sent + n ≤ s.data.length by omega) hpos fun hzero => ?_
      exact absurd hzero (show s.sent + n ≠ 0 by omega)
  | interrupted wrote hp hw =>
      have hsent : s.sent = 0 ↔ Unaccepted (es ++ [.write wrote EINTR]) := h.sent_concat fun _ _ he => by
        cases he
        omega
      refine timed_loop hsent hle hpos fun hzero => .inl ⟨?_, by rw [Monitor.state_concat]; rfl⟩
      exact stormed_concat.mpr ⟨hw, rfl, h.sent.mp hzero⟩
  | failed wrote errno hp hw he hb =>
      have hsent : s.sent = 0 ↔ Unaccepted (es ++ [.write wrote errno]) := h.sent_concat fun _ _ he => by
        cases he
        omega
      exact timed_rest hsent (fun hs => he hs.2.1) nofun nofun fun _ => nofun
  | blocked wrote errno hp hw he =>
      have hsent : s.sent = 0 ↔ Unaccepted (es ++ [.write wrote errno]) := h.sent_concat fun _ _ he => by
        cases he
        exact hw
      exact timed_rest hsent (fun hs => he hs.1 hs.2.1) nofun nofun fun _ => nofun
  | polled ready errno revents budget hp =>
      refine timed_loop (h.sent_concat nofun) hle hpos fun _ => .inr ⟨hnone id, ?_⟩
      rw [Monitor.state_concat]
      obtain ⟨-, hw, -⟩ | ⟨-, hstate | ⟨-, hb⟩⟩ := h.clock
      · rw [hp] at hw
        cases hw
      · exact hstate
      · exact absurd hp (hb budget)
  | pollFailed ready errno revents budget hp hr he =>
      exact timed_rest (h.sent_concat nofun) id nofun nofun fun _ => nofun
  | expired errno revents budget hp => exact timed_finish (h.sent_concat nofun) id
  | disconnected ready errno revents budget hp hr hv =>
      exact timed_rest (h.sent_concat nofun) id nofun nofun fun _ => nofun

/-- A send attempts a write when it is about to, and does nothing else then. -/
theorem Moved.writing_iff (hm : Moved strerror s e s') :
    s.phase = .writing ↔ ∃ wrote errno, e = .write wrote errno := by
  cases hm with
  | late t hp => obtain hp | hp := hp <;> simp [hp]
  | started t hp | inTime t hp | left t hp | took n errno hp | interrupted wrote hp | failed wrote errno hp
  | blocked wrote errno hp | polled ready errno revents budget hp | pollFailed ready errno revents budget hp
  | expired errno revents budget hp | disconnected ready errno revents budget hp => simp [hp]

/-- The deadline never moves. -/
theorem loop_deadline (s : Sending) : s.loop.deadline = s.deadline := by
  unfold loop
  split <;> rfl

/-- The deadline stays once it is set. -/
theorem Moved.deadline (hm : Moved strerror s e s') (hp : s.phase ≠ .starting) : s'.deadline = s.deadline := by
  cases hm with
  | started t hp' => exact absurd hp' hp
  | took n errno => exact loop_deadline (s.advance n)
  | interrupted | polled => exact loop_deadline s
  | _ => rfl

/-- An attempt is in time exactly when no early interruption comes right before it. -/
theorem Timed.allows_iff (h : Timed es s) (hm : Moved strerror s e s') :
    (attempts s.deadline).Allows ((attempts s.deadline).state es) e ↔ ¬ Stormed es := by
  by_cases hp : s.phase = .writing
  · obtain ⟨wrote, errno, rfl⟩ := hm.writing_iff.mp hp
    show (attempts s.deadline).state es = true ↔ ¬ Stormed es
    obtain ⟨hs, -, hstate⟩ | ⟨hs, hstate | ⟨hw, -⟩⟩ := h.clock
    · simp [hs, hstate]
    · simp [hs, hstate]
    · exact absurd hp hw
  · refine iff_of_true ?_ fun hs => ?_
    · cases e with
      | write wrote errno => exact absurd (hm.writing_iff.mpr ⟨wrote, errno, rfl⟩) hp
      | _ => trivial
    · obtain ⟨-, hw, -⟩ | ⟨hs', -⟩ := h.clock
      · exact hp hw
      · exact hs' hs

end timed

/-- No attempt that something follows was interrupted early. -/
def Calm (es : List SystemCall) : Prop :=
  ∀ before e x after, es = before ++ e :: x :: after → ¬ InterruptedEarly before e

theorem calm_nil : Calm [] := by
  intro before e x after h
  simp at h

/-- Something follows a calm run calmly unless it was stormed. -/
theorem calm_concat {es : List SystemCall} : Calm (es ++ [e]) ↔ Calm es ∧ ¬ Stormed es := by
  constructor
  · intro h
    refine ⟨fun before y x after hes => h before y x (after ++ [e]) (by rw [hes]; simp), ?_⟩
    rintro ⟨before, y, rfl, hy⟩
    exact h before y e [] (by simp) hy
  · rintro ⟨h, hs⟩ before y x after hes hy
    obtain rfl | ⟨after, z, rfl⟩ := List.eq_nil_or_concat after
    · have hes' : es ++ [e] = (before ++ [y]) ++ [x] := by simpa using hes
      exact hs ⟨before, y, (List.append_inj' hes' rfl).1, hy⟩
    · have hes' : es ++ [e] = (before ++ y :: x :: after) ++ [z] := by simpa using hes
      exact h before y x after (List.append_inj' hes' rfl).1 hy

/-- **When a send stays inside its budget.**  Every attempt after the first follows a reading of the
clock before the deadline, exactly when no attempt but the last was interrupted by a signal with no byte
accepted yet. -/
theorem attempts_in_time_iff {tty : Tty} {timeout : Nat} {s₀ : Sending} {es : List SystemCall}
    (hsend : tty.send data timeout = .ok s₀) (hrun : Run.run (step strerror) s₀ es = some s) :
    (attempts s.deadline).Lawful es ↔ Calm es := by
  suffices hall : Timed es s ∧ ((attempts s.deadline).Lawful es ↔ Calm es) from hall.2
  have hok := send_ok hsend
  refine Run.run_induction (P := fun es s => Timed es s ∧ ((attempts s.deadline).Lawful es ↔ Calm es)) ?_ ?_ hrun
  · refine ⟨⟨?_, fun _ => rfl, .inr ⟨not_stormed_nil, .inl rfl⟩⟩, iff_of_true (Monitor.lawful_nil _) calm_nil⟩
    rw [hok.2.2]
    exact iff_of_true rfl nofun
  · intro es m e t hm ⟨htimed, hiff⟩ hstep
    obtain ⟨bytes, hrec⟩ := Run.exists_recording given hm []
    have hk := kept_run hsend hrec
    have hmoved := moved_of_step hstep
    have hle : m.sent ≤ m.data.length := hk.data_eq ▸ hk.sent_le
    refine ⟨htimed.moved hle (hk.data_eq ▸ hok.1) hmoved, ?_⟩
    rw [Monitor.lawful_concat_iff, calm_concat]
    by_cases hp : m.phase = .starting
    · obtain rfl := htimed.starting hp
      refine iff_of_true ⟨Monitor.lawful_nil _, ?_⟩ ⟨calm_nil, not_stormed_nil⟩
      cases e with
      | write wrote errno =>
          have hw := hmoved.writing_iff.mpr ⟨wrote, errno, rfl⟩
          rw [hp] at hw
          cases hw
      | _ => trivial
    · rw [hmoved.deadline hp, hiff, htimed.allows_iff hmoved]

/-- Two signals before the first byte. -/
def signals : List SystemCall := [.now 0, .write (-1) EINTR, .write (-1) EINTR]

/-- The second attempt is made without a look at the clock. -/
theorem attempts_not_in_time :
    ∃ s, Run.run (step fun _ => "") { data := [1], timeout := 1 } signals = some s ∧
      ¬ (attempts s.deadline).Lawful signals := by
  have hdone : (Run.run (step fun _ => "") { data := [1], timeout := 1 } signals).map Sending.deadline =
      some 1000000 := by
    decide
  obtain ⟨s, hrun, hs⟩ := Option.map_eq_some_iff.mp hdone
  refine ⟨s, hrun, fun h => ?_⟩
  have hallow := h [.now 0, .write (-1) EINTR] (.write (-1) EINTR) [] rfl
  rw [hs] at hallow
  have hrested : (attempts 1000000).state [.now 0, .write (-1) EINTR] = true := hallow
  exact absurd hrested (by decide)

/-- Without signals all is in time. -/
theorem attempts_in_time_iff_halves :
    ∃ s, Run.run (step fun _ => "") { data := [1, 2], timeout := 1 } [.now 0, .write 1 0, .now 1, .write 1 0] =
      some s ∧ (attempts s.deadline).Lawful [.now 0, .write 1 0, .now 1, .write 1 0] := by
  have hdone : (Run.run (step fun _ => "") { data := [1, 2], timeout := 1 }
      [.now 0, .write 1 0, .now 1, .write 1 0]).map Sending.phase = some .returned := by
    decide
  obtain ⟨s, hrun, hs⟩ := Option.map_eq_some_iff.mp hdone
  have hsend : (Tty.mk 3 true false).send [1, 2] 1 = .ok { data := [1, 2], timeout := 1 } := by decide
  refine ⟨s, hrun, (attempts_in_time_iff hsend hrun).mpr fun before e x after hes he => ?_⟩
  have hmem : e ∈ [SystemCall.now 0, .write 1 0, .now 1, .write 1 0] := by rw [hes]; simp
  cases e with
  | write wrote errno =>
      have hw := he.1
      simp at hmem
      omega
  | _ => exact he

end Sending

end Mongoose
