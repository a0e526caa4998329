import Mongoose.Api.Writes

/-!
# Mongoose.Api.Timed

The verdict of a timed write, and its count.

A write is judged before its messages are counted, and under another lock.  `Late` is a
step that sets the two at odds: a chunk that completes the confirmations of a write that
is failing already, or a failure of a write that is confirmed already.
`timeout_short_iff` says that there is no other way for a write to fail, with a timeout or
otherwise, and to report every message.
-/

namespace Mongoose

/-! ## verdicts -/

/-- What a call is going to throw, or has thrown. -/
def Phase.failure : Phase → Option Exception
  | .undo error | .abandon error | .threw error => some error
  | _ => none

/-- A command whose message is noted fails. -/
def Call.Fails (call : Call) (s : Session) : Action → Prop
  | .budget now => call.deadline ≤ now
  | .sendThrows _ | .expire _ => True
  | .wake => ¬ s.usable
  | _ => False

/-- What a write is going to throw, or has thrown. -/
def Writer.verdict (w : World) (wr : Writer) : Option Exception :=
  match wr.phase with
  | .commanding d => (w.calls d).bind fun call => call.phase.failure
  | .threw error | .uncertain error | .failing error => some error
  | .counting error | .done error => error
  | .turn | .awaiting _ => none

/-- A timed write is failing, whatever is confirmed from now on. -/
def Writer.Failing (w : World) (wr : Writer) : Prop :=
  wr.timeout ≠ 0 ∧ (wr.verdict w).isSome

/-- The confirmations of a write, as it has told them once it is over. -/
def Writer.tally (c : TransmitCall) (w : World) (wr : Writer) : Nat :=
  match wr.phase with
  | .done _ => wr.count
  | _ => (w.session.receivers wr.receiver).confirmed c

section failure

variable {c : CallId} {s s' : Session} {call call' : Call} {a : Action}

/-- Once its message is noted, a command fails only so. -/
theorem Call.failure_of_step (h : call.step c s a = some (s', call')) (he : ¬ call.phase.Early) :
    call'.phase.failure.isSome ↔ call.phase.failure.isSome ∨ call.Fails s a := by
  cases took_of_step h with
  | slot hp | closing _ hp | failed _ hp | full _ _ hp | oversize _ _ _ hp | allocated _ _ _ hp
  | known hp | knownThrows _ _ hp | slotTimeout _ hp => exact absurd (by rw [hp]; trivial) he
  | late now hp hd => simp [hp, Phase.failure, Call.goto, Fails, hd]
  | budget now n hp hd hn =>
      have hle : ¬ call.deadline ≤ now := by omega
      simp [hp, Phase.failure, Call.goto, Fails, hle]
  | send _ hp | sendReturns hp => simp [hp, Phase.failure, Call.goto, Fails]
  | sendThrows error hp => simp [hp, Phase.failure, Call.goto, Fails]
  | undo error hp | abandon error hp => simp [hp, Phase.failure, Call.goto, Fails]
  | woken error hp hu => simp [hp, Phase.failure, Call.goto, Fails, hu]
  | answered body hp hu hr => simp [hp, Phase.failure, Call.goto, Fails, hu]
  | expire now hp hr hu hd => simp [hp, Phase.failure, Call.goto, Fails]

end failure

/-! ## the count against the verdict -/

/-- A write is failing, and all of it is confirmed. -/
def Writer.Overtaken (c : TransmitCall) (w : World) (wr : Writer) : Prop :=
  wr.Failing w ∧ wr.batch.length ≤ wr.tally c w

namespace Writer

variable {c : TransmitCall} {w w' : World} {wr wr' : Writer} {a : WriteAction}

theorem not_overtaken (h : wr.verdict w = none) : ¬ wr.Overtaken c w := by
  rintro ⟨⟨-, hv⟩, -⟩
  rw [h] at hv
  cases hv

theorem tally_of_open (h : ∀ error, wr.phase ≠ .done error) :
    wr.tally c w = (w.session.receivers wr.receiver).confirmed c := by
  unfold tally
  split
  · next error hp => exact absurd hp (h error)
  · rfl

/-- Giving a message up settles the error of a timed write, and tells nothing yet. -/
theorem verdict_fail (ht : wr.timeout ≠ 0) (error : Exception) :
    (wr.fail error).verdict w = some error ∧ ∀ e, (wr.fail error).phase ≠ .done e := by
  unfold fail
  split
  · exact ⟨rfl, fun _ => nofun⟩
  · simp [conclude, ht, verdict]

theorem verdict_conclude (ht : wr.timeout ≠ 0) (error : Exception) :
    (wr.conclude (some error)).verdict w = some error ∧ ∀ e, (wr.conclude (some error)).phase ≠ .done e := by
  simp [conclude, ht, verdict]

/-- A write goes on with the verdict it has, and with what is confirmed. -/
theorem overtaken_congr (hext : wr.Extends wr') (hv : wr'.verdict w' = wr.verdict w)
    (hopen : wr.timeout ≠ 0 → ∀ error, wr.phase ≠ .done error)
    (hopen' : wr.timeout ≠ 0 → ∀ error, wr'.phase ≠ .done error)
    (hc : (w'.session.receivers wr.receiver).confirmed c = (w.session.receivers wr.receiver).confirmed c) :
    wr'.Overtaken c w' ↔ wr.Overtaken c w := by
  unfold Overtaken Failing
  rw [hext.timeout, hext.batch, hv]
  by_cases ht : wr.timeout = 0
  · simp [ht]
  · rw [tally_of_open (hopen ht), tally_of_open (hopen' ht), hext.receiver, hc]

/-- A write that fails now is overtaken if it is confirmed. -/
theorem overtaken_of_fails (ht : wr.timeout ≠ 0) (hext : wr.Extends wr') {error : Exception}
    (hv : wr'.verdict w' = some error) (hopen : ∀ e, wr'.phase ≠ .done e)
    (hc : (w'.session.receivers wr.receiver).confirmed c = (w.session.receivers wr.receiver).confirmed c) :
    wr'.Overtaken c w' ↔ wr.batch.length ≤ (w.session.receivers wr.receiver).confirmed c := by
  unfold Overtaken Failing
  rw [tally_of_open hopen, hext.receiver, hext.batch, hc, hext.timeout, hv]
  simp [ht]

end Writer

namespace Desk

variable {s s' : Desk} {l : Label} {g : Books} {c : TransmitCall}

/-- The steps that set the count of a write against its verdict. -/
inductive Late (c : TransmitCall) (s : Desk) : Label → Prop
  /-- A chunk confirms what is left of a write that is failing, before its count is read. -/
  | confirmed (bytes : Bytes) (wr : Writer) (hc : s.writers c = some (.ok wr)) (hf : wr.Failing s.world)
      (hopen : ∀ error, wr.phase ≠ .done error) (hleft : s.confirmed c wr.receiver < wr.batch.length)
      (hcredits : wr.batch.length ≤
        s.confirmed c wr.receiver + s.world.session.credits wr.receiver c bytes) :
      Late c s (.world (.receive bytes))
  /-- A command fails when every message of its write is confirmed. -/
  | failed (a : Action) (wr : Writer) (d : CallId) (call : Call) (hc : s.writers c = some (.ok wr))
      (ht : wr.timeout ≠ 0) (hp : wr.phase = .commanding d) (hd : s.world.calls d = some call)
      (hg : call.Fails s.world.session a) (hfull : wr.batch.length ≤ s.confirmed c wr.receiver) :
      Late c s (.act c (.act a))
  /-- The adapter refuses a message that it has confirmed, and all others with it. -/
  | refused (wr : Writer) (d : CallId) (call : Call) (response : Bytes) (error : Exception)
      (hc : s.writers c = some (.ok wr)) (ht : wr.timeout ≠ 0) (hp : wr.phase = .commanding d)
      (hd : s.world.calls d = some call) (hr : call.phase = .returned response)
      (hq : queued response = .error error) (hfull : wr.batch.length ≤ s.confirmed c wr.receiver) :
      Late c s (.act c .resume)
  /-- The wait finds the receiver stopped when every message is confirmed. -/
  | stopped (a : ReadAction) (wr : Writer) (wt : Waiter) (hc : s.writers c = some (.ok wr))
      (hp : wr.phase = .awaiting wt) (hs : (s.world.session.receivers wr.receiver).stopped ≠ 0)
      (hfull : wr.batch.length ≤ s.confirmed c wr.receiver) : Late c s (.act c (.wait a))

/-- A write of the desk is failing, and all of it is confirmed. -/
def Overtaken (c : TransmitCall) (s : Desk) : Prop :=
  ∃ wr, s.writers c = some (.ok wr) ∧ wr.Overtaken c s.world

theorem overtaken_iff {wr : Writer} (hc : s.writers c = some (.ok wr)) :
    s.Overtaken c ↔ wr.Overtaken c s.world := by
  constructor
  · rintro ⟨wr', hc', h⟩
    obtain rfl := Except.ok.inj (Option.some.inj (hc.symm.trans hc'))
    exact h
  · exact fun h => ⟨wr, hc, h⟩

/-- A command of a write takes a step. -/
theorem overtaken_act (hk : Kept s g) (hb : ∀ r, Booked (s.world.session.receivers r) (g r)) {a : Action}
    {wr : Writer} {d : CallId} (hc : s.writers c = some (.ok wr)) (hp : wr.phase = .commanding d)
    (hw : s.world.step (.act d a) = some s'.world)
    (hconfirmed : s'.confirmed c wr.receiver = s.confirmed c wr.receiver) :
    Writer.Overtaken c s'.world { wr with noted := wr.noted || (Step.act a).knows, phase := .commanding d } ↔
      wr.Overtaken c s.world ∨ Late c s (.act c (.act a)) := by
  have hst := hk.stands hc
  obtain ⟨⟨hlt, -⟩, hd, hearly⟩ := hst.commanding hp
  obtain ⟨call, t, call', hcall, hs, hw⟩ := World.step_act hw
  have hcall' : s'.world.calls d = some call' := by
    rw [hw]
    exact World.put_calls_self ..
  have hlate : Late c s (.act c (.act a)) ↔
      wr.timeout ≠ 0 ∧ call.Fails s.world.session a ∧ wr.batch.length ≤ s.confirmed c wr.receiver := by
    constructor
    · rintro (_ | ⟨_, wr', d', call₁, hc', ht, hp', hd', hg, hfull⟩)
      obtain rfl := Except.ok.inj (Option.some.inj (hc.symm.trans hc'))
      obtain rfl := WritePhase.commanding.inj (hp.symm.trans hp')
      obtain rfl := Option.some.inj (hcall.symm.trans hd')
      exact ⟨ht, hg, hfull⟩
    · rintro ⟨ht, hg, hfull⟩
      exact .failed a wr d call hc ht hp hcall hg hfull
  have hverdict : wr.verdict s.world = call.phase.failure := by simp [Writer.verdict, hp, hcall]
  have htally : wr.tally c s.world = s.confirmed c wr.receiver :=
    Writer.tally_of_open (by simp [hp])
  have hafter : Writer.Overtaken c s'.world
        { wr with noted := wr.noted || (Step.act a).knows, phase := .commanding d } ↔
      (wr.timeout ≠ 0 ∧ call'.phase.failure.isSome) ∧ wr.batch.length ≤ s.confirmed c wr.receiver := by
    simp only [Writer.Overtaken, Writer.Failing, Writer.verdict, Writer.tally, hcall', Option.bind_some]
    rw [← hconfirmed]
    rfl
  rw [hlate, hafter, Writer.Overtaken, Writer.Failing, hverdict, htally]
  by_cases hfull : wr.batch.length ≤ s.confirmed c wr.receiver
  · -- every message is confirmed, so the last one is noted
    have hnoted : wr.noted = true := by
      have hle := hk.confirmed_le hb hc
      rw [Writer.made] at hle
      split at hle
      · assumption
      · omega
    rw [Call.failure_of_step hs (hearly call hcall hnoted)]
    tauto
  · simp [hfull]

/-- A write that is about to command a message has one left. -/
theorem confirmed_lt_of_turn (hk : Kept s g) (hb : ∀ r, Booked (s.world.session.receivers r) (g r)) {wr : Writer}
    (hc : s.writers c = some (.ok wr)) (hp : wr.phase = .turn) :
    s.confirmed c wr.receiver < wr.batch.length := by
  have hat := (hk.stands hc).phase
  have hle := hk.confirmed_le hb hc
  simp only [Writer.At, hp] at hat
  simp only [Writer.made, hat.2.1] at hle
  simp at hle
  omega

/-- The wait for confirmations takes a step. -/
theorem overtaken_awaited (hk : Kept s g) {wr : Writer} {wt wt' : Waiter} {b : ReadAction}
    (hc : s.writers c = some (.ok wr)) (hp : wr.phase = .awaiting wt)
    (hs : wt.step (s.world.session.receivers wr.receiver) b = some wt')
    (hconfirmed : s'.confirmed c wr.receiver = s.confirmed c wr.receiver) :
    (wr.awaited wt').Overtaken c s'.world ↔ Late c s (.act c (.wait b)) := by
  have hat := (hk.stands hc).phase
  simp only [Writer.At, hp] at hat
  obtain ⟨ht, -, hcall, htarget, hlive⟩ := hat
  have hlate : Late c s (.act c (.wait b)) ↔ (s.world.session.receivers wr.receiver).stopped ≠ 0 ∧
      wr.batch.length ≤ s.confirmed c wr.receiver := by
    constructor
    · intro h
      cases h with
      | stopped _ wr' wt' hc' hp' hs hfull =>
          obtain rfl := Except.ok.inj (Option.some.inj (hc.symm.trans hc'))
          exact ⟨hs, hfull⟩
    · exact fun h => .stopped b wr wt hc hp h.1 h.2
  rw [hlate]
  by_cases hstopped : (s.world.session.receivers wr.receiver).stopped = 0
  · refine iff_of_false ?_ fun h => h.1 hstopped
    obtain rfl | ⟨rfl, -⟩ := wt.step_cases hs
    · exact Writer.not_overtaken rfl
    · by_cases hready : (s.world.session.receivers wr.receiver).confirmed wt.call ≥ wt.target
      · exact Writer.not_overtaken (by simp [Writer.verdict, Writer.awaited, Waiter.finish, hstopped, hready])
      · rintro ⟨-, hfull⟩
        rw [Writer.tally_of_open (by simp [Writer.awaited, Waiter.finish, hstopped, hready])] at hfull
        change wr.batch.length ≤ s'.confirmed c wr.receiver at hfull
        rw [hconfirmed] at hfull
        rw [hcall, htarget] at hready
        exact hready hfull
  · have hthrew := (wt.step_stopped hstopped hlive).2 b wt' hs
    rw [and_iff_right hstopped]
    have hverdict : (wr.awaited wt').verdict s'.world = some (.Error
        (s.world.session.receivers wr.receiver).stopped (s.world.session.receivers wr.receiver).reason) := by
      simp only [Writer.verdict, Writer.awaited, hthrew]
    refine Writer.overtaken_of_fails ht (wr.extends_phase _) hverdict ?_ hconfirmed
    simp [Writer.awaited, hthrew]

/-- A chunk adds to the count of a write what it credits to it. -/
theorem confirmed_receive (hs : ∀ r, (s.world.session.receivers r).Proper)
    (hb : ∀ r, Booked (s.world.session.receivers r) (g r)) {bytes : Bytes}
    (h : s.step (.world (.receive bytes)) = some s') (r : ReceiverRef) :
    s'.confirmed c r = s.confirmed c r + s.world.session.credits r c bytes := by
  obtain ⟨k, hl, -, hw, -⟩ | ⟨_, _, _, _, _, hl, -⟩ | ⟨_, _, _, _, hl, -⟩ := step_cases h
  · cases hl
    exact World.confirmed_receive hs hb hw r c
  · cases hl
  · cases hl

/-- Else the thread of a write is late only where its command is over, or it waits. -/
theorem not_late {a : WriteAction} (hact : ∀ b, a ≠ .act b) (hresume : a ≠ .resume) (hwait : ∀ b, a ≠ .wait b) :
    ¬ Late c s (.act c a) := by
  intro h
  cases h with
  | failed b => exact hact b rfl
  | refused => exact hresume rfl
  | stopped b => exact hwait b rfl

/-- When it is late once its command is over. -/
theorem late_resume_iff {wr : Writer} {d : CallId} {call : Call} (hc : s.writers c = some (.ok wr))
    (hp : wr.phase = .commanding d) (hd : s.world.calls d = some call) :
    Late c s (.act c .resume) ↔ wr.timeout ≠ 0 ∧
      (∃ response error, call.phase = .returned response ∧ queued response = .error error) ∧
        wr.batch.length ≤ s.confirmed c wr.receiver := by
  constructor
  · intro h
    cases h with
    | refused wr' d' call' response error hc' ht hp' hd' hr hq hfull =>
        obtain rfl := Except.ok.inj (Option.some.inj (hc.symm.trans hc'))
        obtain rfl := WritePhase.commanding.inj (hp.symm.trans hp')
        obtain rfl := Option.some.inj (hd.symm.trans hd')
        exact ⟨ht, ⟨response, error, hr, hq⟩, hfull⟩
  · rintro ⟨ht, ⟨response, error, hr, hq⟩, hfull⟩
    exact .refused wr d call response error hc ht hp hd hr hq hfull

/-- The write takes any other step. -/
theorem overtaken_went (hk : Kept s g) (hb : ∀ r, Booked (s.world.session.receivers r) (g r))
    {a : WriteAction} {wr wr' : Writer} (hc : s.writers c = some (.ok wr)) (hgo : wr.Went c s.world a wr')
    (hact : ∀ b, a ≠ .act b) (hconfirmed : s'.confirmed c wr.receiver = s.confirmed c wr.receiver) :
    wr'.Overtaken c s'.world ↔ wr.Overtaken c s.world ∨ Late c s (.act c a) := by
  have hlt := confirmed_lt_of_turn hk hb hc
  cases hgo with
  | late before_send hp ht =>
      rw [or_iff_left (not_late (by simp) (by simp) (by simp))]
      refine iff_of_false ?_ (Writer.not_overtaken (by simp [Writer.verdict, hp]))
      obtain ⟨hv, hopen⟩ := Writer.verdict_conclude (w := s'.world) ht
        (.Error ERR_TIMEOUT "write deadline expired")
      rw [Writer.overtaken_of_fails ht (by simpa [Writer.conclude, ht] using wr.extends_phase _) hv hopen
        hconfirmed]
      exact Nat.not_le.mpr (hlt hp)
  | command before_send d now hp hi =>
      rw [or_iff_left (not_late (by simp) (by simp) (by simp))]
      refine iff_of_false ?_ (Writer.not_overtaken (by simp [Writer.verdict, hp]))
      rintro ⟨-, hfull⟩
      rw [Writer.tally_of_open (by simp)] at hfull
      exact Nat.not_le.mpr (hlt hp) (hconfirmed ▸ hfull)
  | act b d hp => exact absurd rfl (hact b)
  | accepted d call response hp hcall hr hq =>
      refine iff_of_false (Writer.not_overtaken ?_) ?_
      · simp only [Writer.verdict, Writer.proceed]
        split_ifs <;> rfl
      · rw [late_resume_iff hc hp hcall]
        rintro (hover | ⟨-, ⟨_, error, hr', hq'⟩, -⟩)
        · exact Writer.not_overtaken (by simp [Writer.verdict, hp, hcall, hr, Phase.failure]) hover
        · cases hr.symm.trans hr'
          cases hq.symm.trans hq'
  | refused d call response error hp hcall hr hq =>
      have hbefore : ¬ wr.Overtaken c s.world :=
        Writer.not_overtaken (by simp [Writer.verdict, hp, hcall, hr, Phase.failure])
      rw [or_iff_right hbefore, late_resume_iff hc hp hcall]
      obtain ⟨p, hp'⟩ := wr.fail_eq error
      by_cases ht : wr.timeout = 0
      · rw [hp']
        simp [Writer.Overtaken, Writer.Failing, ht]
      · obtain ⟨hv, hopen⟩ := Writer.verdict_fail (w := s'.world) ht error
        rw [Writer.overtaken_of_fails ht (hp' ▸ wr.extends_phase p) hv hopen hconfirmed]
        exact ⟨fun hfull => ⟨ht, ⟨response, error, hr, hq⟩, hfull⟩, fun h => h.2.2⟩
  | threw d call error hp hcall ht =>
      have hlate : ¬ Late c s (.act c .resume) := by
        rw [late_resume_iff hc hp hcall]
        rintro ⟨-, ⟨_, _, hr, -⟩, -⟩
        cases ht.symm.trans hr
      rw [or_iff_left hlate]
      refine Writer.overtaken_congr (wr.extends_phase _) ?_ (by simp [hp]) (by simp) hconfirmed
      simp [Writer.verdict, hp, hcall, ht, Phase.failure]
  | usable error hp | stop error hp =>
      rw [or_iff_left (not_late (by simp) (by simp) (by simp))]
      obtain ⟨p, hp'⟩ := wr.fail_eq error
      by_cases ht : wr.timeout = 0
      · rw [hp']
        simp [Writer.Overtaken, Writer.Failing, ht]
      · obtain ⟨hv, hopen⟩ := Writer.verdict_fail (w := s'.world) ht error
        refine Writer.overtaken_congr (hp' ▸ wr.extends_phase p) ?_ (by simp [hp]) (fun _ => hopen) hconfirmed
        rw [hv]
        simp [Writer.verdict, hp]
  | unusable error hp =>
      rw [or_iff_left (not_late (by simp) (by simp) (by simp))]
      refine Writer.overtaken_congr (wr.extends_phase _) ?_ (by simp [hp]) (by simp) hconfirmed
      simp [Writer.verdict, hp]
  | forget error hp =>
      rw [or_iff_left (not_late (by simp) (by simp) (by simp))]
      by_cases ht : wr.timeout = 0
      · simp [Writer.Overtaken, Writer.Failing, Writer.conclude, ht]
      · obtain ⟨hv, hopen⟩ := Writer.verdict_conclude (w := s'.world) ht error
        refine Writer.overtaken_congr (wr.extends_phase _) ?_ (by simp [hp]) (fun _ => hopen) hconfirmed
        rw [hv]
        simp [Writer.verdict, hp]
  | wait b wt wt' hp hs =>
      rw [or_iff_right (Writer.not_overtaken (by simp [Writer.verdict, hp]))]
      exact overtaken_awaited hk hc hp hs hconfirmed
  | report error hp =>
      rw [or_iff_left (not_late (by simp) (by simp) (by simp))]
      have htally : wr.tally c s.world = s.confirmed c wr.receiver := Writer.tally_of_open (by simp [hp])
      simp only [Writer.Overtaken, Writer.Failing, htally]
      simp only [Writer.verdict, hp, Writer.tally]
      rfl

/-- Another thread takes a step. -/
theorem overtaken_of_other (hk : Kept s g) (hs : ∀ r, (s.world.session.receivers r).Proper)
    (hb : ∀ r, Booked (s.world.session.receivers r) (g r))
    (hb' : ∀ r, Booked (s'.world.session.receivers r) (s.book l s' g r)) (h : s.step l = some s')
    {wr : Writer} (hc : s.writers c = some (.ok wr)) (hl : ∀ a, l ≠ .act c a) :
    wr.Overtaken c s'.world ↔ wr.Overtaken c s.world ∨ Late c s l := by
  have hverdict : wr.verdict s'.world = wr.verdict s.world := by
    unfold Writer.verdict
    cases hp : wr.phase with
    | commanding d =>
        have hst := hk.stands hc
        obtain ⟨call, hd, hsends, -⟩ := hst.calls _ _ (hst.commanding hp).2.1
        simp only [hd, hk.calls_of_other h hl hd hsends.of]
    | _ => rfl
  have hfailing : wr.Failing s'.world ↔ wr.Failing s.world := by
    rw [Writer.Failing, Writer.Failing, hverdict]
  rw [Writer.Overtaken, Writer.Overtaken, hfailing]
  by_cases hopen : ∀ error, wr.phase ≠ .done error
  · rw [Writer.tally_of_open hopen, Writer.tally_of_open hopen]
    change wr.Failing s.world ∧ wr.batch.length ≤ s'.confirmed c wr.receiver ↔
      wr.Failing s.world ∧ wr.batch.length ≤ s.confirmed c wr.receiver ∨ _
    by_cases hbytes : ∃ bytes, l = .world (.receive bytes)
    · obtain ⟨bytes, rfl⟩ := hbytes
      rw [confirmed_receive hs hb h]
      constructor
      · rintro ⟨hf, hfull⟩
        by_cases hbefore : wr.batch.length ≤ s.confirmed c wr.receiver
        · exact .inl ⟨hf, hbefore⟩
        · exact .inr (.confirmed bytes wr hc hf hopen (by omega) hfull)
      · rintro (⟨hf, hfull⟩ | hlate)
        · exact ⟨hf, Nat.le_add_right_of_le hfull⟩
        · cases hlate with
          | confirmed _ wr' hc' hf _ _ hcredits =>
              obtain rfl := Except.ok.inj (Option.some.inj (hc.symm.trans hc'))
              exact ⟨hf, hcredits⟩
    · rw [confirmed_of_ne hb hb' h fun bytes hx => hbytes ⟨bytes, hx⟩, or_iff_left]
      intro hlate
      cases hlate with
      | confirmed bytes => exact hbytes ⟨bytes, rfl⟩
      | failed | refused | stopped => exact hl _ rfl
  · obtain ⟨error, hp⟩ : ∃ error, wr.phase = .done error := by simpa using hopen
    have htally (w : World) : wr.tally c w = wr.count := by simp [Writer.tally, hp]
    rw [htally, htally, or_iff_left]
    intro hlate
    cases hlate with
    | confirmed bytes wr' hc' _ hopen' =>
        obtain rfl := Except.ok.inj (Option.some.inj (hc.symm.trans hc'))
        exact hopen' error hp
    | failed | refused | stopped => exact hl _ rfl

/-- **A write is overtaken by the steps that are late, and by no others.** -/
theorem overtaken_step (hk : Kept s g) (hs : ∀ r, (s.world.session.receivers r).Proper)
    (hb : ∀ r, Booked (s.world.session.receivers r) (g r))
    (hb' : ∀ r, Booked (s'.world.session.receivers r) (s.book l s' g r)) (h : s.step l = some s') :
    s'.Overtaken c ↔ s.Overtaken c ∨ Late c s l := by
  by_cases hwr : ∃ wr, s.writers c = some (.ok wr)
  · obtain ⟨wr, hc⟩ := hwr
    obtain ⟨wr', hc', -⟩ := extends_of_step h hc
    rw [overtaken_iff hc, overtaken_iff hc']
    obtain ⟨hsame, hl⟩ | ⟨_, _, _, _, -, -, hnone, -⟩ | ⟨a, wr₁, rfl, hc₁, hgo, hworld⟩ := writers_of_step h hc'
    · obtain rfl := Except.ok.inj (Option.some.inj (hc.symm.trans hsame))
      exact overtaken_of_other hk hs hb hb' h hc hl
    · rw [hc] at hnone
      cases hnone
    · obtain rfl := Except.ok.inj (Option.some.inj (hc.symm.trans hc₁))
      have hconfirmed := confirmed_of_ne (c := c) hb hb' h (fun _ => Label.noConfusion) wr.receiver
      by_cases hact : ∀ b, a ≠ .act b
      · exact overtaken_went hk hb hc hgo hact hconfirmed
      · obtain ⟨b, rfl⟩ : ∃ b, a = .act b := by simpa using hact
        cases hgo with
        | act _ d hp =>
            obtain ⟨k, hlabel, hw⟩ | ⟨hlabel, -⟩ := hworld
            · simp only [Writer.label, hp, Option.some.injEq] at hlabel
              subst hlabel
              exact overtaken_act hk hb hc hp hw hconfirmed
            · simp [Writer.label, hp] at hlabel
  · refine iff_of_false ?_ ?_
    · rintro ⟨wr', hc', hover⟩
      obtain ⟨hsame, -⟩ | ⟨ch, messages, timeout, now, -, -, -, hok⟩ | ⟨a, wr, -, hc, -⟩ := writers_of_step h hc'
      · exact hwr ⟨wr', hsame⟩
      · obtain ⟨r, payloads, -, -, -, -, rfl⟩ := Channel.write_ok hok
        exact Writer.not_overtaken rfl hover
      · exact hwr ⟨wr, hc⟩
    · rintro (⟨wr, hc, -⟩ | hlate)
      · exact hwr ⟨wr, hc⟩
      · cases hlate with
        | confirmed _ wr hc | failed _ wr _ _ hc | refused wr _ _ _ _ hc | stopped _ wr _ hc =>
            exact hwr ⟨wr, hc⟩

theorem overtaken_run {protocol : ReceiverRef → UInt32} {ls : List Label}
    (hrun : Run.run step (opened protocol) ls = some s) :
    Run.Along step (fun m l _ => ¬ Late c m l) (opened protocol) ls ↔ ¬ s.Overtaken c := by
  refine Run.run_induction (P := fun ls s => Run.Along step (fun m l _ => ¬ Late c m l) (opened protocol) ls ↔
    ¬ s.Overtaken c) ?_ ?_ hrun
  · refine iff_of_true Run.along_nil ?_
    rintro ⟨wr, hc, -⟩
    cases hc
  · intro ls m l t hm ih hstep
    obtain ⟨g, hg⟩ := Run.exists_recording book hm fun _ => {}
    have hg' := Run.run_concat hg (Run.recording_eq_some_iff.mpr ⟨hstep, rfl⟩)
    rw [Run.along_concat_iff hm hstep, ih, overtaken_step (kept_run hg) (books_run hg).1 (books_run hg).2
      (books_run hg').2 hstep, not_or]

/-- **When a timed write that fails counts fewer messages than it was given**, and one that
counts them all succeeds.  It does so exactly when no step of the run is late for it. -/
theorem timeout_short_iff {protocol : ReceiverRef → UInt32} {ls ks : List Label} {ch : Channel}
    {messages : List PASSTHRU_MSG} {timeout : UInt32} {now : Int} {error : Option Exception} {count : Nat}
    (hrun : Run.run step (opened protocol) (ls ++ .write c ch messages timeout now :: ks) = some s)
    (ht : timeout ≠ 0) (hpos : messages ≠ []) (hdone : s.returned c = some (error, count)) :
    ((guarded error = ERR_TIMEOUT → count < messages.length) ∧ (messages.length ≤ count → error = none)) ↔
      Run.Along step (fun m l _ => ¬ Late c m l) (opened protocol)
        (ls ++ .write c ch messages timeout now :: ks) := by
  rw [overtaken_run hrun]
  have hlen_pos : 0 < messages.length := List.length_pos_iff.mpr hpos
  obtain ⟨e, hwrite, hc⟩ | ⟨wr, wr', hwrite, hc, hext⟩ := writer_of_run hrun
  · simp only [returned, hc, Option.some.injEq, Prod.mk.injEq] at hdone
    obtain ⟨rfl, rfl⟩ := hdone
    refine iff_of_true ⟨fun _ => hlen_pos, fun h => absurd h (by omega)⟩ ?_
    rintro ⟨wr, hc', -⟩
    rw [hc] at hc'
    cases hc'
  · obtain ⟨r, payloads, -, -, -, hpayloads, rfl⟩ := Channel.write_ok hwrite
    have hlen : wr'.batch.length = messages.length := by
      have hsame := (encode_write_batch_ok.mp hpayloads).length_eq
      rw [hext.batch]
      simp [hsame]
    rw [overtaken_iff hc]
    cases hp : wr'.phase with
    | done e =>
        simp only [returned, hc, hp, Option.some.injEq, Prod.mk.injEq] at hdone
        obtain ⟨rfl, rfl⟩ := hdone
        have hover : wr'.Overtaken c s.world ↔ e.isSome ∧ messages.length ≤ wr'.count := by
          simp [Writer.Overtaken, Writer.Failing, Writer.verdict, Writer.tally, hp, hext.timeout, ht, hlen]
        rw [hover]
        cases e with
        | none => exact iff_of_true ⟨fun h => absurd h (by decide), fun _ => rfl⟩ (by simp)
        | some e =>
            constructor
            · rintro ⟨-, hall⟩ ⟨-, hle⟩
              cases hall hle
            · intro hnot
              have hlt : wr'.count < messages.length := Nat.lt_of_not_le fun hle => hnot ⟨rfl, hle⟩
              exact ⟨fun _ => hlt, fun hle => absurd hle (Nat.not_le.mpr hlt)⟩
    | _ => simp [returned, hc, hp] at hdone

/-- A body in its frame. -/
def framed (body : Bytes) : Bytes := (encode body).toOption.getD []

/-- One message that is written in 100 ms and accepted, and the wait for its confirmation. -/
def request : PASSTHRU_MSG :=
  { ProtocolID := CAN, DataSize := 5, Data := dataField [0, 0, 7, 0xe0, 1], length_Data := length_dataField _ }

def installed : List Label := [.world (.set_can_receiver (some 0))]

def requested : Label := .write 0 { protocol := CAN, receiver := some 0 } [request] 100 0

def awaited : List Label :=
  [.act 0 (.command 0 0 0), .act 0 (.act .slot), .act 0 (.act (.start 0)), .act 0 (.act .known),
    .act 0 (.act (.budget 0)), .act 0 (.act .send), .act 0 (.act .sendReturns),
    .world (.receive (framed [0, 0, 1, 5, 8, 0x80, 1, 0, 0, 0, 0, 0, 0, 0, 0, 0, 0, 0, 0, 0])),
    .act 0 (.act .wake), .act 0 .resume, .act 0 (.wait .lock), .act 0 (.wait (.expire 100000000))]

/-- The confirmation of the message. -/
def confirmation : Label :=
  .world (.receive (framed [0, 0, 1, 5, 10, 0, 1, 0, 0, 0, 0, 0, 6, 1, 0, 0, 9, 0, 0, 0]))

/-- The deadline passes, the confirmation arrives, and the count is read: the write reports a timeout
with its one message confirmed. -/
theorem timeout_not_short :
    ∃ s error, Run.run step (opened fun _ => CAN) (installed ++ requested :: (awaited ++ [confirmation, .act 0 .report]))
      = some s ∧ s.returned 0 = some (error, [request].length) ∧ guarded error = ERR_TIMEOUT := by
  have hdone : (Run.run step (opened fun _ => CAN) (installed ++ requested :: (awaited ++
      [confirmation, .act 0 .report]))).bind (returned · 0) =
        some (some (.Error ERR_TIMEOUT "adapter did not confirm transmission of every message"), 1) := by
    decide +kernel
  obtain ⟨s, hrun, hs⟩ := Option.bind_eq_some_iff.mp hdone
  exact ⟨s, _, hrun, hs, rfl⟩

/-- No step is late without the confirmation, nor with it before the wait. -/
theorem timeout_short_iff_unconfirmed :
    Run.Along step (fun m l _ => ¬ Late 0 m l) (opened fun _ => CAN)
        (installed ++ requested :: (awaited ++ [.act 0 .report])) ∧
      Run.Along step (fun m l _ => ¬ Late 0 m l) (opened fun _ => CAN)
        (installed ++ requested :: (awaited.take 10 ++ [confirmation, .act 0 (.wait .lock), .act 0 .report])) := by
  have hshort : (Run.run step (opened fun _ => CAN) (installed ++ requested :: (awaited ++
      [.act 0 .report]))).bind (returned · 0) =
        some (some (.Error ERR_TIMEOUT "adapter did not confirm transmission of every message"), 0) := by
    decide +kernel
  have hall : (Run.run step (opened fun _ => CAN) (installed ++ requested :: (awaited.take 10 ++
      [confirmation, .act 0 (.wait .lock), .act 0 .report]))).bind (returned · 0) = some (none, 1) := by
    decide +kernel
  obtain ⟨s, hrun, hs⟩ := Option.bind_eq_some_iff.mp hshort
  obtain ⟨t, hrun', ht⟩ := Option.bind_eq_some_iff.mp hall
  exact ⟨(timeout_short_iff hrun (by decide) (by simp) hs).mp ⟨fun _ => by decide, by decide⟩,
    (timeout_short_iff hrun' (by decide) (by simp) ht).mp ⟨by decide, fun _ => rfl⟩⟩

end Desk

end Mongoose
