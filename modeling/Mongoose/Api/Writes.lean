import Mongoose.Api.Writers

/-!
# Mongoose.Api.Writes

What holds of every write, whatever else goes on.

`Stands` says of a write, at each of its phases, how far it has come, what its commands are
for and what became of them.  `Kept` says it of all writes of a desk, and that the books
have entries of a write only for messages it has commanded, in their order.
-/

namespace Mongoose

/-! ## calls of writes -/

/-- A command that is called for a write. -/
def Command.of (cmd : Command) (c : TransmitCall) : Prop :=
  ∃ record, cmd.sequence_known = some record ∧ record.call = some c

/-- A call that has not made its sequence known. -/
def Phase.Early : Phase → Prop
  | .slot | .started | .allocated => True
  | _ => False

/-- The adapter has taken the message of a call. -/
def Call.Accepted (call : Call) : Prop := ∃ response, call.phase = .returned response ∧ queued response = .ok ()

/-- The call is over, and the adapter has not taken its message, as far as the host knows. -/
def Call.Lost (call : Call) : Prop := call.phase.Ended ∧ ¬ call.Accepted

section calls

variable {c : CallId} {s s' : Session} {call call' : Call} {a : Action}

/-- An accepted command has ended. -/
theorem Call.Accepted.ended (h : call.Accepted) : call.phase.Ended := by
  obtain ⟨response, hr, -⟩ := h
  rw [hr]
  trivial

/-- A call that is over takes no step. -/
theorem Took.not_ended (h : Took c s call a s' call') : ¬ call.phase.Ended := by
  cases h <;> simp_all [Phase.Ended]

/-- Once it has made its sequence known, a call does not do so again. -/
theorem Took.not_early (h : Took c s call a s' call') (he : ¬ call.phase.Early ∨ a = .known) :
    ¬ call'.phase.Early ∧ (¬ call.phase.Early → a ≠ .known) := by
  cases h <;> simp_all [Phase.Early, Call.goto]

/-- A call is about its command for good. -/
theorem Call.command_enter (cmd : Command) (now : Int) : (Call.enter cmd now).command = cmd := by
  rw [Call.enter]
  split <;> rfl

end calls

/-! ## a write -/

namespace Writer

/-- A command is that for the message at an index. -/
def Sends (wr : Writer) (c : TransmitCall) (i : Nat) (cmd : Command) : Prop :=
  ∃ x before_send, wr.batch[i]? = some x ∧ cmd = wr.command c x.1 x.2 before_send

/-- How many of its messages have been noted, at most. -/
def made (wr : Writer) : Nat := wr.index + if wr.noted then 1 else 0

/-- It has commanded a message that the adapter has not taken. -/
def Behind (wr : Writer) : Prop := wr.index < wr.batch.length ∧ wr.commands.length = wr.index + 1

/-- What holds at a phase. -/
def At (c : TransmitCall) (w : World) (wr : Writer) : Prop :=
  match wr.phase with
  | .turn => wr.index < wr.batch.length ∧ wr.noted = false ∧ wr.commands.length = wr.index
  | .commanding d =>
      wr.index < wr.batch.length ∧ wr.commands[wr.index]? = some d ∧
        ∀ call, w.calls d = some call → wr.noted = true → ¬ call.phase.Early
  | .threw _ | .uncertain _ | .failing _ => wr.Behind
  | .awaiting wt =>
      wr.timeout ≠ 0 ∧ wr.index = wr.batch.length ∧ wt.call = c ∧ wt.target = wr.batch.length ∧
        (wt.phase = .entered ∨ wt.phase = .waiting)
  | .counting none => wr.timeout ≠ 0 ∧ wr.index = wr.batch.length
  | .counting (some _) => wr.timeout ≠ 0
  | .done none => wr.index = wr.batch.length
  | .done (some _) => wr.timeout = 0 → wr.Behind

/-- What holds of a write. -/
structure Stands (c : TransmitCall) (w : World) (wr : Writer) : Prop where
  noted : wr.noted = true → wr.index < wr.batch.length
  length : wr.index ≤ wr.commands.length ∧ wr.commands.length ≤ wr.index + 1 ∧
    wr.commands.length ≤ wr.batch.length
  distinct : wr.commands.Nodup
  /-- Its commands, in the order of their messages: each but the last was accepted. -/
  calls : ∀ i d, wr.commands[i]? = some d → ∃ call, w.calls d = some call ∧ wr.Sends c i call.command ∧
    (i < wr.index → call.Accepted) ∧ (i = wr.index → wr.phase = .commanding d ∨ call.Lost)
  count : wr.timeout = 0 → wr.count = wr.index
  phase : wr.At c w

variable {c : TransmitCall} {w w' : World} {wr wr' : Writer} {a : WriteAction}

/-- A command of the batch is one of the call. -/
theorem Sends.of {i : Nat} {cmd : Command} (h : wr.Sends c i cmd) : cmd.of c := by
  obtain ⟨x, before_send, -, rfl⟩ := h
  exact ⟨_, rfl, rfl⟩

/-- A write that is called stands at its first message. -/
theorem stands_write {ch : Channel} {messages : List PASSTHRU_MSG} {timeout : UInt32} {now : Int}
    (h : ch.write messages timeout now = .ok wr) : wr.Stands c w := by
  obtain ⟨r, payloads, -, hpos, -, hpayloads, rfl⟩ := Channel.write_ok h
  have hlen := (encode_write_batch_ok.mp hpayloads).length_eq
  refine ⟨nofun, ⟨Nat.le_refl _, Nat.le_succ _, Nat.zero_le _⟩, .nil, nofun, fun _ => rfl, ?_, rfl, rfl⟩
  simp
  omega

/-- No more commands were made than the batch has messages. -/
theorem Stands.made_le (h : wr.Stands c w) : wr.made ≤ wr.batch.length := by
  have hlen := h.length
  have hnoted := h.noted
  unfold made
  cases hn : wr.noted with
  | true => exact hnoted hn
  | false => exact Nat.le_trans hlen.1 hlen.2.2

/-- The calls of a write are what it depends on. -/
theorem Stands.congr (h : wr.Stands c w)
    (hcalls : ∀ d call, w.calls d = some call → call.command.of c → w'.calls d = some call) :
    wr.Stands c w' where
  noted := h.noted
  length := h.length
  distinct := h.distinct
  calls i d hd := by
    obtain ⟨call, hc, hsends, hrest⟩ := h.calls i d hd
    exact ⟨call, hcalls d call hc hsends.of, hsends, hrest⟩
  count := h.count
  phase := by
    have hat := h.phase
    unfold At at hat ⊢
    cases hp : wr.phase with
    | commanding d =>
        simp only [hp] at hat ⊢
        obtain ⟨call, hc, hsends, -⟩ := h.calls wr.index d hat.2.1
        refine ⟨hat.1, hat.2.1, fun call' hc' => ?_⟩
        obtain rfl := Option.some.inj ((hcalls d call hc hsends.of).symm.trans hc')
        exact hat.2.2 call hc
    | counting error | done error => cases error <;> simpa [hp] using hat
    | _ => simpa [hp] using hat

/-- A write that is not inside a command goes on, or over. -/
theorem Stands.goto (h : wr.Stands c w) (hp : ∀ d, wr.phase ≠ .commanding d) {p : WritePhase}
    (hat : At c w { wr with phase := p }) : Stands c w { wr with phase := p } where
  noted := h.noted
  length := h.length
  distinct := h.distinct
  calls i d hd := by
    obtain ⟨call, hc, hsends, haccepted, hlost⟩ := h.calls i d hd
    exact ⟨call, hc, hsends, haccepted, fun hi => .inr ((hlost hi).resolve_left (hp d))⟩
  count := h.count
  phase := hat

/-- The command of a message is over, and the message is lost. -/
theorem Stands.over (h : wr.Stands c w) {d : CallId} {call : Call} (hp : wr.phase = .commanding d)
    (hc : w.calls d = some call) (hlost : call.Lost) {p : WritePhase}
    (hat : At c w { wr with phase := p }) : Stands c w { wr with phase := p } where
  noted := h.noted
  length := h.length
  distinct := h.distinct
  calls i e he := by
    obtain ⟨call', hc', hsends, haccepted, -⟩ := h.calls i e he
    refine ⟨call', hc', hsends, haccepted, fun hi => .inr ?_⟩
    have hat := h.phase
    simp only [At, hp] at hat
    obtain rfl : d = e := Option.some.inj (hat.2.1.symm.trans (hi ▸ he))
    obtain rfl := Option.some.inj (hc.symm.trans hc')
    exact hlost
  count := h.count
  phase := hat

/-- While a command runs, those before it were accepted. -/
theorem Stands.commanding (h : wr.Stands c w) {d : CallId} (hp : wr.phase = .commanding d) :
    wr.Behind ∧ wr.commands[wr.index]? = some d ∧
      ∀ call, w.calls d = some call → wr.noted = true → ¬ call.phase.Early := by
  have hat := h.phase
  have hlen := h.length
  simp only [At, hp] at hat
  have hlt := (List.getElem?_eq_some_iff.mp hat.2.1).1
  exact ⟨⟨hat.1, by omega⟩, hat.2⟩

/-- A call that fails stands where it says how many were accepted. -/
theorem at_conclude (error : Exception) (h : wr.timeout = 0 → wr.Behind) :
    At c w (wr.conclude (some error)) := by
  by_cases ht : wr.timeout = 0
  · simpa [At, conclude, ht, Behind] using h ht
  · simp [At, conclude, ht]

/-- So does one that fails half-way. -/
theorem at_fail (error : Exception) (h : wr.Behind) : At c w (wr.fail error) := by
  unfold fail
  split
  · exact h
  · exact at_conclude error fun _ => h

/-- How a message fails, it changes the phase alone. -/
theorem fail_eq (wr : Writer) (error : Exception) : ∃ p, wr.fail error = { wr with phase := p } := by
  unfold fail conclude
  split <;> exact ⟨_, rfl⟩

/-- The message of a command is accepted. -/
theorem Stands.proceed (h : wr.Stands c w) {d : CallId} {call : Call} (hp : wr.phase = .commanding d)
    (hc : w.calls d = some call) (haccepted : call.Accepted) : (wr.proceed c).Stands c w := by
  obtain ⟨⟨hlt, hlen⟩, hd, -⟩ := h.commanding hp
  have hle := h.length
  refine ⟨nofun, ⟨?_, ?_, hle.2.2⟩, h.distinct, fun i e he => ?_, fun ht => ?_, ?_⟩
  · show wr.index + 1 ≤ wr.commands.length
    omega
  · show wr.commands.length ≤ wr.index + 1 + 1
    omega
  · have hi := (List.getElem?_eq_some_iff.mp he).1
    change i < wr.commands.length at hi
    obtain ⟨call', hc', hsends, hbefore, -⟩ := h.calls i e he
    refine ⟨call', hc', hsends, fun hi' => ?_, fun hi' => absurd hi' (show i ≠ wr.index + 1 by omega)⟩
    by_cases heq : i = wr.index
    · obtain rfl : d = e := Option.some.inj (hd.symm.trans (heq ▸ he))
      obtain rfl := Option.some.inj (hc.symm.trans hc')
      exact haccepted
    · change i < wr.index + 1 at hi'
      exact hbefore (by omega)
  · exact if_pos ht
  · unfold At Writer.proceed
    by_cases hnext : wr.index + 1 < wr.batch.length
    · simp [hnext, hlen]
    · by_cases ht : wr.timeout = 0
      · simp only [if_neg hnext, if_pos ht]
        omega
      · simp only [if_neg hnext, if_neg ht]
        exact ⟨ht, by omega, trivial, trivial, .inl trivial⟩

/-- The next message is commanded. -/
theorem Stands.command (h : wr.Stands c w) (hp : wr.phase = .turn) {d : CallId} {before_send now : Int}
    {x : PASSTHRU_MSG × Bytes} (hx : wr.batch[wr.index]? = some x)
    (hw : w.step (.enter d (wr.command c x.1 x.2 before_send) now) = some w') :
    Stands c w' { wr with commands := wr.commands ++ [d], phase := .commanding d } := by
  have hat := h.phase
  simp only [At, hp] at hat
  obtain ⟨hlt, hnoted, hlen⟩ := hat
  obtain ⟨hnone, hw⟩ := Option.ite_none_right_eq_some.mp hw
  have hnone := Option.isNone_iff_eq_none.mp hnone
  obtain rfl := Option.some.inj hw
  have hlast : (wr.commands ++ [d])[wr.index]? = some d := by rw [← hlen, List.getElem?_concat_length]
  refine ⟨h.noted, ⟨?_, ?_, ?_⟩, ?_, fun i e he => ?_, h.count, ?_⟩
  · simp
    omega
  · simp
    omega
  · simp
    omega
  · show (wr.commands ++ [d]).Nodup
    rw [← List.concat_eq_append]
    refine List.Nodup.concat (fun hmem => ?_) h.distinct
    obtain ⟨i, hi⟩ := List.getElem?_of_mem hmem
    obtain ⟨call, hc, -⟩ := h.calls i d hi
    rw [hnone] at hc
    cases hc
  · by_cases hi : i = wr.index
    · obtain rfl : d = e := Option.some.inj (hlast.symm.trans (hi ▸ he))
      refine ⟨_, World.put_calls_self .., ?_, fun hi' => absurd hi' (by simp [hi]), fun _ => .inl rfl⟩
      rw [Call.command_enter, hi]
      exact ⟨x, before_send, hx, rfl⟩
    · have hi' : i < wr.commands.length := by
        have := (List.getElem?_eq_some_iff.mp he).1
        simp only [List.length_append, List.length_singleton] at this
        omega
      rw [List.getElem?_append_left hi'] at he
      obtain ⟨call, hc, hsends, haccepted, -⟩ := h.calls i e he
      refine ⟨call, ?_, hsends, haccepted, fun heq => absurd heq hi⟩
      rw [World.put_calls_of_ne]
      · exact hc
      · rintro rfl
        rw [hnone] at hc
        cases hc
  · refine ⟨hlt, hlast, fun call _ hn => ?_⟩
    simp [hnoted] at hn

/-- A command takes a step. -/
theorem Stands.act (h : wr.Stands c w) {d : CallId} {a : Action} (hp : wr.phase = .commanding d)
    (hw : w.step (.act d a) = some w') :
    Stands c w' { wr with noted := wr.noted || (Step.act a).knows, phase := .commanding d } := by
  obtain ⟨⟨hlt, hlen⟩, hd, hearly⟩ := h.commanding hp
  obtain ⟨call, s, call', hc, hs, rfl⟩ := World.step_act hw
  have ht := took_of_step hs
  refine ⟨fun _ => hlt, h.length, h.distinct, fun i e he => ?_, h.count, hlt, hd, fun call₂ hc₂ hn => ?_⟩
  · obtain ⟨call₁, hc₁, hsends, haccepted, -⟩ := h.calls i e he
    have hphase : i = wr.index → d = e := fun hi => Option.some.inj (hd.symm.trans (hi ▸ he))
    by_cases hed : e = d
    · subst hed
      obtain rfl := Option.some.inj (hc.symm.trans hc₁)
      exact ⟨call', World.put_calls_self .., ht.command_eq ▸ hsends,
        fun hi => absurd (haccepted hi).ended ht.not_ended, fun _ => .inl rfl⟩
    · exact ⟨call₁, (World.put_calls_of_ne _ _ _ hed).trans hc₁, hsends, haccepted,
        fun hi => absurd (hphase hi).symm hed⟩
  · obtain rfl := Option.some.inj ((World.put_calls_self ..).symm.trans hc₂)
    refine (ht.not_early ?_).1
    cases hnoted : wr.noted with
    | true => exact .inl (hearly call hc hnoted)
    | false =>
        right
        rw [hnoted] at hn
        cases a <;> first | rfl | cases hn

/-- The wait for confirmations takes a step. -/
theorem Stands.wait (h : wr.Stands c w) {a : ReadAction} {wt wt' : Waiter} {r : CanReceiver}
    (hp : wr.phase = .awaiting wt) (hs : wt.step r a = some wt') : (wr.awaited wt').Stands c w := by
  have hat := h.phase
  simp only [At, hp] at hat
  obtain ⟨htimeout, hlen, hcall, htarget, hphase⟩ := hat
  refine h.goto (by simp [hp]) ?_
  obtain rfl | ⟨rfl, -⟩ := wt.step_cases hs
  · exact ⟨htimeout, hlen, hcall, htarget, .inr rfl⟩
  · unfold At
    by_cases hstopped : r.stopped ≠ 0
    · simp [Waiter.finish, hstopped, htimeout]
    · by_cases hc : r.confirmed wt.call ≥ wt.target <;> simp [Waiter.finish, hstopped, hc, htimeout, hlen]

/-- A failure outside a command makes none. -/
theorem Stands.failed (h : wr.Stands c w) (hp : ∀ d, wr.phase ≠ .commanding d) (error : Exception)
    (hb : wr.Behind) : (wr.fail error).Stands c w := by
  have hat := at_fail (c := c) (w := w) error hb
  obtain ⟨p, hp'⟩ := wr.fail_eq error
  rw [hp'] at hat ⊢
  exact h.goto hp hat

/-- The count of a timed write is read. -/
theorem Stands.report (h : wr.Stands c w) {error : Option Exception} (hp : wr.phase = .counting error)
    {n : Nat} : Stands c w { wr with count := n, phase := .done error } := by
  have hat := h.phase
  have htimeout : wr.timeout ≠ 0 := by
    cases error with
    | none => exact (by simpa [At, hp] using hat : _ ∧ _).1
    | some e => simpa [At, hp] using hat
  have hgo := h.goto (p := .done error) (by simp [hp]) (by
    cases error with
    | none => exact (by simpa [At, hp] using hat : _ ∧ _).2
    | some e => exact fun h0 => absurd h0 htimeout)
  exact ⟨hgo.noted, hgo.length, hgo.distinct, hgo.calls, fun h0 => absurd h0 htimeout, hgo.phase⟩

/-- **A write stands where its steps lead.** -/
theorem Stands.step (h : wr.Stands c w) (hgo : wr.Went c w a wr')
    (hw : (∃ k, wr.label c a = some k ∧ w.step k = some w') ∨ wr.label c a = none ∧ w' = w) :
    wr'.Stands c w' := by
  have hsame (hk : wr.label c a = none) : w' = w := by
    obtain ⟨k, hk', -⟩ | ⟨-, hw⟩ := hw
    · rw [hk] at hk'
      cases hk'
    · exact hw
  have hclient {r : ReceiverRef} {op : ReceiverOp} (hk : wr.label c a = some (.client r op)) :
      wr.Stands c w' := by
    obtain ⟨k, hk', hw⟩ | ⟨hk', -⟩ := hw
    · obtain rfl := Option.some.inj (hk.symm.trans hk')
      obtain rfl := Option.some.inj hw
      exact h.congr fun _ _ hc _ => hc
    · rw [hk] at hk'
      cases hk'
  cases hgo with
  | late before_send hp ht =>
      rw [hsame rfl]
      exact h.goto (by simp [hp]) (at_conclude _ fun h0 => absurd h0 ht)
  | command before_send d now hp hi =>
      have hx := List.getElem?_eq_getElem hi
      obtain ⟨k, hk, hw⟩ | ⟨hk, -⟩ := hw
      · rw [label, hx] at hk
        obtain rfl := Option.some.inj hk
        exact h.command hp hx hw
      · rw [label, hx] at hk
        cases hk
  | act a d hp =>
      obtain ⟨k, hk, hw⟩ | ⟨hk, -⟩ := hw
      · simp only [label, hp] at hk
        obtain rfl := Option.some.inj hk
        exact h.act hp hw
      · simp [label, hp] at hk
  | accepted d call response hp hc hr hq =>
      rw [hsame rfl]
      exact h.proceed hp hc ⟨response, hr, hq⟩
  | refused d call response error hp hc hr hq =>
      have hlost : call.Lost := by
        refine ⟨by rw [hr]; trivial, fun h => ?_⟩
        obtain ⟨response', hr', hq'⟩ := h
        obtain rfl := Phase.returned.inj (hr.symm.trans hr')
        rw [hq] at hq'
        cases hq'
      have hat := at_fail (c := c) (w := w) error (h.commanding hp).1
      rw [hsame rfl]
      obtain ⟨p, hp'⟩ := wr.fail_eq error
      rw [hp'] at hat ⊢
      exact h.over hp hc hlost hat
  | threw d call error hp hc ht =>
      have hlost : call.Lost := by
        refine ⟨by rw [ht]; trivial, fun h => ?_⟩
        obtain ⟨response, hr, -⟩ := h
        rw [ht] at hr
        cases hr
      rw [hsame rfl]
      exact h.over hp hc hlost (h.commanding hp).1
  | usable error hp =>
      rw [hsame rfl]
      exact h.failed (by simp [hp]) error (by simpa [At, hp] using h.phase)
  | unusable error hp =>
      rw [hsame rfl]
      exact h.goto (by simp [hp]) (by simpa [At, Behind, hp] using h.phase)
  | stop error hp => exact (hclient rfl).failed (by simp [hp]) error (by simpa [At, hp] using h.phase)
  | forget error hp =>
      exact (hclient rfl).goto (by simp [hp]) (at_conclude error fun _ => by simpa [At, hp] using h.phase)
  | wait a wt wt' hp hs =>
      rw [hsame rfl]
      exact h.wait hp hs
  | report error hp =>
      rw [hsame rfl]
      exact h.report hp

/-- What a write never changes, and what only grows. -/
structure Extends (wr wr' : Writer) : Prop where
  receiver : wr'.receiver = wr.receiver
  batch : wr'.batch = wr.batch
  timeout : wr'.timeout = wr.timeout
  commands : wr.commands <+: wr'.commands
  made : wr.made ≤ wr'.made

/-- Going on makes no command. -/
theorem extends_phase (wr : Writer) (p : WritePhase) : wr.Extends { wr with phase := p } :=
  ⟨rfl, rfl, rfl, List.prefix_rfl, Nat.le_refl _⟩

/-- Commands are only added. -/
theorem Extends.trans {wr'' : Writer} (h : wr.Extends wr') (h' : wr'.Extends wr'') : wr.Extends wr'' :=
  ⟨h'.receiver.trans h.receiver, h'.batch.trans h.batch, h'.timeout.trans h.timeout,
    h.commands.trans h'.commands, Nat.le_trans h.made h'.made⟩

/-- Every step adds at most one. -/
theorem Went.extends (h : wr.Went c w a wr') : wr.Extends wr' := by
  cases h with
  | late before_send hp ht => exact extends_phase wr _
  | command before_send d now hp hi => exact ⟨rfl, rfl, rfl, List.prefix_append _ _, Nat.le_refl _⟩
  | act a d hp =>
      refine ⟨rfl, rfl, rfl, List.prefix_rfl, ?_⟩
      show wr.index + _ ≤ wr.index + _
      cases wr.noted <;> simp
  | accepted d call response hp hc hr hq =>
      refine ⟨rfl, rfl, rfl, List.prefix_rfl, ?_⟩
      show wr.index + _ ≤ wr.index + 1 + _
      split <;> omega
  | refused d call response error hp hc hr hq =>
      obtain ⟨p, hp⟩ := wr.fail_eq error
      exact hp ▸ extends_phase wr p
  | usable error hp | stop error hp =>
      obtain ⟨p, hp⟩ := wr.fail_eq error
      exact hp ▸ extends_phase wr p
  | threw | unusable | forget | wait => exact extends_phase wr _
  | report error hp => exact ⟨rfl, rfl, rfl, List.prefix_rfl, Nat.le_refl _⟩

end Writer

/-! ## all writes -/

namespace Desk

/-- The messages that a write may have noted with a receiver. -/
def made (s : Desk) (c : TransmitCall) (r : ReceiverRef) : List PASSTHRU_MSG :=
  match s.writers c with
  | some (.ok wr) => if wr.receiver = r then (wr.batch.take wr.made).map Prod.fst else []
  | _ => []

/-- What holds of all writes. -/
structure Kept (s : Desk) (g : Books) : Prop where
  stands : ∀ {c wr}, s.writers c = some (.ok wr) → wr.Stands c s.world
  /-- A command that is called for a write is one of its own. -/
  owned : ∀ {c d call}, s.world.calls d = some call → call.command.of c →
    ∃ wr, s.writers c = some (.ok wr) ∧ d ∈ wr.commands
  /-- The entries of a write are of its messages, in their order. -/
  entries : ∀ c r, (((g r).entries.filter (Noted.ofCall c)).map Noted.message).Sublist (s.made c r)
  coded : s.world.session.Coded

variable {s s' : Desk} {l : Label} {g : Books} {c : TransmitCall}

/-- At first nothing was written. -/
theorem kept_opened (protocol : ReceiverRef → UInt32) : Kept (opened protocol) fun _ => {} where
  stands h := nomatch h
  owned h := nomatch h
  entries _ _ := List.nil_sublist _
  coded _ := .inl rfl

/-- A command belongs to one call. -/
theorem Command.of_unique {cmd : Command} {c c' : TransmitCall} (h : cmd.of c) (h' : cmd.of c') : c = c' := by
  obtain ⟨record, hr, hc⟩ := h
  obtain ⟨record', hr', hc'⟩ := h'
  obtain rfl := Option.some.inj (hr.symm.trans hr')
  exact Option.some.inj (hc.symm.trans hc')

/-- The calls of a write wait for its own steps. -/
theorem Kept.calls_of_other (hk : Kept s g) (h : s.step l = some s') (hl : ∀ a, l ≠ .act c a) {d : CallId}
    {call : Call} (hd : s.world.calls d = some call) (hof : call.command.of c) :
    s'.world.calls d = some call := by
  obtain ⟨record, hrecord, hcall⟩ := hof
  have hstep {k : Mongoose.Label} (hw : s.world.step k = some s'.world) (hk : ∀ a, k ≠ .act d a) :
      s'.world.calls d = some call := by
    obtain hsame | ⟨cmd, now, -, hnone, -⟩ | ⟨a, call', call'', rfl, -⟩ := World.calls_of_step hw d
    · exact hsame.trans hd
    · rw [hd] at hnone
      cases hnone
    · exact absurd rfl (hk a)
  obtain ⟨k, hon, hw, -⟩ | ⟨-, hw, -⟩ := on_of_step (g := g) h
  · refine hstep hw fun b => ?_
    rintro rfl
    obtain ⟨rfl, hf, -⟩ | ⟨c', a, wr, wr', rfl, hc, hgo, -, hlabel⟩ := on_cases h hon
    · simp [foreign, hd, hrecord] at hf
    · obtain ⟨_, _, _, _, -, hb, -⟩ | ⟨e, b', hp, hb, -⟩ | ⟨_, hb⟩ | hb := hgo.label_cases hlabel
      · cases hb
      · cases hb
        have hst := hk.stands hc
        obtain ⟨call', hd', hsends, -⟩ := hst.calls _ _ (hst.commanding hp).2.1
        obtain rfl := Option.some.inj (hd.symm.trans hd')
        exact hl _ (by rw [Command.of_unique ⟨record, hrecord, hcall⟩ hsends.of])
      · cases hb
      · cases hb
  · rw [hw]
    exact hd

/-- A writer after a step: as it was, newly called, or one step on. -/
theorem writers_of_step (h : s.step l = some s') {wr' : Writer} (hc : s'.writers c = some (.ok wr')) :
    (s.writers c = some (.ok wr') ∧ ∀ a, l ≠ .act c a) ∨
      (∃ ch messages timeout now, l = .write c ch messages timeout now ∧ s'.world = s.world ∧
        s.writers c = none ∧ ch.write messages timeout now = .ok wr') ∨
      ∃ a wr, l = .act c a ∧ s.writers c = some (.ok wr) ∧ wr.Went c s.world a wr' ∧
        ((∃ k, wr.label c a = some k ∧ s.world.step k = some s'.world) ∨
          wr.label c a = none ∧ s'.world = s.world) := by
  obtain ⟨k, rfl, -, -, hw⟩ | ⟨c', ch, messages, timeout, now, rfl, hnone, rfl⟩ |
    ⟨c', a, wr, wr'', rfl, hc', hgo, hw, hworld⟩ := step_cases h
  · exact .inl ⟨hw ▸ hc, fun _ => Label.noConfusion⟩
  · by_cases hcc : c = c'
    · subst hcc
      simp only [Function.update_self, Option.some.injEq] at hc
      exact .inr (.inl ⟨ch, messages, timeout, now, rfl, rfl, hnone, hc⟩)
    · simp only [Function.update_of_ne hcc] at hc
      exact .inl ⟨hc, fun _ => Label.noConfusion⟩
  · rw [hw] at hc
    by_cases hcc : c = c'
    · subst hcc
      simp only [Function.update_self, Option.some.injEq, Except.ok.injEq] at hc
      exact .inr (.inr ⟨a, wr, rfl, hc', hc ▸ hgo, hworld⟩)
    · rw [Function.update_of_ne hcc] at hc
      refine .inl ⟨hc, fun b hb => hcc ?_⟩
      cases hb
      rfl

/-- A writer that is there goes on. -/
theorem extends_of_step (h : s.step l = some s') {wr : Writer} (hc : s.writers c = some (.ok wr)) :
    ∃ wr', s'.writers c = some (.ok wr') ∧ wr.Extends wr' := by
  obtain ⟨k, rfl, -, -, hw⟩ | ⟨c', ch, messages, timeout, now, rfl, hnone, rfl⟩ |
    ⟨c', a, wr₁, wr', rfl, hc', hgo, hw, -⟩ := step_cases h
  · exact ⟨wr, by rw [hw, hc], wr.extends_phase _⟩
  · have hcc : c ≠ c' := by
      rintro rfl
      rw [hnone] at hc
      cases hc
    exact ⟨wr, (Function.update_of_ne hcc ..).trans hc, wr.extends_phase _⟩
  · by_cases hcc : c = c'
    · subst hcc
      obtain rfl := Except.ok.inj (Option.some.inj (hc.symm.trans hc'))
      exact ⟨wr', by rw [hw, Function.update_self], hgo.extends⟩
    · exact ⟨wr, by rw [hw, Function.update_of_ne hcc, hc], wr.extends_phase _⟩

/-- Every step leaves each call where its phase says. -/
theorem Kept.stands_step (hk : Kept s g) (h : s.step l = some s') {wr' : Writer}
    (hc : s'.writers c = some (.ok wr')) : wr'.Stands c s'.world := by
  obtain ⟨hc, hl⟩ | ⟨ch, messages, timeout, now, rfl, hw, -, hok⟩ | ⟨a, wr, rfl, hc, hgo, hw⟩ :=
    writers_of_step h hc
  · exact (hk.stands hc).congr fun d call hd hof => hk.calls_of_other h hl hd hof
  · exact Writer.stands_write hok
  · exact (hk.stands hc).step hgo hw

/-- The messages of a write are made in order. -/
theorem made_step (h : s.step l = some s') (c : TransmitCall) (r : ReceiverRef) :
    (s.made c r).Sublist (s'.made c r) := by
  unfold made
  cases hc : s.writers c with
  | none => exact List.nil_sublist _
  | some x =>
      cases x with
      | error e => exact List.nil_sublist _
      | ok wr =>
          obtain ⟨wr', hc', hext⟩ := extends_of_step h hc
          rw [hc']
          dsimp only
          rw [hext.receiver, hext.batch]
          split
          · exact ((List.take_sublist_take_left hext.made).map _)
          · exact List.nil_sublist _

/-- A command of a write is called by the write. -/
theorem command_of_on (h : s.step l = some s') {d : CallId} {cmd : Command} {now : Int}
    (hon : s.on l = some (.enter d cmd now)) (hof : cmd.of c) :
    ∃ wr, s'.writers c = some (.ok wr) ∧ d ∈ wr.commands := by
  obtain ⟨rfl, hf, -⟩ | ⟨c', a, wr, wr', rfl, hc, hgo, hw, hlabel⟩ := on_cases h hon
  · obtain ⟨record, hrecord, -⟩ := hof
    simp [foreign, hrecord] at hf
  · obtain ⟨before_send, e, now', x, hx, hk, rfl⟩ | ⟨_, _, -, hk, -⟩ | ⟨_, hk⟩ | hk := hgo.label_cases hlabel
    · cases hk
      obtain rfl := Command.of_unique hof (Writer.Sends.of ⟨x, before_send, hx, rfl⟩)
      exact ⟨_, by rw [hw, Function.update_self], by simp⟩
    · cases hk
    · cases hk
    · cases hk

/-- A write is noted by the write it is of, and for its next message. -/
theorem Kept.notes_of_on (hk : Kept s g) (h : s.step l = some s') {k : Mongoose.Label} (hon : s.on l = some k)
    {r : ReceiverRef} {n : Noted} (hn : s.world.notes k = some (r, n)) :
    ∃ (c : TransmitCall) (wr : Writer) (x : PASSTHRU_MSG × Bytes), n.call = some c ∧
      s.made c r = (wr.batch.take wr.index).map Prod.fst ∧
      s'.made c r = (wr.batch.take (wr.index + 1)).map Prod.fst ∧ wr.batch[wr.index]? = some x ∧
      n.message = x.1 := by
  obtain ⟨d, rfl⟩ : ∃ d, k = .act d .known := by
    cases k with
    | act d a => cases a <;> first | exact ⟨d, rfl⟩ | cases hn
    | _ => cases hn
  obtain ⟨call, hd, hn⟩ := Option.bind_eq_some_iff.mp hn
  obtain ⟨record, hrecord, hn⟩ := Option.map_eq_some_iff.mp hn
  obtain ⟨rfl, rfl⟩ := Prod.mk.inj hn
  obtain ⟨rfl, hf, -⟩ | ⟨c, a, wr, wr', rfl, hc, hgo, hw, hlabel⟩ := on_cases h hon
  · simp [foreign, hd, hrecord] at hf
  · obtain ⟨_, _, _, _, -, hk', -⟩ | ⟨e, b, hp, hk', rfl⟩ | ⟨_, hk'⟩ | hk' := hgo.label_cases hlabel
    · cases hk'
    · cases hk'
      have hst := hk.stands hc
      obtain ⟨⟨hlt, -⟩, he, hearly⟩ := hst.commanding hp
      obtain ⟨call', hd', ⟨x, before_send, hx, hcommand⟩, -⟩ := hst.calls _ _ he
      obtain rfl := Option.some.inj (hd.symm.trans hd')
      obtain rfl : record = _ := Option.some.inj (hrecord.symm.trans (congrArg Command.sequence_known hcommand))
      have hnoted : wr.noted = false := by
        by_contra hn
        refine hearly call hd (by simpa using hn) ?_
        obtain ⟨k, hk', hstep, -⟩ | ⟨hk', -⟩ := on_of_step (g := g) h
        · obtain rfl := Option.some.inj (hon.symm.trans hk')
          obtain ⟨call', hd', hstep⟩ := Option.bind_eq_some_iff.mp hstep
          obtain rfl := Option.some.inj (hd.symm.trans hd')
          obtain ⟨⟨t, call'⟩, hs, -⟩ := Option.map_eq_some_iff.mp hstep
          cases took_of_step hs with
          | known hphase =>
              rw [hphase]
              trivial
        · rw [hon] at hk'
          cases hk'
      refine ⟨c, wr, x, rfl, ?_, ?_, hx, rfl⟩
      · simp [made, hc, Writer.made, hnoted]
      · simp [made, hw, Writer.made, Step.knows]
    · cases hk'
    · cases hk'

/-- A command that records for a call was made by it. -/
theorem Kept.owned_step (hk : Kept s g) (h : s.step l = some s') {d : CallId} {call : Call}
    (hd : s'.world.calls d = some call) (hof : call.command.of c) :
    ∃ wr, s'.writers c = some (.ok wr) ∧ d ∈ wr.commands := by
  have hold {call₀ : Call} (hd₀ : s.world.calls d = some call₀) (hof₀ : call₀.command.of c) :
      ∃ wr, s'.writers c = some (.ok wr) ∧ d ∈ wr.commands := by
    obtain ⟨wr, hc, hmem⟩ := hk.owned hd₀ hof₀
    obtain ⟨wr', hc', hext⟩ := extends_of_step h hc
    exact ⟨wr', hc', hext.commands.mem hmem⟩
  obtain ⟨k, hon, hw, -⟩ | ⟨-, hw, -⟩ := on_of_step (g := g) h
  · obtain hsame | ⟨cmd, now, rfl, -, hnew⟩ | ⟨a, call₀, call₁, -, hd₀, hd₁, t, ht⟩ := World.calls_of_step hw d
    · exact hold (hsame ▸ hd) hof
    · obtain rfl := Option.some.inj (hd.symm.trans hnew)
      rw [Call.command_enter] at hof
      exact command_of_on h hon hof
    · obtain rfl := Option.some.inj (hd.symm.trans hd₁)
      exact hold hd₀ (ht.command_eq ▸ hof)
  · exact hold (hw ▸ hd) hof

/-- What was noted for a call are messages that it made commands for, in order. -/
theorem Kept.entries_step (hk : Kept s g) (h : s.step l = some s') (c : TransmitCall) (r : ReceiverRef) :
    (((s.book l s' g r).entries.filter (Noted.ofCall c)).map Noted.message).Sublist (s'.made c r) := by
  have hold := (hk.entries c r).trans (made_step h c r)
  obtain ⟨k, hon, -, hb⟩ | ⟨-, -, hb⟩ := on_of_step (g := g) h
  · rw [hb]
    obtain ⟨n, hn, hentries⟩ | ⟨-, hentries⟩ := World.entries_book s.world k s'.world g r
    · rw [hentries, List.filter_append, List.map_append]
      obtain ⟨c', wr, x, hcall, hbefore, hafter, hx, hmessage⟩ := hk.notes_of_on h hon hn
      by_cases hcc : c' = c
      · subst hcc
        have hlt := (List.getElem?_eq_some_iff.mp hx).1
        have htake : wr.batch.take (wr.index + 1) = wr.batch.take wr.index ++ [x] := by
          rw [List.take_add_one, hx]
          rfl
        have hown : [n].filter (Noted.ofCall c') = [n] := by simp [Noted.ofCall, hcall]
        rw [hown, hafter, htake, List.map_append]
        refine List.Sublist.append (hbefore ▸ hk.entries c' r) ?_
        simp [hmessage]
      · have hother : [n].filter (Noted.ofCall c) = [] := by simp [Noted.ofCall, hcall, hcc]
        rw [hother, List.map_nil, List.append_nil]
        exact hold
    · rw [hentries]
      exact hold
  · rw [hb]
    exact hold

/-- No step of a desk stops a receiver with another code. -/
theorem code_of_on (h : s.step l = some s') {r : ReceiverRef} {code : Int} {reason : String}
    (hon : s.on l = some (.client r (.stop code reason))) :
    code = ERR_INVALID_CHANNEL_ID ∨ code = ERR_DEVICE_NOT_CONNECTED := by
  obtain ⟨rfl, hf, -⟩ | ⟨c, a, wr, wr', rfl, hc, hgo, -, hlabel⟩ := on_cases h hon
  · simpa [foreign] using hf
  · obtain ⟨_, _, _, _, -, hk, -⟩ | ⟨_, _, -, hk, -⟩ | ⟨_, hk⟩ | hk := hgo.label_cases hlabel
    · cases hk
    · cases hk
    · cases hk
      exact .inr rfl
    · cases hk

/-- **Every step keeps what holds of all writes.** -/
theorem Kept.step (hk : Kept s g) (hs : ∀ r, (s.world.session.receivers r).Proper)
    (h : s.step l = some s') : Kept s' (s.book l s' g) where
  stands hc := hk.stands_step h hc
  owned hd hof := hk.owned_step h hd hof
  entries c r := hk.entries_step h c r
  coded := by
    obtain ⟨k, hon, hw, -⟩ | ⟨-, hw, -⟩ := on_of_step (g := g) h
    · refine World.coded_step hs hk.coded (fun r code reason hk' => ?_) hw
      subst hk'
      exact code_of_on h hon
    · exact hw ▸ hk.coded

/-- The receivers of a run are proper, and their books are kept. -/
theorem books_run {protocol : ReceiverRef → UInt32} {ls : List Label}
    (h : Run.run (Run.recording step book) (opened protocol, fun _ => {}) ls = some (s, g)) :
    (∀ r, (s.world.session.receivers r).Proper) ∧ ∀ r, Booked (s.world.session.receivers r) (g r) := by
  obtain ⟨ks, hks⟩ := world_run h
  exact ⟨World.proper_of_run (Run.run_of_recording hks), World.booked_run hks⟩

/-- In every run. -/
theorem kept_run {protocol : ReceiverRef → UInt32} {ls : List Label}
    (h : Run.run (Run.recording step book) (opened protocol, fun _ => {}) ls = some (s, g)) : Kept s g :=
  Run.run_induction (P := fun _ t => Kept t.1 t.2) (kept_opened protocol)
    (fun ks (m, i) l (t, j) hks hk hstep => by
      obtain ⟨ht, rfl⟩ := Run.recording_eq_some_iff.mp hstep
      exact hk.step (books_run hks).1 ht) h

/-! ## confirmations -/

/-- The confirmations that a receiver has counted for a write. -/
def confirmed (s : Desk) (c : TransmitCall) (r : ReceiverRef) : Nat :=
  (s.world.session.receivers r).confirmed c

/-- They are of entries of the write. -/
theorem confirmed_eq (hb : ∀ r, Booked (s.world.session.receivers r) (g r)) (r : ReceiverRef) :
    s.confirmed c r = (g r).settled.countP fun e => e.1.ofCall c :=
  (hb r).confirmed c

/-- A write is confirmed at most as often as it has noted a message. -/
theorem Kept.confirmed_le (hk : Kept s g) (hb : ∀ r, Booked (s.world.session.receivers r) (g r)) {wr : Writer}
    (hc : s.writers c = some (.ok wr)) : s.confirmed c wr.receiver ≤ wr.made := by
  have hentries := (hk.entries c wr.receiver).length_le
  simp only [made, hc, if_pos, List.length_map, List.length_take] at hentries
  calc s.confirmed c wr.receiver
      ≤ (g wr.receiver).entries.countP (Noted.ofCall c) := by
        rw [confirmed_eq hb]
        exact (hb wr.receiver).sound.countP_settled_le _
    _ = ((g wr.receiver).entries.filter (Noted.ofCall c)).length := List.countP_eq_length_filter
    _ ≤ wr.made := by omega

/-- What is counted stays counted. -/
theorem confirmed_mono (hb : ∀ r, Booked (s.world.session.receivers r) (g r))
    (hb' : ∀ r, Booked (s'.world.session.receivers r) (s.book l s' g r)) (h : s.step l = some s')
    (r : ReceiverRef) : s.confirmed c r ≤ s'.confirmed c r := by
  rw [confirmed_eq hb, confirmed_eq hb']
  obtain ⟨k, -, -, hbook⟩ | ⟨-, -, hbook⟩ := on_of_step (g := g) h
  · rw [hbook]
    exact (World.settled_book s.world k s'.world g r).sublist.countP_le
  · exact Nat.le_of_eq (by rw [hbook])

/-- Only a chunk is counted. -/
theorem confirmed_of_ne (hb : ∀ r, Booked (s.world.session.receivers r) (g r))
    (hb' : ∀ r, Booked (s'.world.session.receivers r) (s.book l s' g r)) (h : s.step l = some s')
    (hl : ∀ bytes, l ≠ .world (.receive bytes)) (r : ReceiverRef) : s'.confirmed c r = s.confirmed c r := by
  rw [confirmed_eq hb, confirmed_eq hb']
  obtain ⟨k, hon, -, hbook⟩ | ⟨-, -, hbook⟩ := on_of_step (g := g) h
  · rw [hbook, World.settled_book_of_ne fun bytes hk => ?_]
    subst hk
    obtain ⟨rfl, -⟩ | ⟨c', a, wr, wr', rfl, hc, hgo, -, hlabel⟩ := on_cases h hon
    · exact hl bytes rfl
    · obtain ⟨_, _, _, _, -, hk, -⟩ | ⟨_, _, -, hk, -⟩ | ⟨_, hk⟩ | hk := hgo.label_cases hlabel <;> cases hk
  · rw [hbook]

/-! ## what a call returns -/

/-- What a call has returned or thrown, and the count it leaves. -/
def returned (s : Desk) (c : TransmitCall) : Option (Option Exception × Nat) :=
  match s.writers c with
  | some (.error error) => some (some error, 0)
  | some (.ok wr) =>
      match wr.phase with
      | .done error => some (error, wr.count)
      | _ => none
  | none => none

/-- A call that was refused stays so. -/
theorem refused_of_step (h : s.step l = some s') {error : Exception} (hc : s.writers c = some (.error error)) :
    s'.writers c = some (.error error) := by
  obtain ⟨k, rfl, -, -, hw⟩ | ⟨c', ch, messages, timeout, now, rfl, hnone, rfl⟩ |
    ⟨c', a, wr, wr', rfl, hc', -, hw, -⟩ := step_cases h
  · rw [hw, hc]
  · have hcc : c ≠ c' := by
      rintro rfl
      rw [hnone] at hc
      cases hc
    exact (Function.update_of_ne hcc ..).trans hc
  · have hcc : c ≠ c' := by
      rintro rfl
      rw [hc'] at hc
      cases hc
    rw [hw, Function.update_of_ne hcc, hc]

/-- A call that was refused stays so. -/
theorem refused_of_run {ls : List Label} (h : Run.run step s ls = some s') {error : Exception}
    (hc : s.writers c = some (.error error)) : s'.writers c = some (.error error) :=
  Run.invariant (I := fun t => t.writers c = some (.error error)) (fun _ _ _ hi ht => refused_of_step ht hi) hc h

/-- A call in a run only gets further. -/
theorem extends_of_run {ls : List Label} (h : Run.run step s ls = some s') {wr : Writer}
    (hc : s.writers c = some (.ok wr)) : ∃ wr', s'.writers c = some (.ok wr') ∧ wr.Extends wr' := by
  refine Run.invariant (I := fun t => ∃ wr', t.writers c = some (.ok wr') ∧ wr.Extends wr') ?_
    ⟨wr, hc, wr.extends_phase _⟩ h
  intro m l t ⟨wr₁, hc₁, hext₁⟩ ht
  obtain ⟨wr₂, hc₂, hext₂⟩ := extends_of_step ht hc₁
  exact ⟨wr₂, hc₂, hext₁.trans hext₂⟩

/-- A write that is called is refused, or goes on. -/
theorem writer_of_run {ls ks : List Label} {s₀ : Desk} {ch : Channel} {messages : List PASSTHRU_MSG}
    {timeout : UInt32} {now : Int}
    (h : Run.run step s₀ (ls ++ .write c ch messages timeout now :: ks) = some s) :
    (∃ error, ch.write messages timeout now = .error error ∧ s.writers c = some (.error error)) ∨
      ∃ wr wr', ch.write messages timeout now = .ok wr ∧ s.writers c = some (.ok wr') ∧ wr.Extends wr' := by
  obtain ⟨m, -, hks⟩ := Run.run_append_iff.mp h
  obtain ⟨m', hwrite, hks⟩ := Run.run_cons_iff.mp hks
  have hm' : m'.writers c = some (ch.write messages timeout now) := by
    obtain ⟨_, hl, -⟩ | ⟨_, _, _, _, _, hl, -, rfl⟩ | ⟨_, _, _, _, hl, -⟩ := step_cases hwrite
    · cases hl
    · cases hl
      exact Function.update_self ..
    · cases hl
  cases hresult : ch.write messages timeout now with
  | error error => exact .inl ⟨error, rfl, refused_of_run hks (hresult ▸ hm')⟩
  | ok wr =>
      obtain ⟨wr', hc', hext⟩ := extends_of_run hks (hresult ▸ hm')
      exact .inr ⟨wr, wr', rfl, hc', hext⟩

end Desk

end Mongoose
