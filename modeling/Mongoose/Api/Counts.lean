import Mongoose.Api.Timed

/-!
# Mongoose.Api.Counts

What the count of a write tells.

`Tells` ties a write to the sends of its messages and to the confirmations of its receiver:
what it has counted was confirmed, and a message that was accepted was sent.  The count
that a call returns is read off it.
-/

namespace Mongoose

/-! ## sends -/

/-- The send of a call was called, and has not thrown, as far as the call knows. -/
def Phase.out : Phase → Bool
  | .sent | .abandon _ | .waiting | .returned _ => true
  | _ => false

def Action.sends : Action → Bool
  | .send => true
  | _ => false

theorem Took.out {c : CallId} {s s' : Session} {call call' : Call} {a : Action} (h : Took c s call a s' call')
    (ha : a.sends = false) (hout : call'.phase.out = true) : call.phase.out = true := by
  cases h <;> simp_all [Call.goto, Phase.out, Action.sends]

/-- A step that sends a message of a call. -/
def Desk.Label.sends (c : TransmitCall) : Desk.Label → Bool
  | .act c' (.act a) => c' = c && a.sends
  | _ => false

/-! ## what a write has done -/

namespace Writer

/-- What a write has sent, of `n` sends, and what it tells of its confirmations. -/
structure Tells (c : TransmitCall) (w : World) (n : Nat) (wr : Writer) : Prop where
  sent : wr.index ≤ n
  sending : ∀ d call, wr.phase = .commanding d → w.calls d = some call → call.phase.out = true → wr.index < n
  full : wr.phase = .counting none → wr.batch.length ≤ (w.session.receivers wr.receiver).confirmed c
  told : wr.timeout ≠ 0 → ∀ error, wr.phase = .done error →
    wr.count ≤ (w.session.receivers wr.receiver).confirmed c ∧ (error = none → wr.batch.length ≤ wr.count)

variable {c : TransmitCall} {w w' : World} {wr wr' : Writer} {n : Nat}

/-- A write goes on, or over, but for its count. -/
theorem Tells.goto (h : wr.Tells c w n) {p : WritePhase} (hp : ∀ d, p ≠ .commanding d) (hf : p ≠ .counting none)
    (hd : wr.timeout ≠ 0 → ∀ error, p ≠ .done error) : Tells c w' n { wr with phase := p } where
  sent := h.sent
  sending d _ hp' := absurd hp' (hp d)
  full hp' := absurd hp' hf
  told ht error hp' := absurd hp' (hd ht error)

theorem fail_open (ht : wr.timeout ≠ 0) (error : Exception) (e : Option Exception) :
    (wr.fail error).phase ≠ .done e := by
  unfold Writer.fail Writer.conclude
  rw [if_neg ht]
  split <;> simp

theorem Tells.conclude (h : wr.Tells c w n) (error : Exception) : (wr.conclude (some error)).Tells c w' n := by
  refine h.goto (fun d => ?_) ?_ fun ht e => ?_
  · split <;> simp
  · split <;> simp
  · simp [ht]

theorem Tells.fail (h : wr.Tells c w n) (error : Exception) : (wr.fail error).Tells c w' n := by
  unfold Writer.fail
  split
  · exact h.goto (by simp) (by simp) (by simp)
  · exact h.conclude error

/-- A message is accepted that was sent. -/
theorem Tells.proceed (hlt : wr.index < n) : (wr.proceed c).Tells c w' n where
  sent := hlt
  sending d _ hp := by
    simp only [Writer.proceed] at hp
    split_ifs at hp
  full hp := by
    simp only [Writer.proceed] at hp
    split_ifs at hp
  told ht error hp := by
    simp only [Writer.proceed] at hp ht
    split_ifs at hp

/-- The wait for confirmations ends with all of them, or with an error. -/
theorem Tells.awaited (h : wr.Tells c w n) {a : ReadAction} {wt wt' : Waiter} (hcall : wt.call = c)
    (htarget : wt.target = wr.batch.length) (hs : wt.step (w.session.receivers wr.receiver) a = some wt') :
    (wr.awaited wt').Tells c w n := by
  obtain rfl | ⟨rfl, -⟩ := wt.step_cases hs
  · exact h.goto (by simp) (by simp) (by simp)
  · unfold Writer.awaited Waiter.finish
    by_cases hstopped : (w.session.receivers wr.receiver).stopped ≠ 0
    · rw [if_pos hstopped]
      exact h.goto (by simp) (by simp) (by simp)
    · rw [if_neg hstopped]
      by_cases hc : (w.session.receivers wr.receiver).confirmed wt.call ≥ wt.target
      · simp only [hc, decide_true]
        exact ⟨h.sent, nofun, fun _ => htarget ▸ hcall ▸ hc, fun _ _ => nofun⟩
      · simp only [hc, decide_false]
        exact h.goto (by simp) (by simp) (by simp)

end Writer

namespace Desk

variable {s s' : Desk} {l : Label} {g : Books} {c : TransmitCall} {wr wr' : Writer} {n : Nat}

/-- A command of a write takes a step: it sends, or it is no further out than it was. -/
theorem tells_act (h : wr.Tells c s.world n) {a : Action} {d : CallId} (hp : wr.phase = .commanding d)
    (hw : s.world.step (.act d a) = some s'.world) :
    Writer.Tells c s'.world (n + if a.sends then 1 else 0)
      { wr with noted := wr.noted || (Step.act a).knows, phase := .commanding d } := by
  obtain ⟨call, t, call', hcall, hs, hw⟩ := World.step_act hw
  have hcall' : s'.world.calls d = some call' := by
    rw [hw]
    exact World.put_calls_self ..
  refine ⟨Nat.le_trans h.sent (Nat.le_add_right _ _), ?_, nofun, fun _ _ => nofun⟩
  intro e call₁ he hcall₁ hout
  obtain rfl := WritePhase.commanding.inj he
  obtain rfl := Option.some.inj (hcall'.symm.trans hcall₁)
  have hsent := h.sent
  cases ha : a.sends with
  | true =>
      show wr.index < n + 1
      omega
  | false => exact h.sending d call hp hcall ((took_of_step hs).out ha hout)

/-- The write takes a step. -/
theorem tells_went (hk : Kept s g) (hc : s.writers c = some (.ok wr)) (h : wr.Tells c s.world n)
    {a : WriteAction} (hgo : wr.Went c s.world a wr')
    (hworld : (∃ k, wr.label c a = some k ∧ s.world.step k = some s'.world) ∨
      wr.label c a = none ∧ s'.world = s.world) :
    wr'.Tells c s'.world (n + [Label.act c a].countP (Label.sends c)) := by
  have hst := hk.stands hc
  have hsame (hk : wr.label c a = none) : s'.world = s.world := by
    obtain ⟨k, hk', -⟩ | ⟨-, hw⟩ := hworld
    · rw [hk] at hk'
      cases hk'
    · exact hw
  cases hgo with
  | late before_send hp ht => exact h.conclude _
  | command before_send d now hp hi =>
      obtain ⟨k, hlabel, hw⟩ | ⟨hlabel, -⟩ := hworld
      · simp only [Writer.label, List.getElem?_eq_getElem hi, Option.map_some, Option.some.injEq] at hlabel
        subst hlabel
        obtain ⟨-, hw⟩ := Option.ite_none_right_eq_some.mp hw
        refine ⟨h.sent, fun e call he hcall hout => ?_, by simp, by simp⟩
        obtain rfl := WritePhase.commanding.inj he
        rw [← Option.some.inj hw, World.put_calls_self] at hcall
        obtain rfl := Option.some.inj hcall
        simp only [Call.enter] at hout
        split at hout <;> cases hout
      · simp [Writer.label, List.getElem?_eq_getElem hi] at hlabel
  | act b d hp =>
      obtain ⟨k, hlabel, hw⟩ | ⟨hlabel, -⟩ := hworld
      · simp only [Writer.label, hp, Option.some.injEq] at hlabel
        subst hlabel
        have hcount : [Label.act c (.act b)].countP (Label.sends c) = if b.sends then 1 else 0 := by
          simp [Label.sends]
        rw [hcount]
        exact tells_act h hp hw
      · simp [Writer.label, hp] at hlabel
  | accepted d call response hp hcall hr hq =>
      exact Writer.Tells.proceed (h.sending d call hp hcall (by rw [hr]; rfl))
  | refused d call response error hp hcall hr hq => exact h.fail error
  | threw d call error hp hcall ht => exact h.goto (by simp) (by simp) (by simp)
  | usable error hp | stop error hp => exact h.fail error
  | unusable error hp => exact h.goto (by simp) (by simp) (by simp)
  | forget error hp => exact h.conclude error
  | wait b wt wt' hp hs =>
      have hat := hst.phase
      simp only [Writer.At, hp] at hat
      rw [hsame rfl]
      exact h.awaited hat.2.2.1 hat.2.2.2.1 hs
  | report error hp =>
      rw [hsame rfl]
      refine ⟨h.sent, by simp, by simp, fun ht e he => ⟨Nat.le_refl _, fun hnone => ?_⟩⟩
      obtain rfl := WritePhase.done.inj he
      exact h.full (by rw [hp, hnone])

/-- Another thread takes a step. -/
theorem tells_other (hk : Kept s g) (hb : ∀ r, Booked (s.world.session.receivers r) (g r))
    (hb' : ∀ r, Booked (s'.world.session.receivers r) (s.book l s' g r)) (h : s.step l = some s')
    (hc : s.writers c = some (.ok wr)) (hl : ∀ a, l ≠ .act c a) (ht : wr.Tells c s.world n) :
    wr.Tells c s'.world n where
  sent := ht.sent
  sending d call hp hcall hout := by
    have hst := hk.stands hc
    obtain ⟨call₀, hcall₀, hsends, -⟩ := hst.calls _ _ (hst.commanding hp).2.1
    have hsame := hk.calls_of_other h hl hcall₀ hsends.of
    obtain rfl := Option.some.inj (hsame.symm.trans hcall)
    exact ht.sending d _ hp hcall₀ hout
  full hp := Nat.le_trans (ht.full hp) (confirmed_mono hb hb' h _)
  told htimeout error hp :=
    ⟨Nat.le_trans (ht.told htimeout error hp).1 (confirmed_mono hb hb' h _), (ht.told htimeout error hp).2⟩

/-- **Every write of a run tells of its sends and its confirmations.** -/
theorem tells_run {protocol : ReceiverRef → UInt32} {ls : List Label}
    (hrun : Run.run (Run.recording step book) (opened protocol, fun _ => {}) ls = some (s, g))
    (hc : s.writers c = some (.ok wr)) : wr.Tells c s.world (ls.countP (Label.sends c)) := by
  refine Run.run_induction (P := fun ls t => ∀ wr, t.1.writers c = some (.ok wr) →
    wr.Tells c t.1.world (ls.countP (Label.sends c))) nofun ?_ hrun wr hc
  intro ks ⟨m, i⟩ l ⟨t, j⟩ hks ih hstep wr' hc'
  have hks' := Run.run_concat hks hstep
  obtain ⟨ht, rfl⟩ := Run.recording_eq_some_iff.mp hstep
  have hk := kept_run hks
  have hb := (books_run hks).2
  rw [List.countP_append]
  obtain ⟨hsame, hl⟩ | ⟨ch, messages, timeout, now, rfl, -, -, hok⟩ | ⟨a, wr, rfl, hc, hgo, hworld⟩ :=
    writers_of_step ht hc'
  · have hnone : [l].countP (Label.sends c) = 0 := by
      rw [List.countP_singleton, if_neg]
      intro hsends
      cases l with
      | act c' a =>
          cases a with
          | act b =>
              simp only [Label.sends, Bool.and_eq_true, decide_eq_true_eq] at hsends
              exact hl _ (by rw [hsends.1])
          | _ => cases hsends
      | _ => cases hsends
    rw [hnone]
    exact tells_other hk hb (books_run hks').2 ht hsame hl (ih wr' hsame)
  · obtain ⟨r, payloads, -, -, -, -, rfl⟩ := Channel.write_ok hok
    exact ⟨Nat.zero_le _, nofun, nofun, fun _ _ => nofun⟩
  · exact tells_went hk hc (ih wr hc) hgo hworld

/-! ## what a call has returned -/

/-- What a call has returned stays. -/
theorem returned_of_step (h : s.step l = some s') {x : Option Exception × Nat} (hx : s.returned c = some x) :
    s'.returned c = some x := by
  cases hc : s.writers c with
  | none => simp [returned, hc] at hx
  | some y =>
      cases y with
      | error error =>
          rw [returned, hc] at hx
          rw [returned, refused_of_step h hc]
          exact hx
      | ok wr =>
          obtain ⟨wr', hc', -⟩ := extends_of_step h hc
          have hdone : ∃ error, wr.phase = .done error := by
            simp only [returned, hc] at hx
            split at hx
            · next error hp => exact ⟨error, hp⟩
            · cases hx
          obtain ⟨error, hp⟩ := hdone
          obtain ⟨hsame, -⟩ | ⟨_, _, _, _, -, -, hnone, -⟩ | ⟨a, wr₁, -, hc₁, hgo, -⟩ := writers_of_step h hc'
          · obtain rfl := Except.ok.inj (Option.some.inj (hc.symm.trans hsame))
            rw [returned, hc] at hx
            rw [returned, hc']
            exact hx
          · rw [hc] at hnone
            cases hnone
          · obtain rfl := Except.ok.inj (Option.some.inj (hc.symm.trans hc₁))
            cases hgo <;> simp_all

/-- The own writes of a call that its receiver has confirmed. -/
def paired (g : Books) (ch : Channel) (c : TransmitCall) : Nat :=
  match ch.receiver with
  | some r => (g r).settled.countP fun e => e.1.ofCall c
  | none => 0

/-- Those that it has noted. -/
def recorded (g : Books) (ch : Channel) (c : TransmitCall) : Nat :=
  match ch.receiver with
  | some r => (g r).entries.countP (Noted.ofCall c)
  | none => 0

/-- Nothing is commanded for a call that was refused, and nothing noted. -/
def Unmade (s : Desk) (g : Books) (c : TransmitCall) : Prop :=
  (∀ d call, s.world.calls d = some call → ¬ call.command.of c) ∧
    ∀ r, (g r).entries.filter (Noted.ofCall c) = []

theorem Kept.unmade (hk : Kept s g) (hc : ∀ wr, s.writers c ≠ some (.ok wr)) : Unmade s g c := by
  refine ⟨fun d call hd hof => ?_, fun r => ?_⟩
  · obtain ⟨wr, hwr, -⟩ := hk.owned hd hof
    exact hc wr hwr
  · have hmade : s.made c r = [] := by
      unfold made
      split
      · next wr hwr => exact absurd hwr (hc wr)
      · rfl
    have hentries := hk.entries c r
    rw [hmade] at hentries
    exact List.map_eq_nil_iff.mp (List.sublist_nil.mp hentries)

/-- The commands of a call carry its first messages, one each, in their order.  The adapter has taken the
first `count` of them; another one may have failed. -/
def Accepts (s : Desk) (c : TransmitCall) (protocol timeout : UInt32) (messages : List PASSTHRU_MSG)
    (count : Nat) : Prop :=
  ∃ ds : List CallId, ds.Nodup ∧ (∀ d call, s.world.calls d = some call → call.command.of c → d ∈ ds) ∧
    count ≤ ds.length ∧ ds.length ≤ count + 1 ∧
    ∀ i d, ds[i]? = some d → ∃ m call, messages[i]? = some m ∧ s.world.calls d = some call ∧
      call.command.of c ∧ encode_write protocol m timeout = .ok call.command.payload ∧
      (i < count → call.Accepted) ∧ (i = count → call.Lost)

/-- The batch of a write is its messages with their payloads. -/
structure Batched (ch : Channel) (messages : List PASSTHRU_MSG) (timeout : UInt32) (wr : Writer) : Prop where
  receiver : ch.receiver = some wr.receiver
  budget : wr.timeout = timeout
  length : wr.batch.length = messages.length
  encoded : ∀ (i : Nat) (x : PASSTHRU_MSG × Bytes), wr.batch[i]? = some x →
    messages[i]? = some x.1 ∧ encode_write ch.protocol x.1 timeout = .ok x.2

/-- A call that was made is refused, or writes what it was given. -/
theorem writer_of_call {s₀ : Desk} {ls : List Label} {ch : Channel} {messages : List PASSTHRU_MSG}
    {timeout : UInt32} {now : Int} (hrun : Run.run step s₀ ls = some s)
    (hcall : .write c ch messages timeout now ∈ ls) :
    (∃ error, s.writers c = some (.error error)) ∨
      (∀ m ∈ messages, ∃ payload, encode_write ch.protocol m timeout = .ok payload) ∧
        ∃ wr, s.writers c = some (.ok wr) ∧ Batched ch messages timeout wr := by
  obtain ⟨ks, ms, rfl⟩ := List.append_of_mem hcall
  obtain ⟨error, -, hc⟩ | ⟨wr, wr', hwrite, hc, hext⟩ := writer_of_run hrun
  · exact .inl ⟨error, hc⟩
  · obtain ⟨r, payloads, hr, -, -, hpayloads, rfl⟩ := Channel.write_ok hwrite
    have hencoded := encode_write_batch_ok.mp hpayloads
    refine .inr ⟨fun m hm => ?_, wr', hc, ?_, hext.timeout, ?_, fun i x hx => ?_⟩
    · obtain ⟨i, hi, rfl⟩ := List.getElem_of_mem hm
      exact ⟨_, hencoded.get hi (hencoded.length_eq ▸ hi)⟩
    · rw [hr, hext.receiver]
    · have hsame := hencoded.length_eq
      rw [hext.batch]
      simp [hsame]
    · rw [hext.batch, List.getElem?_zip_eq_some] at hx
      obtain ⟨hm, hpayload⟩ := hx
      obtain ⟨hi, hm'⟩ := List.getElem?_eq_some_iff.mp hm
      obtain ⟨hi', hpayload'⟩ := List.getElem?_eq_some_iff.mp hpayload
      have hget := hencoded.get hi hi'
      rw [List.get_eq_getElem, List.get_eq_getElem, hm', hpayload'] at hget
      exact ⟨hm, hget⟩

/-- An untimed call counts what the adapter has accepted. -/
theorem Kept.accepts (hk : Kept s g) {ch : Channel} {messages : List PASSTHRU_MSG} {error : Option Exception}
    (hc : s.writers c = some (.ok wr)) (hw : Batched ch messages 0 wr) (hp : wr.phase = .done error) :
    Accepts s c ch.protocol 0 messages wr.count ∧ (error = none ↔ wr.count = messages.length) := by
  have hst := hk.stands hc
  have hlen := hst.length
  rw [hst.count hw.budget]
  refine ⟨⟨wr.commands, hst.distinct, fun d call hd hof => ?_, hlen.1, hlen.2.1, fun i d hd => ?_⟩, ?_⟩
  · obtain ⟨wr', hc', hmem⟩ := hk.owned hd hof
    obtain rfl := Except.ok.inj (Option.some.inj (hc.symm.trans hc'))
    exact hmem
  · obtain ⟨call, hcall, hsends, haccepted, hlost⟩ := hst.calls i d hd
    have hof := hsends.of
    obtain ⟨x, before_send, hx, hcommand⟩ := hsends
    obtain ⟨hm, hencoded⟩ := hw.encoded i x hx
    refine ⟨x.1, call, hm, hcall, hof, ?_, haccepted, fun hi => (hlost hi).resolve_left (by simp [hp])⟩
    rw [hcommand]
    exact hencoded
  · have hat := hst.phase
    cases error with
    | none =>
        simp only [Writer.At, hp] at hat
        simp [hat, hw.length]
    | some error =>
        simp only [Writer.At, hp] at hat
        have hlt := (hat hw.budget).1
        rw [hw.length] at hlt
        simp
        omega

/-- A timed call counts its own writes that were confirmed, when it is told how many. -/
theorem paired_of_return (hb : ∀ r, Booked (s.world.session.receivers r) (g r))
    (h : s.step l = some s') {ch : Channel} {messages : List PASSTHRU_MSG} {timeout : UInt32}
    (ht : timeout ≠ 0) (hc' : s'.writers c = some (.ok wr')) (hw : Batched ch messages timeout wr')
    (hopen : s.returned c = none) {error : Option Exception} (hp' : wr'.phase = .done error) :
    wr'.count = paired g ch c := by
  have htimeout : wr'.timeout ≠ 0 := hw.budget ▸ ht
  obtain ⟨hsame, -⟩ | ⟨_, _, _, _, -, -, -, hok⟩ | ⟨a, wr, -, hc, hgo, -⟩ := writers_of_step h hc'
  · simp [returned, hsame, hp'] at hopen
  · obtain ⟨r, payloads, -, -, -, -, rfl⟩ := Channel.write_ok hok
    cases hp'
  · have hreceiver := hgo.extends.receiver
    have hbudget := hgo.extends.timeout
    have hpaired : paired g ch c = s.confirmed c wr.receiver := by
      rw [paired, hw.receiver, hreceiver, confirmed_eq hb]
    rw [hpaired]
    rw [hbudget] at htimeout
    cases hgo with
    | report error hp => rfl
    | late before_send hp ht => simp [Writer.conclude, htimeout] at hp'
    | forget error hp => simp [Writer.conclude, htimeout] at hp'
    | refused d call response error hp => exact absurd hp' ((Writer.fail_open htimeout error) _)
    | usable error hp | stop error hp => exact absurd hp' ((Writer.fail_open htimeout error) _)
    | accepted d call response hp =>
        simp only [Writer.proceed] at hp'
        split_ifs at hp'
    | wait b wt wt' hp hs =>
        simp only [Writer.awaited] at hp'
        split at hp' <;> cases hp'
    | _ => cases hp'

theorem Unmade.paired (h : Unmade s g c) (hb : ∀ r, Booked (s.world.session.receivers r) (g r)) (ch : Channel) :
    paired g ch c = 0 := by
  unfold Desk.paired
  cases ch.receiver with
  | none => rfl
  | some r =>
      have hle := (hb r).sound.countP_settled_le (Noted.ofCall c)
      rw [List.countP_eq_length_filter (l := (g r).entries), h.2 r] at hle
      exact Nat.le_zero.mp hle

/-- The books at the step with which a call returns. -/
def Returned (protocol : ReceiverRef → UInt32) (ls : List Label) (c : TransmitCall)
    (x : Option Exception × Nat) (g : Books) : Prop :=
  ∃ ks l ms m t, ls = ks ++ l :: ms ∧
    Run.run (Run.recording step book) (opened protocol, fun _ => {}) ks = some (m, g) ∧
    m.returned c = none ∧ m.step l = some t ∧ t.returned c = some x

/-- What a timed call counts was paired when it returned. -/
theorem exists_returned {protocol : ReceiverRef → UInt32} {ls : List Label} {ch : Channel}
    {messages : List PASSTHRU_MSG} {timeout : UInt32} {error : Option Exception} {count : Nat}
    (hrun : Run.run step (opened protocol) ls = some s) (hx : s.returned c = some (error, count))
    (ht : timeout ≠ 0) (hw : ∀ wr, s.writers c = some (.ok wr) → Batched ch messages timeout wr) :
    ∃ g, Returned protocol ls c (error, count) g ∧ count = paired g ch c := by
  obtain ⟨ks, l, ms, m, t, rfl, hks, hopen, hstep, hret⟩ :=
    Run.exists_setting (f := fun s : Desk => s.returned c) (fun _ _ _ _ h hx => returned_of_step h hx) rfl hrun hx
  obtain ⟨g, hg⟩ := Run.exists_recording book hks fun _ => {}
  have hb := (books_run hg).2
  refine ⟨g, ⟨ks, l, ms, m, t, rfl, hg, hopen, hstep, hret⟩, ?_⟩
  have hms : Run.run step t ms = some s := by
    obtain ⟨m', hks', hrest⟩ := Run.run_append_iff.mp hrun
    obtain rfl := Option.some.inj (hks.symm.trans hks')
    obtain ⟨t', hstep', hrest⟩ := Run.run_cons_iff.mp hrest
    obtain rfl := Option.some.inj (hstep.symm.trans hstep')
    exact hrest
  cases hc : t.writers c with
  | none => simp [returned, hc] at hret
  | some y =>
      cases y with
      | error e =>
          have hzero : count = 0 := by
            simp only [returned, hc, Option.some.injEq, Prod.mk.injEq] at hret
            exact hret.2.symm
          have hunmade : Unmade m g c := (kept_run hg).unmade fun wr hwr => by
            obtain ⟨wr', hc', -⟩ := extends_of_step hstep hwr
            rw [hc] at hc'
            cases hc'
          rw [hzero, hunmade.paired hb]
      | ok wr =>
          obtain ⟨wr', hc', hext⟩ := extends_of_run hms hc
          have hw' := hw wr' hc'
          have hbatched : Batched ch messages timeout wr :=
            ⟨hext.receiver ▸ hw'.receiver, hext.timeout ▸ hw'.budget, hext.batch ▸ hw'.length,
              hext.batch ▸ hw'.encoded⟩
          cases hp : wr.phase with
          | done e =>
              simp only [returned, hc, hp, Option.some.injEq, Prod.mk.injEq] at hret
              rw [← hret.2]
              exact paired_of_return hb hstep ht hc hbatched hopen hp
          | _ => simp [returned, hc, hp] at hret

/-- What a timed call counts, it has noted, and sent but for one. -/
theorem count_le {protocol : ReceiverRef → UInt32} {ls : List Label} {ch : Channel}
    {messages : List PASSTHRU_MSG} {timeout : UInt32} {error : Option Exception}
    (hrun : Run.run (Run.recording step book) (opened protocol, fun _ => {}) ls = some (s, g))
    (ht : timeout ≠ 0) (hc : s.writers c = some (.ok wr)) (hw : Batched ch messages timeout wr)
    (hp : wr.phase = .done error) :
    wr.count ≤ recorded g ch c ∧ wr.count ≤ ls.countP (Label.sends c) + 1 ∧
      (error = none → wr.count = messages.length ∧ wr.count ≤ ls.countP (Label.sends c)) := by
  have hk := kept_run hrun
  obtain ⟨-, hb⟩ := books_run hrun
  have htells := tells_run hrun hc
  obtain ⟨hcount, hall⟩ := htells.told (hw.budget ▸ ht) error hp
  have hmade : wr.count ≤ wr.made := Nat.le_trans hcount (hk.confirmed_le hb hc)
  have hsent := htells.sent
  have hmade_le := (hk.stands hc).made_le
  refine ⟨?_, ?_, fun hnone => ?_⟩
  · unfold recorded
    rw [hw.receiver]
    calc wr.count ≤ s.confirmed c wr.receiver := hcount
      _ = (g wr.receiver).settled.countP fun e => e.1.ofCall c := confirmed_eq hb wr.receiver
      _ ≤ (g wr.receiver).entries.countP (Noted.ofCall c) := (hb wr.receiver).sound.countP_settled_le _
  · have hone : wr.made ≤ wr.index + 1 := by
      unfold Writer.made
      split <;> omega
    omega
  · have hat := (hk.stands hc).phase
    subst hnone
    simp only [Writer.At, hp] at hat
    have hfull := hall rfl
    have hlen := hw.length
    omega

/-- **What the count of a write tells.**  A batch with an invalid message is refused whole.  Without a
timeout the count is of the leading messages that the adapter has accepted.  With one it is of the
call's own records that were paired before it was read; a record is made before its message is sent,
so there is at most one more of them than of messages sent. -/
theorem count_accounted {protocol : ReceiverRef → UInt32} {ls : List Label} {ch : Channel}
    {messages : List PASSTHRU_MSG} {timeout : UInt32} {now : Int}
    (hrun : Run.run (Run.recording step book) (opened protocol, fun _ => {}) ls = some (s, g))
    (hcall : .write c ch messages timeout now ∈ ls) (hlen : 0 < messages.length) :
    ((∃ m ∈ messages, ∀ payload, encode_write ch.protocol m timeout ≠ .ok payload) →
      Unmade s g c ∧ ∃ error, s.returned c = some (some error, 0)) ∧
    ∀ error count, s.returned c = some (error, count) →
      (timeout = 0 →
        Accepts s c ch.protocol timeout messages count ∧ (error = none ↔ count = messages.length)) ∧
      (timeout ≠ 0 →
        (∃ i, Returned protocol ls c (error, count) i ∧ count = paired i ch c) ∧
        count ≤ recorded g ch c ∧ count ≤ ls.countP (Label.sends c) + 1 ∧
        (error = none → count = messages.length ∧ count ≤ ls.countP (Label.sends c))) := by
  have hk := kept_run hrun
  have hrun' := Run.run_of_recording hrun
  obtain ⟨e, hc⟩ | ⟨hvalid, wr, hc, hw⟩ := writer_of_call hrun' hcall
  · have hunmade : Unmade s g c := hk.unmade (by simp [hc])
    have hreturned : s.returned c = some (some e, 0) := by simp [returned, hc]
    refine ⟨fun _ => ⟨hunmade, e, hreturned⟩, fun error count hx => ?_⟩
    obtain ⟨rfl, rfl⟩ := Prod.mk.inj (Option.some.inj (hreturned.symm.trans hx))
    refine ⟨fun _ => ⟨?_, by simp; omega⟩, fun ht => ⟨?_, Nat.zero_le _, Nat.zero_le _, by simp⟩⟩
    · exact ⟨[], .nil, fun d call hd hof => absurd hof (hunmade.1 d call hd), Nat.le_refl _,
        Nat.zero_le _, by simp⟩
    · have hw : ∀ wr, s.writers c = some (.ok wr) → Batched ch messages timeout wr := by simp [hc]
      exact exists_returned hrun' hx ht hw
  · refine ⟨fun hinvalid => ?_, fun error count hx => ?_⟩
    · obtain ⟨m, hm, hinvalid⟩ := hinvalid
      obtain ⟨payload, hpayload⟩ := hvalid m hm
      exact absurd hpayload (hinvalid payload)
    · cases hp : wr.phase with
      | done e =>
          have hx' := hx
          simp only [returned, hc, hp, Option.some.injEq, Prod.mk.injEq] at hx'
          obtain ⟨rfl, rfl⟩ := hx'
          refine ⟨fun ht => ?_, fun ht => ⟨?_, count_le hrun ht hc hw hp⟩⟩
          · subst ht
            exact hk.accepts hc hw hp
          · have hw' : ∀ wr', s.writers c = some (.ok wr') → Batched ch messages timeout wr' := by
              intro wr' hc'
              obtain rfl := Except.ok.inj (Option.some.inj (hc.symm.trans hc'))
              exact hw
            exact exists_returned hrun' hx ht hw'
      | _ => simp [returned, hc, hp] at hx

/-- The message is noted and confirmed, and its command is out of time before it sends. -/
def unsent : List Label :=
  [.act 0 (.command 0 0 0), .act 0 (.act .slot), .act 0 (.act (.start 0)), .act 0 (.act .known), confirmation,
    .act 0 (.act (.budget 1000000000)), .act 0 (.act .undo), .act 0 .resume, .act 0 .usable, .act 0 .forget,
    .act 0 .report]

/-- So the write counts one message, and has sent none. -/
theorem count_exceeds_sent :
    ∃ s error, Run.run step (opened fun _ => CAN) (installed ++ requested :: unsent) = some s ∧
      s.returned 0 = some (error, 1) ∧ (installed ++ requested :: unsent).countP (Label.sends 0) < 1 := by
  have hdone : (Run.run step (opened fun _ => CAN) (installed ++ requested :: unsent)).bind (returned · 0) =
      some (some (.Error ERR_TIMEOUT "command deadline expired before write"), 1) := by
    decide +kernel
  obtain ⟨s, hrun, hs⟩ := Option.bind_eq_some_iff.mp hdone
  exact ⟨s, _, hrun, hs, by decide⟩

/-- It has noted it. -/
theorem count_accounted_unsent :
    ∃ s g error, Run.run (Run.recording step book) (opened fun _ => CAN, fun _ => {})
      (installed ++ requested :: unsent) = some (s, g) ∧ s.returned 0 = some (some error, 1) ∧
      1 ≤ recorded g { protocol := CAN, receiver := some 0 } 0 := by
  have hdone : (Run.run step (opened fun _ => CAN) (installed ++ requested :: unsent)).bind (returned · 0) =
      some (some (.Error ERR_TIMEOUT "command deadline expired before write"), 1) := by
    decide +kernel
  obtain ⟨s, hrun, hs⟩ := Option.bind_eq_some_iff.mp hdone
  obtain ⟨g, hg⟩ := Run.exists_recording book hrun fun _ => {}
  have hcall : requested ∈ installed ++ requested :: unsent := List.mem_append_right _ List.mem_cons_self
  exact ⟨s, g, _, hg, hs, (((count_accounted hg hcall (by decide)).2 _ _ hs).2 (by decide)).2.1⟩

end Desk

end Mongoose
