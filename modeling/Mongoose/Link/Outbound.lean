import Mongoose.Codec.Frames
import Mongoose.Link.Joined
import Mongoose.Session.Closing

/-!
# Mongoose.Link.Outbound

What the adapter reads of the commands.

A send that throws may have left the beginning of a frame on the wire, and the adapter
would take whatever follows for the rest of it.  `Dead` says why nothing follows: the
session is poisoned before another command can get to its send.  So the adapter finds
exactly the frames of the commands whose send has returned, in the order of the sends.
-/

namespace Mongoose

namespace Link

variable {strerror : Int → String} {protocol : ReceiverRef → UInt32} {fd wake : Int} {exclusive : Bool}
  {l₀ : Line Holder} {log₀ : Line.Log Holder} {as : List Label} {k k' : Link} {a : Label}

/-! ## after a failed send -/

/-- The session is poisoned, and every command is before its state check, or over. -/
def Spent (w : World) : Prop :=
  ¬ w.session.usable ∧ ∀ c call, w.calls c = some call → call.phase.Unchecked ∨ call.phase.Ended

/-- A command has learned, or is about to, that its send threw. -/
def Failing (k : Link) : Prop :=
  ∃ c call e, k.world.calls c = some call ∧ k.line.threads (.command c) = some (.threw e) ∧
    (call.phase = .sent ∨ ∃ e, call.phase = .abandon e)

/-- No command will send. -/
def Dead (k : Link) : Prop := Failing k ∨ Spent k.world

theorem Spent.step {w w' : World} {l : Mongoose.Label} (h : Spent w) (hstep : w.step l = some w') : Spent w' := by
  obtain ⟨hu, hall⟩ := h
  refine ⟨World.not_usable_of_step hstep hu, fun c call hc => ?_⟩
  obtain heq | ⟨cmd, now, -, -, heq⟩ | ⟨b, old, new, -, hold, heq, s, ht⟩ := World.calls_of_step hstep c
  · exact hall c call (heq ▸ hc)
  · obtain rfl := Option.some.inj (heq.symm.trans hc)
    rw [Call.enter]
    split
    · exact .inr trivial
    · exact .inl trivial
  · obtain rfl := Option.some.inj (heq.symm.trans hc)
    obtain hp | hp := hall c old hold
    · exact (ht.unchecked_or hp hu).2
    · obtain h | h := ht.unsent_or_sent
      · exact absurd h hp.not_unsent
      · exact absurd h hp.not_sent

/-- A command in its send holds `transaction_`, so there is no other. -/
theorem Dead.not_sent (h : Dead k) (hs : k.world.Sound) {c : CallId} {call : Call} (hc : k.world.calls c = some call)
    (hp : call.phase = .sent) : ∃ e, k.line.threads (.command c) = some (.threw e) := by
  obtain ⟨d, call', e, hd, hthrew, hp'⟩ | ⟨-, hall⟩ := h
  · have hholds' : call'.phase.Holds := by obtain hp' | ⟨e, hp'⟩ := hp' <;> rw [hp'] <;> trivial
    obtain rfl := hs.eq_of_holds hc hd (by rw [hp]; trivial) hholds'
    exact ⟨e, hthrew⟩
  · obtain h | h := hall c call hc <;> rw [hp] at h <;> exact h.elim

/-- Nobody is inside `send`. -/
theorem Dead.threads (h : Dead k) (hs : k.world.Sound) (hj : Joined k) {c : CallId} {v : Visit}
    (hv : k.line.threads (.command c) = some v) : v = .sent ∨ ∃ e, v = .threw e := by
  have hc := hj.commands c
  rw [hv] at hc
  cases hcall : k.world.calls c with
  | none => rw [hcall] at hc; cases hc
  | some call =>
      rw [hcall] at hc
      have hc : call.phase.Joined call.wire (some v) := hc
      cases hp : call.phase with
      | sent =>
          obtain ⟨e, he⟩ := h.not_sent hs hcall hp
          exact .inr ⟨e, Option.some.inj (hv.symm.trans he)⟩
      | abandon e =>
          rw [hp] at hc
          exact .inr ⟨e, Option.some.inj hc⟩
      | waiting | returned =>
          rw [hp] at hc
          exact .inl (Option.some.inj hc)
      | threw =>
          rw [hp] at hc
          obtain hc | hc | ⟨e, hc⟩ := hc
          · cases hc
          · exact .inl (Option.some.inj hc)
          · exact .inr ⟨e, Option.some.inj hc⟩
      | slot | started | allocated | known | sending | undo =>
          rw [hp] at hc
          cases hc

/-- A send that threw poisons the session. -/
theorem not_usable_abandon (s : Session) : ¬ (Call.release s.abandon).usable := by
  intro hu
  have hf : (if s.failure = "" then "write failed; reopen before retrying" else s.failure) = "" := hu.2
  by_cases hnone : s.failure = ""
  · rw [if_pos hnone] at hf
    exact absurd hf (by decide)
  · rw [if_neg hnone] at hf
    exact hnone hf

/-- The command that poisons the session was the only one with `transaction_`. -/
theorem spent_of_abandon {w w' : World} {c : CallId} {b : Action} {call : Call} (hs : w.Sound)
    (hc : w.calls c = some call) (hp : call.phase = .sent ∨ ∃ e, call.phase = .abandon e)
    (hout : Label.Outside (.act c b)) (hw : w.step (.act c b) = some w') : Spent w' := by
  obtain ⟨old, s, new, hold, hm, rfl⟩ := took_of_act hw
  obtain rfl := Option.some.inj (hold.symm.trans hc)
  have hothers (hend : new.phase.Ended) (d : CallId) (call' : Call) (hd : (w.put s c new).calls d = some call') :
      call'.phase.Unchecked ∨ call'.phase.Ended := by
    by_cases hdc : d = c
    · rw [hdc, World.put_calls_self] at hd
      exact .inr (Option.some.inj hd ▸ hend)
    · rw [World.put_calls_of_ne _ _ _ hdc] at hd
      have hholds : old.phase.Holds := by obtain hp | ⟨e, hp⟩ := hp <;> rw [hp] <;> trivial
      exact Phase.unchecked_or_of_not_holds fun hh => hdc (hs.eq_of_holds hd hold hh hholds)
  cases hm with
  | sendReturns | sendThrows => exact hout.elim
  | abandon e hp' => exact ⟨not_usable_abandon w.session, hothers trivial⟩
  | slot hp' | slotTimeout _ hp' | closing _ hp' | failed _ hp' | full _ _ hp' | oversize _ _ _ hp'
  | allocated _ _ _ hp' | known hp' | knownThrows _ _ hp' | late _ hp' | budget _ _ hp' | send _ hp' | undo _ hp'
  | woken _ hp' | answered _ hp' | expire _ hp' =>
      rw [hp'] at hp
      obtain hp | ⟨e, hp⟩ := hp <;> cases hp

/-- The command whose send threw learns it and poisons the session; nobody comes in between. -/
theorem Failing.step (h : Failing k) (hs : k.world.Sound) (hstep : step strerror k a = some k') : Dead k' := by
  obtain ⟨c, call, e, hc, hthrew, hp⟩ := h
  have hsame {l : Mongoose.Label} (hw : k.world.step l = some k'.world) (hl : l.call ≠ some c)
      (hthread : k'.line.threads (.command c) = k.line.threads (.command c)) : Dead k' :=
    .inl ⟨c, call, e, (calls_of_other hw hl).trans hc, hthread.trans hthrew, hp⟩
  have hover {l l' : Line Holder × Line.Log Holder} {b : Line.Label Holder} (hl : Line.logged strerror l b = some l')
      (hthrew : l.1.threads (.command c) = some (.threw e)) :
      l'.1.threads (.command c) = l.1.threads (.command c) :=
    Line.threads_of_over (Run.recording_eq_some_iff.mp hl).1 (.inr ⟨e, hthrew⟩)
  obtain ⟨l, hout, hw, hl⟩ | ⟨b, hin, hw, hl⟩ | ⟨d, call', n, hd, hp', hw, hl⟩ | ⟨d, ht, hw, hl⟩ |
    ⟨d, e', ht, hw, hl⟩ | ⟨bytes, hp', hw, hl⟩ | ⟨reason, hp', hw, hl⟩ | ⟨j, hw, hl⟩ | ⟨j, ht, hw, hl⟩ :=
    moved_of_step hstep
  · have hline : k'.line = k.line := congrArg Prod.fst hl
    obtain heq | ⟨cmd, now, -, hnone, -⟩ | ⟨b, old, new, rfl, hold, heq, s, hm⟩ := World.calls_of_step hw c
    · exact .inl ⟨c, call, e, heq.trans hc, hline ▸ hthrew, hp⟩
    · rw [hc] at hnone
      cases hnone
    · exact .inr (spent_of_abandon hs hc hp hout hw)
  · refine .inl ⟨c, call, e, by rw [hw]; exact hc, (hover hl hthrew).trans hthrew, hp⟩
  · refine hsame hw (fun hl => ?_) (hover hl hthrew)
    cases hl
    rw [Option.some.inj (hc.symm.trans hd), hp'] at hp
    obtain hp | ⟨e, hp⟩ := hp <;> cases hp
  · refine hsame hw (fun hl => ?_) (by rw [show k'.line = k.line from congrArg Prod.fst hl])
    cases hl
    rw [hthrew] at ht
    cases ht
  · have hline : k'.line = k.line := congrArg Prod.fst hl
    by_cases hdc : c = d
    · subst hdc
      obtain ⟨old, s, new, hold, hm, hput⟩ := took_of_act hw
      refine .inl ⟨c, new, e, by rw [hput, World.put_calls_self], hline ▸ hthrew, .inr ?_⟩
      cases hm
      exact ⟨e', rfl⟩
    · exact hsame hw (fun hl => hdc (Option.some.inj hl).symm) (by rw [hline])
  · exact hsame hw nofun (hover hl hthrew)
  · exact hsame hw nofun (hover hl hthrew)
  · exact hsame hw nofun (hover hl hthrew)
  · exact hsame hw nofun (by rw [show k'.line = k.line from congrArg Prod.fst hl])

theorem Dead.step (h : Dead k) (hs : k.world.Sound) (hstep : step strerror k a = some k') : Dead k' := by
  obtain h | h := h
  · exact h.step hs hstep
  · obtain ⟨l, b, -, hl, -⟩ := Product.step_eq_some_iff.mp hstep
    cases l with
    | none => exact .inr (by rw [show k'.world = k.world from congrArg Prod.fst (Option.some.inj hl).symm]; exact h)
    | some l => exact .inr (h.step (Run.recording_eq_some_iff.mp hl).1)

/-! ## what is written -/

/-- Only a thread that writes adds to what was written, and only one that is inside ends a send. -/
theorem log_of_quiet {l l' : Line Holder × Line.Log Holder} {b : Line.Label Holder}
    (hl : Line.logged strerror l b = some l')
    (hquiet : ∀ c v, l.1.threads (.command c) = some v → v = .sent ∨ ∃ e, v = .threw e)
    (hclosers : ∀ j v, l.1.threads (.close j) = some v → ∃ p, v = .stop p) :
    l'.2.written = l.2.written ∧ l'.2.ended = l.2.ended := by
  obtain ⟨l, log⟩ := l
  obtain ⟨l', log'⟩ := l'
  obtain ⟨hstep, rfl⟩ := Run.recording_eq_some_iff.mp hl
  obtain ⟨i, b, tty, v, rfl, hm, rfl⟩ | ⟨i, b, tty, p, rfl, hm, rfl⟩ | ⟨b, p, tty, rfl, hp, hm, rfl⟩ :=
    Line.step_cases hstep
  · have hnone : l.threads i = none := by
      cases hi : l.threads i with
      | none => rfl
      | some u =>
          rw [hi] at hm
          obtain ⟨hstop, hsent, hthrew⟩ := hm.goes
          cases i with
          | command c =>
              obtain hu | ⟨e, hu⟩ := hquiet c u hi
              · exact absurd hu hsent
              · exact absurd hu (hthrew e)
          | close j =>
              obtain ⟨p, hu⟩ := hclosers j u hi
              exact absurd hu (hstop p)
    rw [hnone] at hm
    obtain ⟨data, timeout, rfl⟩ := hm.enters
    exact ⟨rfl, rfl⟩
  · exact log.note_of_stop strerror l i b l
  · exact log.note_of_pump strerror l b l

/-- Nothing is written any more. -/
theorem Dead.log (h : Dead k) (hs : k.world.Sound) (hj : Joined k) (hstep : Link.step strerror k a = some k') :
    k'.log.written = k.log.written ∧ k'.log.ended = k.log.ended := by
  obtain ⟨l, b, -, -, hb⟩ := Product.step_eq_some_iff.mp hstep
  cases b with
  | none =>
      rw [show k'.log = k.log from congrArg Prod.snd (Option.some.inj hb).symm]
      exact ⟨rfl, rfl⟩
  | some b =>
      exact log_of_quiet hb (fun c v hv => h.threads hs hj hv) fun j v hv => hj.closer_stops hv

/-- Data inside `send` is the frame of the command whose thread it is. -/
theorem command_of_data (hj : Joined k) {i : Holder} {u : Visit} {data : Bytes} (hu : k.line.threads i = some u)
    (hd : u.data = some data) :
    ∃ c call, i = .command c ∧ k.world.calls c = some call ∧ call.phase = .sent ∧ data = call.wire := by
  cases i with
  | close j =>
      obtain ⟨p, rfl⟩ := hj.closer_stops hu
      cases hd
  | command c =>
      have hc := hj.commands c
      rw [hu] at hc
      cases hcall : k.world.calls c with
      | none => rw [hcall] at hc; cases hc
      | some call =>
          rw [hcall] at hc
          have hc : call.phase.Joined call.wire (some u) := hc
          refine ⟨c, call, rfl, hcall, ?_⟩
          have hnot : u ≠ .sent ∧ ∀ e, u ≠ .threw e := by
            constructor
            · rintro rfl
              cases hd
            · rintro e rfl
              cases hd
          cases hp : call.phase with
          | sent =>
              rw [hp] at hc
              obtain ⟨v, hv, hcarries⟩ := hc
              obtain rfl := Option.some.inj hv
              refine ⟨rfl, ?_⟩
              cases u with
              | entering | checking =>
                  cases hd
                  exact hcarries
              | tracing s | writing s =>
                  cases hd
                  exact hcarries
              | sent | threw | stop => cases hd
          | abandon e =>
              rw [hp] at hc
              exact absurd (Option.some.inj hc) (hnot.2 e)
          | waiting | returned =>
              rw [hp] at hc
              exact absurd (Option.some.inj hc) hnot.1
          | threw =>
              rw [hp] at hc
              obtain hc | hc | ⟨e, hc⟩ := hc
              · cases hc
              · exact absurd (Option.some.inj hc) hnot.1
              · exact absurd (Option.some.inj hc) (hnot.2 e)
          | slot | started | allocated | known | sending | undo =>
              rw [hp] at hc
              cases hc

/-- The command of a send that is over. -/
def Owned (k : Link) (p : Holder × Sending) : Prop :=
  ∃ c call, p.1 = .command c ∧ k.world.calls c = some call ∧ call.allocated ≠ 0 ∧ p.2.data = call.wire

/-- What holds of the sends: all have returned, or all but the last and the session is dead. -/
structure Whole (k : Link) : Prop where
  threw : ∀ c e, k.line.threads (.command c) = some (.threw e) → Dead k
  ended : (∀ p ∈ k.log.ended, p.2.phase = .returned) ∨
    ∃ good bad, k.log.ended = good ++ [bad] ∧ (∀ p ∈ good, p.2.phase = .returned) ∧ bad.2.phase ≠ .returned ∧ Dead k
  owned : ∀ p ∈ k.log.ended, Owned k p

/-- A send that throws makes the session dead. -/
theorem Whole.threw_step (h : Whole k) (hs : k.world.Sound) (hj : Joined k) (hstep : Link.step strerror k a = some k')
    (c : CallId) (e : Exception) (ht : k'.line.threads (.command c) = some (.threw e)) : Dead k' := by
  have hold (hsame : k'.line.threads (.command c) = k.line.threads (.command c)) : Dead k' :=
    (h.threw c e (hsame ▸ ht)).step hs hstep
  obtain ⟨l, hout, hw, hl⟩ | ⟨b, hin, hw, hl⟩ | ⟨d, call', n, hd, hp', hw, hl⟩ | ⟨d, ht', hw, hl⟩ |
    ⟨d, e', ht', hw, hl⟩ | ⟨bytes, hp', hw, hl⟩ | ⟨reason, hp', hw, hl⟩ | ⟨j, hw, hl⟩ | ⟨j, ht', hw, hl⟩ :=
    moved_of_step hstep
  · exact hold (by rw [show k'.line = k.line from congrArg Prod.fst hl])
  · obtain heq | ⟨b, v, rfl, heq, hm⟩ | ⟨b, p, rfl, heq, hm⟩ :=
      Line.thread_of_step (Run.recording_eq_some_iff.mp hl).1 (.command c)
    · exact hold heq
    · cases hu : k.line.threads (.command c) with
      | none =>
          rw [hu] at hm
          obtain ⟨data, timeout, rfl⟩ := hm.enters
          exact hin.elim
      | some u =>
          rw [hu] at hm
          have hc := hj.commands c
          rw [hu] at hc
          cases hcall : k.world.calls c with
          | none => rw [hcall] at hc; cases hc
          | some call =>
              rw [hcall] at hc
              obtain ⟨hp, -⟩ := Phase.Joined.sent (p := call.phase) hc hm
              exact .inl ⟨c, call, e, by rw [hw]; exact hcall, ht, .inl hp⟩
    · rw [heq] at ht
      cases ht
  · by_cases hdc : c = d
    · subst hdc
      obtain ⟨old, s, new, hc, hm, hput⟩ := took_of_act hw
      refine .inl ⟨c, new, e, by rw [hput, World.put_calls_self], ht, .inl ?_⟩
      cases hm
      rfl
    · exact hold (threads_of_logged hl (fun b hb => hdc (by cases hb; rfl)) nofun)
  · exact hold (by rw [show k'.line = k.line from congrArg Prod.fst hl])
  · exact hold (by rw [show k'.line = k.line from congrArg Prod.fst hl])
  · exact hold (threads_of_logged hl nofun nofun)
  · exact hold (threads_of_logged hl nofun nofun)
  · exact hold (threads_of_logged hl nofun nofun)
  · exact hold (by rw [show k'.line = k.line from congrArg Prod.fst hl])

/-- A step ends at most the send of the command that holds `transaction_`. -/
theorem ended_of_step (hj : Joined k) (hserial : k.line.Serial k.log) (hstep : Link.step strerror k a = some k') :
    k'.log.ended = k.log.ended ∨ k'.world = k.world ∧ ∃ c call t, k'.log.ended = k.log.ended ++ [(.command c, t)] ∧
      k.world.calls c = some call ∧ call.phase = .sent ∧ t.data = call.wire ∧
      (t.phase = .returned ∨ ∃ e, k'.line.threads (.command c) = some (.threw e)) := by
  have hnote {b : Line.Label Holder} (hl : Line.logged strerror k.2 b = some k'.2) :
      k'.log = k.log.note strerror k.line b k'.line := (Run.recording_eq_some_iff.mp hl).2
  obtain ⟨l, hout, hw, hl⟩ | ⟨b, hin, hw, hl⟩ | ⟨d, call', n, hd, hp', hw, hl⟩ | ⟨d, ht', hw, hl⟩ |
    ⟨d, e', ht', hw, hl⟩ | ⟨bytes, hp', hw, hl⟩ | ⟨reason, hp', hw, hl⟩ | ⟨j, hw, hl⟩ | ⟨j, ht', hw, hl⟩ :=
    moved_of_step hstep
  · exact .inl (by rw [show k'.log = k.log from congrArg Prod.snd hl])
  · obtain he | ⟨i, u, t, he, hu, hd, hv⟩ := hserial.ended_of_step (Run.recording_eq_some_iff.mp hl).1
    · exact .inl (by rw [hnote hl, he])
    · obtain ⟨c, call, rfl, hc, hp, hdata⟩ := command_of_data hj hu hd
      refine .inr ⟨hw, c, call, t, by rw [hnote hl, he], hc, hp, hdata, ?_⟩
      exact hv.imp And.right fun ⟨e, he, _⟩ => ⟨e, he⟩
  · exact .inl (by rw [hnote hl]; rfl)
  · exact .inl (by rw [show k'.log = k.log from congrArg Prod.snd hl])
  · exact .inl (by rw [show k'.log = k.log from congrArg Prod.snd hl])
  · exact .inl (by rw [hnote hl]; exact (k.log.note_of_pump ..).2)
  · exact .inl (by rw [hnote hl]; exact (k.log.note_of_pump ..).2)
  · exact .inl (by rw [hnote hl]; exact (k.log.note_of_stop ..).2)
  · exact .inl (by rw [show k'.log = k.log from congrArg Prod.snd hl])

/-- The command of a send that is over keeps its frame. -/
theorem Owned.step {p : Holder × Sending} (h : Owned k p) (hstep : Link.step strerror k a = some k')
    (hs : ∀ c call, k.world.calls c = some call → call.phase = .started → call.allocated = 0) : Owned k' p := by
  obtain ⟨c, call, hi, hc, ha, hdata⟩ := h
  obtain ⟨l, b, -, hl, -⟩ := Product.step_eq_some_iff.mp hstep
  cases l with
  | none =>
      refine ⟨c, call, hi, ?_, ha, hdata⟩
      rw [show k'.world = k.world from congrArg Prod.fst (Option.some.inj hl).symm]
      exact hc
  | some l =>
      obtain heq | ⟨cmd, now, -, hnone, -⟩ | ⟨b, old, new, -, hold, heq, s, hm⟩ :=
        World.calls_of_step (Run.recording_eq_some_iff.mp hl).1 c
      · exact ⟨c, call, hi, heq.trans hc, ha, hdata⟩
      · rw [hc] at hnone
        cases hnone
      · obtain rfl := Option.some.inj (hold.symm.trans hc)
        refine ⟨c, new, hi, heq, ?_⟩
        cases hm with
        | allocated now q wire hp => exact absurd (hs c _ hc hp) ha
        | _ => exact ⟨ha, hdata⟩

theorem Whole.step (h : Whole k) (hs : k.world.Sound) (hj : Joined k) (hserial : k.line.Serial k.log)
    (hfresh : ∀ c call, k.world.calls c = some call → call.phase = .started → call.allocated = 0)
    (hstep : Link.step strerror k a = some k') : Whole k' := by
  have hthrew := h.threw_step hs hj hstep
  obtain he | ⟨hw, c, call, t, he, hc, hp, hdata, hend⟩ := ended_of_step hj hserial hstep
  · refine ⟨hthrew, ?_, ?_⟩
    · rw [he]
      exact h.ended.imp id fun ⟨good, bad, hgood, hall, hbad, hdead⟩ =>
        ⟨good, bad, hgood, hall, hbad, hdead.step hs hstep⟩
    · rw [he]
      exact fun p hp => (h.owned p hp).step hstep hfresh
  · -- a dead session ends no send
    have hgood : ∀ p ∈ k.log.ended, p.2.phase = .returned := by
      obtain hall | ⟨-, -, -, -, -, hdead⟩ := h.ended
      · exact hall
      · rw [(hdead.log hs hj hstep).2] at he
        simp at he
    refine ⟨hthrew, ?_, fun p hmem => ?_⟩
    · by_cases hret : t.phase = .returned
      · refine .inl fun p hmem => ?_
        rw [he, List.mem_append, List.mem_singleton] at hmem
        obtain hmem | rfl := hmem
        · exact hgood p hmem
        · exact hret
      · obtain hend | ⟨e, ht⟩ := hend
        · exact absurd hend hret
        · exact .inr ⟨k.log.ended, _, he, hgood, hret, hthrew c e ht⟩
    · rw [he, List.mem_append, List.mem_singleton] at hmem
      obtain hmem | rfl := hmem
      · exact (h.owned p hmem).step hstep hfresh
      · have hpos := (hs.owns hc (by rw [hp]; trivial)).pos
        exact ⟨c, call, rfl, by rw [hw]; exact hc, by omega, hdata⟩

/-- Nothing was sent before the check. -/
theorem fresh_run {ls : List Mongoose.Label} {w : World}
    (h : Run.run World.step (World.opened protocol) ls = some w) {c : CallId} {call : Call}
    (hc : w.calls c = some call) (hp : call.phase.Unchecked) : call.allocated = 0 := by
  have hlog := World.logged_run h c
  rw [hc] at hlog
  exact hlog.2.2 hp

theorem whole_run (hfd : 0 ≤ fd) (hne : wake ≠ fd) (hinit : Line.Started strerror fd wake exclusive l₀ log₀)
    (h : Run.run (step strerror) (opened protocol l₀ log₀) as = some k) : Whole k := by
  refine Run.run_induction (P := fun _ k => Whole k) ?_ ?_ h
  · obtain ⟨fds, hstart, rfl⟩ := hinit
    have hthreads := Line.threads_of_start hstart
    exact ⟨fun c e ht => (nomatch (congrFun hthreads _).symm.trans ht), .inl nofun, nofun⟩
  · intro bs m b m' hm hwhole hstep
    obtain ⟨-, ks, hrun⟩ := sides hm
    obtain ⟨ls, hworld⟩ := world_run hm
    exact hwhole.step (sound hm) (joined_run hfd hne hinit hm) (Line.serial_run hfd hne hinit hrun).1
      (fun c call hc hp => fresh_run hworld hc (by rw [hp]; trivial)) hstep

/-! ## the order of the sends -/

/-- The command that enters its send. -/
def Label.sends : Label → Option CallId
  | .send c => some c
  | _ => none

/-- The command of a send that has returned. -/
def returned (p : Holder × Sending) : Option CallId :=
  match p with
  | (.command c, s) => if s.phase = .returned then some c else none
  | _ => none

theorem returned_eq_some {p : Holder × Sending} {c : CallId} :
    returned p = some c ↔ p.1 = .command c ∧ p.2.phase = .returned := by
  obtain ⟨i, s⟩ := p
  cases i with
  | close j => simp [returned]
  | command d => simp [returned, and_comm]

/-- The commands whose send has returned are those at the end of it. -/
theorem mem_returned (hserial : k.line.Serial k.log) (honce : k.line.Once k.log) {c : CallId} :
    c ∈ k.log.ended.filterMap returned ↔ k.line.threads (.command c) = some .sent := by
  rw [List.mem_filterMap]
  constructor
  · rintro ⟨p, hmem, hret⟩
    obtain ⟨hi, hp⟩ := returned_eq_some.mp hret
    obtain ⟨ht, -⟩ | ⟨e, -, he⟩ := honce.finished p hmem
    · rwa [hi] at ht
    · rw [he] at hp
      cases hp
  · intro ht
    obtain ⟨s, hmem, hp⟩ := hserial.threads _ _ ht
    exact ⟨_, hmem, returned_eq_some.mpr ⟨rfl, hp⟩⟩

/-- No command was sent twice. -/
theorem nodup_returned (honce : k.line.Once k.log) : (k.log.ended.filterMap returned).Nodup := by
  refine List.pairwise_filterMap.mpr ((List.pairwise_map.mp honce.nodup).imp fun hne c hc d hd hcd => hne ?_)
  rw [(returned_eq_some.mp hc).1, (returned_eq_some.mp hd).1, hcd]

/-- The commands that were sent are those whose send returned, and at most one more. -/
structure Ordered (as : List Label) (k : Link) : Prop where
  began : ∀ c call, k.world.calls c = some call → call.phase = .sent → c ∈ as.filterMap Label.sends
  order : ∃ rest, as.filterMap Label.sends = k.log.ended.filterMap returned ++ rest ∧
    (rest = [] ∨ ∃ c, rest = [c] ∧ ((∃ call, k.world.calls c = some call ∧ call.phase = .sent ∧
      k.line.threads (.command c) ≠ some .sent) ∨ Dead k))

/-- A dead session has no command that is about to send. -/
theorem Dead.not_sending (h : Dead k) (hs : k.world.Sound) {c : CallId} {call : Call} {n : Int}
    (hc : k.world.calls c = some call) (hp : call.phase = .sending n) : False := by
  obtain ⟨d, call', e, hd, -, hp'⟩ | ⟨-, hall⟩ := h
  · have hholds' : call'.phase.Holds := by obtain hp' | ⟨e, hp'⟩ := hp' <;> rw [hp'] <;> trivial
    obtain rfl := hs.eq_of_holds hc hd (by rw [hp]; trivial) hholds'
    rw [Option.some.inj (hd.symm.trans hc), hp] at hp'
    obtain hp' | ⟨e, hp'⟩ := hp' <;> cases hp'
  · obtain h | h := hall c call hc <;> rw [hp] at h <;> exact h.elim

/-- A command in its send goes on, comes to its end, or makes the session dead. -/
theorem sent_step (hs : k.world.Sound) (hstep : Link.step strerror k a = some k') (hdead : ∀ c e,
      k'.line.threads (.command c) = some (.threw e) → Dead k') {c : CallId} {call : Call}
    (hc : k.world.calls c = some call) (hp : call.phase = .sent)
    (ht : k.line.threads (.command c) ≠ some .sent) :
    (∃ call', k'.world.calls c = some call' ∧ call'.phase = .sent) ∨ Dead k' := by
  obtain ⟨l, hout, hw, hl⟩ | ⟨b, hin, hw, hl⟩ | ⟨d, call', n, hd, hp', hw, hl⟩ | ⟨d, ht', hw, hl⟩ |
    ⟨d, e', ht', hw, hl⟩ | ⟨bytes, hp', hw, hl⟩ | ⟨reason, hp', hw, hl⟩ | ⟨j, hw, hl⟩ | ⟨j, ht', hw, hl⟩ :=
    moved_of_step hstep
  · obtain heq | ⟨cmd, now, -, hnone, -⟩ | ⟨b, old, new, rfl, hold, heq, s, hm⟩ := World.calls_of_step hw c
    · exact .inl ⟨call, heq.trans hc, hp⟩
    · rw [hc] at hnone
      cases hnone
    · exact .inr (.inr (spent_of_abandon hs hc (.inl hp) hout hw))
  · exact .inl ⟨call, by rw [hw]; exact hc, hp⟩
  · refine .inl ⟨call, (calls_of_other hw fun hl => ?_).trans hc, hp⟩
    cases hl
    rw [Option.some.inj (hc.symm.trans hd), hp'] at hp
    cases hp
  · refine .inl ⟨call, (calls_of_other hw fun hl => ?_).trans hc, hp⟩
    cases hl
    exact ht ht'
  · by_cases hdc : c = d
    · subst hdc
      exact .inr (hdead c e' (by rw [show k'.line = k.line from congrArg Prod.fst hl]; exact ht'))
    · exact .inl ⟨call, (calls_of_other hw fun hl => hdc (Option.some.inj hl).symm).trans hc, hp⟩
  · exact .inl ⟨call, (calls_of_other hw nofun).trans hc, hp⟩
  · exact .inl ⟨call, (calls_of_other hw nofun).trans hc, hp⟩
  · exact .inl ⟨call, (calls_of_other hw nofun).trans hc, hp⟩
  · exact .inl ⟨call, (calls_of_other hw nofun).trans hc, hp⟩

/-- A command is in its send since it entered it. -/
theorem sent_of_step (hstep : Link.step strerror k a = some k') {c : CallId} {call : Call}
    (hc : k'.world.calls c = some call) (hp : call.phase = .sent) : k.world.calls c = some call ∨ a = .send c := by
  have hact {l : Mongoose.Label} (hw : k.world.step l = some k'.world) (hl : l ≠ .act c .send) :
      k.world.calls c = some call := by
    obtain heq | ⟨cmd, now, -, -, heq⟩ | ⟨b, old, new, rfl, -, heq, s, hm⟩ := World.calls_of_step hw c
    · exact heq.symm.trans hc
    · rw [← Option.some.inj (heq.symm.trans hc), Call.enter] at hp
      split at hp <;> cases hp
    · rw [← Option.some.inj (heq.symm.trans hc)] at hp
      cases hm with
      | send => exact absurd rfl hl
      | known | knownThrows | late | budget => cases hp
      | _ => cases hp
  obtain ⟨l, hout, hw, hl⟩ | ⟨b, hin, hw, hl⟩ | ⟨d, call', n, hd, hp', hw, hl⟩ | ⟨d, ht', hw, hl⟩ |
    ⟨d, e', ht', hw, hl⟩ | ⟨bytes, hp', hw, hl⟩ | ⟨reason, hp', hw, hl⟩ | ⟨j, hw, hl⟩ | ⟨j, ht', hw, hl⟩ :=
    moved_of_step hstep
  · refine .inl (hact hw ?_)
    rintro rfl
    exact hout
  · exact .inl (by rw [← hw]; exact hc)
  · by_cases hdc : c = d
    · exact .inr (hdc ▸ rfl)
    · exact .inl (hact hw fun hl => hdc (by cases hl; rfl))
  · exact .inl (hact hw (by simp))
  · exact .inl (hact hw (by simp))
  · exact .inl (hact hw (by simp))
  · exact .inl (hact hw (by simp))
  · exact .inl (hact hw (by simp))
  · exact .inl (hact hw (by simp))

/-- What a step adds to the commands that were sent. -/
theorem sends_concat (as : List Label) (a : Label) :
    (as ++ [a]).filterMap Label.sends = as.filterMap Label.sends ++ a.sends.toList := by
  rw [List.filterMap_append]
  cases h : a.sends <;> simp [h]

/-- Whose turn it is when a command enters its send. -/
theorem Ordered.send (h : Ordered as k) (hs : k.world.Sound) {c : CallId}
    (hstep : Link.step strerror k (.send c) = some k') :
    k'.log.ended = k.log.ended ∧ as.filterMap Label.sends = k.log.ended.filterMap returned ∧
      ∃ call, k'.world.calls c = some call ∧ call.phase = .sent ∧ k'.line.threads (.command c) ≠ some .sent := by
  obtain _ | _ | ⟨_, call, n, hc, hp, hw, hl⟩ := moved_of_step hstep
  refine ⟨?_, ?_, ?_⟩
  · have hlog : k'.log = k.log := (Run.recording_eq_some_iff.mp hl).2
    rw [hlog]
  · obtain ⟨rest, horder, rfl | ⟨d, rfl, ⟨call', hd, hp', -⟩ | hdead⟩⟩ := h.order
    · rw [horder, List.append_nil]
    · obtain rfl := hs.eq_of_holds hc hd (by rw [hp]; trivial) (by rw [hp']; trivial)
      rw [Option.some.inj (hd.symm.trans hc), hp] at hp'
      cases hp'
    · exact (hdead.not_sending hs hc hp).elim
  · obtain ⟨old, s, new, -, hm, hput⟩ := took_of_act hw
    obtain ⟨v, hv, -, hne⟩ := carries_of_enter (Run.recording_eq_some_iff.mp hl).1
    refine ⟨new, by rw [hput, World.put_calls_self], ?_, fun h => hne (Option.some.inj (hv.symm.trans h))⟩
    cases hm
    rfl

theorem Ordered.step (h : Ordered as k) (hs : k.world.Sound) (hj : Joined k) (hserial : k.line.Serial k.log)
    (honce : k.line.Once k.log) (hserial' : k'.line.Serial k'.log) (honce' : k'.line.Once k'.log)
    (hwhole : Whole k') (hstep : Link.step strerror k a = some k') : Ordered (as ++ [a]) k' := by
  have hbegan : ∀ c call, k'.world.calls c = some call → call.phase = .sent →
      c ∈ (as ++ [a]).filterMap Label.sends := fun c call hc hp => by
    rw [sends_concat]
    obtain hc | rfl := sent_of_step hstep hc hp
    · exact List.mem_append_left _ (h.began c call hc hp)
    · exact List.mem_append_right _ (by simp [Label.sends])
  refine ⟨hbegan, ?_⟩
  rw [sends_concat]
  by_cases ha : ∃ c, a = .send c
  · obtain ⟨c, rfl⟩ := ha
    obtain ⟨he, horder, hsent⟩ := h.send hs hstep
    exact ⟨[c], by rw [he, horder]; rfl, .inr ⟨c, rfl, .inl hsent⟩⟩
  have hnone : a.sends = none := by
    cases a with
    | send c => exact absurd ⟨c, rfl⟩ ha
    | _ => rfl
  rw [hnone]
  obtain ⟨rest, horder, hrest⟩ := h.order
  obtain he | ⟨hw, c, call, t, he, hc, hp, -, hend⟩ := ended_of_step hj hserial hstep
  · refine ⟨rest, by rw [he, horder]; simp, ?_⟩
    obtain hrest | ⟨c, hrest, ⟨call, hc, hp, ht⟩ | hdead⟩ := hrest
    · exact .inl hrest
    · refine .inr ⟨c, hrest, ?_⟩
      obtain ⟨call', hc', hp'⟩ | hdead := sent_step hs hstep hwhole.threw hc hp ht
      · refine .inl ⟨call', hc', hp', fun hsent => ht ?_⟩
        -- the send would have ended in this step
        obtain ⟨s, hmem, hret⟩ := hserial'.threads _ _ hsent
        obtain ⟨ht', -⟩ | ⟨e, -, hthrew⟩ := honce.finished _ (he ▸ hmem)
        · exact ht'
        · rw [hthrew] at hret
          cases hret
      · exact .inr hdead
    · exact .inr ⟨c, hrest, .inr (hdead.step hs hstep)⟩
  · -- the send that ends is the one that was not over
    have hfresh : c ∉ k.log.ended.filterMap returned := fun hmem => by
      have hdup := honce'.nodup
      rw [he, List.map_append] at hdup
      obtain ⟨p, hmem, hret⟩ := List.mem_filterMap.mp hmem
      exact (List.nodup_append.mp hdup).2.2 _ (List.mem_map_of_mem hmem) _ (by simp) (returned_eq_some.mp hret).1
    have hrest : rest = [c] := by
      have hmem := h.began c call hc hp
      rw [horder, List.mem_append] at hmem
      obtain hmem | hmem := hmem
      · exact absurd hmem hfresh
      · obtain rfl | ⟨d, rfl, -⟩ := hrest
        · cases hmem
        · rw [List.mem_singleton] at hmem
          rw [hmem]
    by_cases hret : t.phase = .returned
    · refine ⟨[], ?_, .inl rfl⟩
      rw [he, horder, hrest, List.filterMap_append]
      simp [returned, hret]
    · refine ⟨[c], ?_, .inr ⟨c, rfl, .inr ?_⟩⟩
      · rw [he, horder, hrest, List.filterMap_append]
        simp [returned, hret]
      · obtain hend | ⟨e, ht⟩ := hend
        · exact absurd hend hret
        · exact hwhole.threw c e ht

theorem ordered_run (hfd : 0 ≤ fd) (hne : wake ≠ fd) (hinit : Line.Started strerror fd wake exclusive l₀ log₀)
    (h : Run.run (step strerror) (opened protocol l₀ log₀) as = some k) : Ordered as k := by
  refine Run.run_induction (P := fun as k => Ordered as k) ?_ ?_ h
  · obtain ⟨fds, -, rfl⟩ := hinit
    exact ⟨nofun, [], rfl, .inl rfl⟩
  · intro bs m b m' hm hord hstep
    have hm' := Run.run_concat hm hstep
    obtain ⟨-, ks, hrun⟩ := sides hm
    obtain ⟨-, ks', hrun'⟩ := sides hm'
    obtain ⟨hserial, -, honce⟩ := Line.serial_run hfd hne hinit hrun
    obtain ⟨hserial', -, honce'⟩ := Line.serial_run hfd hne hinit hrun'
    exact hord.step (sound hm) (joined_run hfd hne hinit hm) hserial honce hserial' honce'
      (whole_run hfd hne hinit hm') hstep

/-! ## the stream -/

/-- The body of the command. -/
def BodyOf (w : World) (c : CallId) (body : Bytes) : Prop :=
  ∃ call, w.calls c = some call ∧ request call.command.opcode call.allocated call.command.payload
    call.command.destination call.command.chan = .ok body

/-- The data of a send that is over is a frame. -/
theorem Owned.frame {p : Holder × Sending} (h : Owned k p) {ls : List Mongoose.Label}
    (hrun : Run.run World.step (World.opened protocol) ls = some k.world) :
    ∃ c body, p.1 = .command c ∧ BodyOf k.world c body ∧ encode body = .ok p.2.data := by
  obtain ⟨c, call, hi, hc, ha, hdata⟩ := h
  obtain ⟨body, hbody, hwire⟩ := framed_run hrun hc ha
  exact ⟨c, body, hi, ⟨call, hc, hbody⟩, hdata ▸ hwire⟩

/-- The sends that have returned wrote whole frames. -/
theorem frames_of_returned {ended : List (Holder × Sending)} {ls : List Mongoose.Label}
    (hrun : Run.run World.step (World.opened protocol) ls = some k.world)
    (hvalid : ∀ p ∈ ended, p.2.Valid) (hret : ∀ p ∈ ended, p.2.phase = .returned) (howned : ∀ p ∈ ended, Owned k p) :
    ∃ bodies, List.Forall₂ (BodyOf k.world) (ended.filterMap returned) bodies ∧
      frames bodies = .ok (ended.flatMap fun p => p.2.accepted) := by
  induction ended with
  | nil => exact ⟨[], .nil, rfl⟩
  | cons p ps ih =>
      obtain ⟨bodies, hbodies, hframes⟩ := ih (fun q hq => hvalid q (List.mem_cons_of_mem _ hq))
        (fun q hq => hret q (List.mem_cons_of_mem _ hq)) fun q hq => howned q (List.mem_cons_of_mem _ hq)
      obtain ⟨i, s⟩ := p
      obtain ⟨c, body, rfl, hbody, hwire⟩ := (howned _ List.mem_cons_self).frame hrun
      have hp : s.phase = .returned := hret _ List.mem_cons_self
      have hall := (hvalid _ List.mem_cons_self).returned_iff.mp hp
      refine ⟨body :: bodies, ?_, ?_⟩
      · rw [List.filterMap_cons_some (b := c) (by simp [returned, hp])]
        exact .cons hbody hbodies
      · rw [frames, hwire, hframes, List.flatMap_cons, hall]
        rfl

/-- What a send has written before it is through is the beginning of a frame. -/
theorem verdict_of_accepted {s : Sending} {body : Bytes} (hvalid : s.Valid) (hret : s.phase ≠ .returned)
    (hwire : encode body = .ok s.data) : frameVerdict s.accepted = .wait := by
  refine frameVerdict_take hwire (Nat.lt_of_le_of_ne hvalid.2.sent_le fun heq => hret ?_)
  exact hvalid.2.returned.mpr heq

/-- A dead session writes nothing any more. -/
theorem Dead.run (hfd : 0 ≤ fd) (hne : wake ≠ fd) (hinit : Line.Started strerror fd wake exclusive l₀ log₀)
    (h : Run.run (Link.step strerror) (opened protocol l₀ log₀) as = some k) (hdead : Dead k) {bs : List Label}
    (hrun : Run.run (Link.step strerror) k bs = some k') : k'.log.written = k.log.written := by
  refine (Run.run_induction (P := fun _ m => Dead m ∧ m.log.written = k.log.written) ⟨hdead, rfl⟩ ?_ hrun).2
  rintro cs m b m' hm ⟨hdead, hw⟩ hstep
  have hm := Run.run_append h hm
  have hs := sound hm
  exact ⟨hdead.step hs hstep, (hdead.log hs (joined_run hfd hne hinit hm) hstep).1.trans hw⟩

/-- The stream after a number of whole sends, and perhaps a part of one more. -/
theorem stream_of_whole (hs : k.world.Sound) (hj : Joined k) (hserial : k.line.Serial k.log) (hwhole : Whole k)
    {ls : List Mongoose.Label} (hrun : Run.run World.step (World.opened protocol) ls = some k.world) :
    ∃ bodies tail, List.Forall₂ (BodyOf k.world) (k.log.ended.filterMap returned) bodies ∧
      Probe.deframe k.log.written = (bodies, 0, tail) := by
  obtain hret | ⟨good, bad, hgood, hret, hbad, hdead⟩ := hwhole.ended
  · obtain ⟨bodies, hbodies, hframes⟩ := frames_of_returned hrun (fun p hp => (hserial.ended p hp).1) hret hwhole.owned
    by_cases hw : ∃ i s, k.line.threads i = some (.writing s)
    · -- one send is under way
      obtain ⟨i, s, hi⟩ := hw
      obtain ⟨hvalid, hnot, hwritten⟩ := hserial.threads i _ hi
      obtain ⟨c, call, rfl, hc, hp, hdata⟩ := command_of_data hj hi rfl
      have hpos := (hs.owns hc (by rw [hp]; trivial)).pos
      obtain ⟨body, -, hwire⟩ := framed_run hrun hc (by omega)
      refine ⟨bodies, s.accepted, hbodies, ?_⟩
      rw [hwritten]
      exact deframe_frames hframes (verdict_of_accepted hvalid hnot (hdata ▸ hwire))
    · push Not at hw
      refine ⟨bodies, [], hbodies, ?_⟩
      rw [hserial.idle hw, Line.Log.accepted, ← List.append_nil (List.flatMap _ _)]
      exact deframe_frames hframes rfl
  · have hidle : k.log.written = k.log.accepted := hserial.idle fun i s hi => by
      cases i with
      | close j =>
          obtain ⟨p, hp⟩ := hj.closer_stops hi
          cases hp
      | command c =>
          obtain hv | ⟨e, hv⟩ := hdead.threads hs hj hi <;> cases hv
    have hmem : ∀ p ∈ good, p ∈ k.log.ended := fun p hp => hgood ▸ List.mem_append_left _ hp
    have hmem' : bad ∈ k.log.ended := by rw [hgood]; simp
    obtain ⟨bodies, hbodies, hframes⟩ := frames_of_returned hrun (fun p hp => (hserial.ended p (hmem p hp)).1) hret
      fun p hp => hwhole.owned p (hmem p hp)
    obtain ⟨c, body, hi, -, hwire⟩ := (hwhole.owned bad hmem').frame hrun
    refine ⟨bodies, bad.2.accepted, ?_, ?_⟩
    · obtain ⟨i, s⟩ := bad
      obtain rfl : i = .command c := hi
      have hnone : List.filterMap returned [(.command c, s)] = [] := by simpa [returned] using hbad
      rw [hgood, List.filterMap_append, hnone, List.append_nil]
      exact hbodies
    · rw [hidle, Line.Log.accepted, hgood, List.flatMap_append, List.flatMap_singleton]
      exact deframe_frames hframes (verdict_of_accepted (hserial.ended bad hmem').1 hbad hwire)

/-- **Commands arrive whole and in order.**  In every run of a session over its transport, a reader of what was
written finds exactly the frames of the commands whose send has returned, in the order in which they entered it,
and slides over nothing; at most one more command has entered its send.  Once a send has thrown, nothing more is
ever written. -/
theorem outbound_whole (hfd : 0 ≤ fd) (hne : wake ≠ fd) (hinit : Line.Started strerror fd wake exclusive l₀ log₀)
    (h : Run.run (step strerror) (opened protocol l₀ log₀) as = some k) :
    (∃ sent bodies tail, List.Forall₂ (BodyOf k.world) sent bodies ∧
      Probe.deframe k.log.written = (bodies, 0, tail) ∧ sent.Nodup ∧
      (∀ c, c ∈ sent ↔ k.line.threads (.command c) = some .sent) ∧
      (as.filterMap Label.sends = sent ∨ ∃ c, as.filterMap Label.sends = sent ++ [c])) ∧
    ((∃ c e, k.line.threads (.command c) = some (.threw e)) →
      ∀ bs k', Run.run (step strerror) k bs = some k' → k'.log.written = k.log.written) := by
  obtain ⟨-, ks, hline⟩ := sides h
  obtain ⟨ls, hworld⟩ := world_run h
  obtain ⟨hserial, -, honce⟩ := Line.serial_run hfd hne hinit hline
  have hwhole := whole_run hfd hne hinit h
  refine ⟨?_, fun ⟨c, e, ht⟩ bs k' hrun => (hwhole.threw c e ht).run hfd hne hinit h hrun⟩
  obtain ⟨bodies, tail, hbodies, hstream⟩ :=
    stream_of_whole (sound h) (joined_run hfd hne hinit h) hserial hwhole hworld
  obtain ⟨rest, horder, hrest⟩ := (ordered_run hfd hne hinit h).order
  refine ⟨_, bodies, tail, hbodies, hstream, nodup_returned honce, fun c => mem_returned hserial honce, ?_⟩
  obtain rfl | ⟨c, rfl, -⟩ := hrest
  · exact .inl (by rw [horder, List.append_nil])
  · exact .inr ⟨c, horder⟩

/-- A command comes to its first `write`. -/
def entering (c : CallId) : List Label :=
  [.session (.enter c { opcode := 3 } 0), .session (.act c .slot), .session (.act c (.start 1)),
    .session (.act c .known), .session (.act c (.budget 2)), .send c,
    .transport (.send (.command c) .lock), .transport (.send (.command c) .check),
    .transport (.send (.command c) .trace), .transport (.send (.command c) (.call (.now 0)))]

/-- The answer to the first command. -/
def firstAnswer : Bytes :=
  [20, 0, 0xf2, 0x51] ++ [0, 0, 1, 0, 3, 0x80, 1, 0, 0, 0, 0, 0, 0, 0, 0, 0, 0, 0, 0, 0]

/-- One command is answered, and the device goes away in the middle of the next one. -/
def unplugged : List Label :=
  entering 0 ++ [.transport (.send (.command 0) (.call (.write 16 0))), .sendReturns 0,
    .transport (.pump .test), .transport (.pump (.poll 1 0 POLLIN 0)), .transport (.pump (.read (.ok firstAnswer))),
    .transport (.pump .trace), .receive, .session (.act 0 .wake)] ++
  entering 1 ++ [.transport (.send (.command 1) (.call (.write 3 0))),
    .transport (.send (.command 1) (.call (.now 1))), .transport (.send (.command 1) (.call (.write (-1) EIO)))]

/-- The first frame is read, the beginning of the second one is left, and nothing follows. -/
theorem outbound_whole_unplugged :
    ∃ l₀ log₀ k, Run.run (step fun _ => "") (opened (fun _ => CAN) l₀ log₀) unplugged = some k ∧
      k.log.written.length = 19 ∧ (∃ sent bodies tail, List.Forall₂ (BodyOf k.world) sent bodies ∧
        Probe.deframe k.log.written = (bodies, 0, tail) ∧ 0 ∈ sent ∧ 1 ∉ sent) ∧
      ∀ bs k', Run.run (step fun _ => "") k bs = some k' → k'.log.written = k.log.written := by
  let first : Except Exception Unit × List FdOp × Line Holder :=
    Line.start (fun _ => "") (Line.opened 3 false) 4 0 none
  have hinit : Line.Started (fun _ => "") 3 4 false first.2.2 { fds := first.2.1 } := ⟨_, rfl, rfl⟩
  have hdone : (Run.run (step fun _ => "") (opened (fun _ => CAN) first.2.2 { fds := first.2.1 }) unplugged).map
      (fun k => (k.line.threads (.command 0), k.line.threads (.command 1), k.log.written.length)) =
        some (some .sent, some (.threw (.Error ERR_DEVICE_NOT_CONNECTED "tty write: ")), 19) := by
    decide +kernel
  obtain ⟨k, hrun, hk⟩ := Option.map_eq_some_iff.mp hdone
  obtain ⟨h0, hk⟩ := Prod.mk.inj hk
  obtain ⟨h1, hlen⟩ := Prod.mk.inj hk
  obtain ⟨⟨sent, bodies, tail, hbodies, hstream, -, hsent, -⟩, hfinal⟩ :=
    outbound_whole (by decide) (by decide) hinit hrun
  refine ⟨_, _, k, hrun, hlen, ⟨sent, bodies, tail, hbodies, hstream, (hsent 0).mpr h0, fun hmem => ?_⟩,
    hfinal ⟨1, _, h1⟩⟩
  cases ((hsent 1).mp hmem).symm.trans h1

end Link

end Mongoose
