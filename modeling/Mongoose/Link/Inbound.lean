import Mongoose.Link.Outbound

/-!
# Mongoose.Link.Inbound

What the session hears of the adapter.

The worker hands over the chunks it has read one by one, and the decoder keeps what does
not make a frame yet.  So the bodies the session has seen are the frames of the whole of
what it was given, wherever the reads have cut it.  A command that has returned was sent
whole, and its response is one of them.
-/

namespace Mongoose

/-- A chunk more is a longer stream. -/
theorem Decoder.deframe_feed {d d' : Decoder} {xs chunk : Bytes} {bodies bs : List Bytes}
    (h : Probe.deframe xs = (bodies, d.discarded, d.buffer)) (hf : d.feed chunk = .ok (bs, d')) :
    Probe.deframe (xs ++ chunk) = (bodies ++ bs, d'.discarded, d'.buffer) := by
  rw [Probe.deframe_eq_scan] at h
  obtain ⟨hitems, h⟩ := Prod.mk.inj h
  obtain ⟨hskips, hrest⟩ := Prod.mk.inj h
  have hsettled : d.Settled := by
    rw [Decoder.Settled, ← hrest]
    exact Scan.Scanner.look_rest_scan (S := frameScanner) xs
  rw [Decoder.feed_eq_scan hsettled] at hf
  obtain ⟨rfl, rfl⟩ := Prod.mk.inj (Except.ok.inj hf)
  rw [Probe.deframe_eq_scan, Scan.Scanner.scan_append xs chunk, hrest]
  simp [Decoder.after, ← hitems, ← hskips]

/-- Only inbound bytes reach the decoder. -/
theorem World.decoder_of_step {w w' : World} {l : Label} (h : w.step l = some w') :
    w'.session.decoder = w.session.decoder ∨ ∃ bytes, l = .receive bytes := by
  obtain ⟨c, cmd, now, rfl, hc, rfl⟩ | ⟨c, a, call, s, call', rfl, hc, ht, rfl⟩ | ⟨k, a, s, p, rfl, hk, rfl⟩ |
    ⟨s, -, he, rfl⟩ := World.step_cases h
  · exact .inl rfl
  · refine .inl ?_
    cases ht with
    | known hp => rw [Call.known]; split <;> rfl
    | _ => rfl
  · refine .inl ?_
    have hs := closed_of_close hk
    generalize w.closers k = o at hs
    cases hs <;> rfl
  · cases l with
    | receive bytes => exact .inr ⟨bytes, rfl⟩
    | set_can_receiver receiver =>
        cases he
        refine .inl ?_
        show (Session.set_can_receiver _ _).decoder = _
        rw [Session.set_can_receiver]
        split <;> rfl
    | failed | client =>
        cases he
        exact .inl rfl
    | enter | act | close => cases he

/-- What was returned is among what arrived. -/
theorem World.Matched.mem_arrivals {w : World} {log : World.Log} (h : World.Matched w log) {c : CallId}
    {call : Call} {body : Bytes} (hc : w.calls c = some call)
    (hp : call.phase = .returned body) : body ∈ log.arrivals ∧ call.Answers body := by
  obtain ⟨-, -, hfind⟩ := h.returned hc hp
  refine ⟨?_, by simpa using List.find?_some hfind⟩
  exact List.mem_of_mem_take (List.mem_of_mem_drop (List.mem_of_find?_eq_some hfind))

/-- Only what the worker hands over counts as delivered. -/
theorem Line.Log.delivered_note {ι : Type} [DecidableEq ι] {a : Line.Label ι} (hne : a ≠ .pump .receive) (log : Line.Log ι) (strerror : Int → String)
    (l l' : Line ι) : (log.note strerror l a l').delivered = log.delivered := by
  cases a with
  | send i b =>
      cases b with
      | call e =>
          rw [Line.Log.note]
          split
          · have hend (log : Line.Log ι) (t : Sending) : (log.note_end i t).delivered = log.delivered := by
              rw [Line.Log.note_end]
              split <;> rfl
            simp only [Line.Log.note_call]
            split
            · cases e <;> rfl
            · rw [hend]
              cases e <;> rfl
          · rfl
      | _ => rfl
  | stop i b =>
      cases b with
      | wake =>
          rw [Line.Log.note]
          split <;> rfl
      | _ => rfl
  | pump b =>
      cases b with
      | receive => exact absurd rfl hne
      | read result => cases result <;> rfl
      | report =>
          rw [Line.Log.note]
          split <;> rfl
      | _ => rfl

namespace Link

variable {strerror : Int → String} {protocol : ReceiverRef → UInt32} {fd wake : Int} {exclusive : Bool}
  {l₀ : Line Holder} {log₀ : Line.Log Holder} {as : List Label} {k k' : Link} {a : Label}

/-! ## what was heard -/

/-- The session has heard all of what it was given. -/
def Heard (k : Link) : Prop :=
  Probe.deframe k.log.delivered.flatten =
    (k.heard.arrivals, k.world.session.decoder.discarded, k.world.session.decoder.buffer)

/-- The session receives nothing but what the worker hands over. -/
theorem receive_of_parts {l : Option Mongoose.Label} {b : Option (Line.Label Holder)} (h : parts k a = some (l, b))
    (hr : (∃ bytes, l = some (.receive bytes)) ∨ b = some (.pump .receive)) : a = .receive := by
  cases a with
  | receive => rfl
  | session l' =>
      obtain ⟨hout, heq⟩ := Option.ite_none_right_eq_some.mp h
      cases heq
      obtain ⟨bytes, hl⟩ | hb := hr
      · cases hl
        exact hout.elim
      · cases hb
  | transport b' =>
      obtain ⟨hin, heq⟩ := Option.ite_none_right_eq_some.mp h
      cases heq
      obtain ⟨bytes, hl⟩ | hb := hr
      · cases hl
      · cases hb
        exact hin.elim
  | send c =>
      obtain ⟨call, -, heq⟩ := Option.bind_eq_some_iff.mp h
      split at heq
      · cases heq
        obtain ⟨bytes, hl⟩ | hb := hr
        · cases hl
        · cases hb
      · cases heq
  | sendReturns c | stopped j =>
      obtain ⟨-, heq⟩ := Option.ite_none_right_eq_some.mp h
      cases heq
      obtain ⟨bytes, hl⟩ | hb := hr
      · cases hl
      · cases hb
  | sendThrows c | failed =>
      simp only [parts] at h
      split at h
      · cases h
        obtain ⟨bytes, hl⟩ | hb := hr
        · cases hl
        · cases hb
      · cases h
  | stop j =>
      cases h
      obtain ⟨bytes, hl⟩ | hb := hr
      · cases hl
      · cases hb

/-- Nothing else is heard. -/
theorem heard_of_step (h : step strerror k a = some k') (ha : a ≠ .receive) :
    k'.heard.arrivals = k.heard.arrivals ∧ k'.world.session.decoder = k.world.session.decoder ∧
      k'.log.delivered = k.log.delivered := by
  obtain ⟨l, b, hparts, hl, hb⟩ := Product.step_eq_some_iff.mp h
  have hdelivered : k'.log.delivered = k.log.delivered := by
    cases b with
    | none => rw [show k'.log = k.log from congrArg Prod.snd (Option.some.inj hb).symm]
    | some b =>
        rw [show k'.log = _ from (Run.recording_eq_some_iff.mp hb).2]
        refine Line.Log.delivered_note (fun hb => ha ?_) ..
        exact receive_of_parts hparts (.inr (congrArg some hb))
  cases l with
  | none =>
      have hsame : k'.1 = k.1 := (Option.some.inj hl).symm
      exact ⟨by rw [Link.heard, hsame], by rw [Link.world, hsame], hdelivered⟩
  | some l =>
      obtain ⟨hw, hheard⟩ := Run.recording_eq_some_iff.mp hl
      have hnot (bytes : Bytes) : l ≠ .receive bytes := fun hl =>
        ha (receive_of_parts hparts (.inl ⟨bytes, congrArg some hl⟩))
      obtain hdecoder | ⟨bytes, hl⟩ := World.decoder_of_step hw
      · refine ⟨?_, hdecoder, hdelivered⟩
        rw [Link.heard, hheard]
        cases l with
        | receive bytes => exact absurd rfl (hnot bytes)
        | act c b => cases b <;> rfl
        | _ => rfl
      · exact absurd hl (hnot bytes)

/-- Every step keeps what was heard. -/
theorem Heard.step (h : Heard k) (hstep : Link.step strerror k a = some k') : Heard k' := by
  by_cases ha : a = .receive
  · subst ha
    obtain ⟨l, b, hparts, hl, hb⟩ := Product.step_eq_some_iff.mp hstep
    simp only [parts] at hparts
    split at hparts
    · next bytes hp =>
        cases hparts
        obtain ⟨hw, hheard⟩ := Run.recording_eq_some_iff.mp hl
        have hlog : k'.log = k.log.note strerror k.line (.pump .receive) k'.line := (Run.recording_eq_some_iff.mp hb).2
        obtain ⟨s, hs, hw⟩ := Option.map_eq_some_iff.mp hw
        obtain ⟨bodies, decoder, hfeed, hs⟩ := Session.receive_ok (Session.receive_of_environment hs)
        have hworld : k'.world.session.decoder = decoder := by
          rw [Link.world, ← hw, hs]
        have harrivals : k'.heard.arrivals = k.heard.arrivals ++ bodies := by
          rw [Link.heard, hheard, World.Log.note, Session.arrived, hfeed]
        have hdelivered : k'.log.delivered = k.log.delivered ++ [bytes] := by
          rw [hlog, Line.Log.note, hp]
        rw [Heard, hdelivered, harrivals, hworld, List.flatten_append, List.flatten_singleton]
        exact Decoder.deframe_feed h hfeed
    · cases hparts
  · obtain ⟨harrivals, hdecoder, hdelivered⟩ := heard_of_step hstep ha
    rw [Heard, harrivals, hdecoder, hdelivered]
    exact h

/-- So does every run. -/
theorem heard_run (hinit : Line.Started strerror fd wake exclusive l₀ log₀)
    (h : Run.run (Link.step strerror) (opened protocol l₀ log₀) as = some k) : Heard k := by
  obtain ⟨fds, -, rfl⟩ := hinit
  have hnone : Probe.deframe [] = ([], 0, []) :=
    deframe_frames (show frames [] = .ok [] from rfl) (show frameVerdict [] = .wait from Decoder.settled_new)
  refine Run.invariant (I := Heard) (fun m b m' hm hstep => hm.step hstep) ?_ h
  exact hnone

/-- A command that has returned was sent whole. -/
theorem sent_of_returned (hfd : 0 ≤ fd) (hne : wake ≠ fd) (hinit : Line.Started strerror fd wake exclusive l₀ log₀)
    (h : Run.run (Link.step strerror) (opened protocol l₀ log₀) as = some k) {c : CallId} {call : Call} {body : Bytes}
    (hc : k.world.calls c = some call) (hp : call.phase = .returned body) :
    ∃ request, BodyOf k.world c request ∧ request ∈ (Probe.deframe k.log.written).1 := by
  obtain ⟨-, ks, hline⟩ := sides h
  obtain ⟨ls, hworld⟩ := world_run h
  obtain ⟨hserial, -, honce⟩ := Line.serial_run hfd hne hinit hline
  have hj := joined_run hfd hne hinit h
  obtain ⟨bodies, tail, hbodies, hstream⟩ := stream_of_whole (sound h) hj hserial (whole_run hfd hne hinit h) hworld
  have hthread : k.line.threads (.command c) = some .sent := by
    have hjc := hj.commands c
    rw [hc] at hjc
    have hjc : call.phase.Joined call.wire (k.line.threads (.command c)) := hjc
    rwa [hp] at hjc
  obtain ⟨i, hi, hget⟩ := List.mem_iff_getElem.mp ((mem_returned hserial honce).mpr hthread)
  have hi' : i < bodies.length := hbodies.length_eq ▸ hi
  refine ⟨bodies[i], ?_, ?_⟩
  · have hbody := List.Forall₂.get hbodies hi hi'
    simpa [hget] using hbody
  · rw [hstream]
    exact List.getElem_mem hi'

/-- **The session hears the adapter.**  In every run of a session over its transport, the bodies the session has
seen are the frames of all it was given, which is what was read but for the last chunk at most; whatever the
adapter put between them and wherever the reads cut it, it sees the adapter's bodies in order.  A command that has
returned is among the frames that were written, and its response is one of those it was given. -/
theorem inbound_whole (hfd : 0 ≤ fd) (hne : wake ≠ fd) (hinit : Line.Started strerror fd wake exclusive l₀ log₀)
    (h : Run.run (step strerror) (opened protocol l₀ log₀) as = some k) :
    (k.log.delivered <+: k.log.read ∧ k.log.read.length ≤ k.log.delivered.length + 1) ∧
    (∃ discarded tail, Probe.deframe k.log.delivered.flatten = (k.heard.arrivals, discarded, tail)) ∧
    (∀ ps s, stream ps = .ok s → NoFalseHeader ps s → k.log.delivered.flatten = s →
      k.heard.arrivals = ps.map Prod.snd) ∧
    ∀ c call body, k.world.calls c = some call → call.phase = .returned body →
      (body ∈ k.heard.arrivals ∧ call.Answers body) ∧
        ∃ request, BodyOf k.world c request ∧ request ∈ (Probe.deframe k.log.written).1 := by
  obtain ⟨⟨ls, hworld⟩, ks, hline⟩ := sides h
  obtain ⟨-, ht⟩ := Line.told_run hfd hne hinit hline
  have hheard := heard_run hinit h
  refine ⟨(ht.pumping.outstanding).1.initial, ⟨_, _, hheard⟩, fun ps s hs hclean hflat => ?_, fun c call body hc hp => ?_⟩
  · obtain ⟨hitems, -, -⟩ := scan_stream hs hclean
    rw [Heard, hflat, Probe.deframe_eq_scan, hitems] at hheard
    exact (Prod.mk.inj hheard).1.symm
  · exact ⟨(World.matched_run hworld).mem_arrivals hc hp, sent_of_returned hfd hne hinit h hc hp⟩

/-- The command that was answered got the frame that was read, and its own frame was written. -/
theorem inbound_whole_unplugged :
    ∃ l₀ log₀ k call, Run.run (step fun _ => "") (opened (fun _ => CAN) l₀ log₀) unplugged = some k ∧
      k.world.calls 0 = some call ∧ k.log.read = [firstAnswer] ∧ call.phase = .returned (firstAnswer.drop 4) ∧
      firstAnswer.drop 4 ∈ k.heard.arrivals ∧
      ∃ request, BodyOf k.world 0 request ∧ request ∈ (Probe.deframe k.log.written).1 := by
  let first : Except Exception Unit × List FdOp × Line Holder :=
    Line.start (fun _ => "") (Line.opened 3 false) 4 0 none
  have hinit : Line.Started (fun _ => "") 3 4 false first.2.2 { fds := first.2.1 } := ⟨_, rfl, rfl⟩
  have hdone : (Run.run (step fun _ => "") (opened (fun _ => CAN) first.2.2 { fds := first.2.1 }) unplugged).map
      (fun k => ((k.world.calls 0).map (·.phase), k.log.read)) =
        some (some (.returned (firstAnswer.drop 4)), [firstAnswer]) := by
    decide +kernel
  obtain ⟨k, hrun, hk⟩ := Option.map_eq_some_iff.mp hdone
  obtain ⟨hc, hread⟩ := Prod.mk.inj hk
  obtain ⟨call, hc, hp⟩ := Option.map_eq_some_iff.mp hc
  obtain ⟨-, -, -, hreturned⟩ := inbound_whole (by decide) (by decide) hinit hrun
  obtain ⟨⟨harrived, -⟩, hrequest⟩ := hreturned 0 call _ hc hp
  exact ⟨_, _, k, call, hrun, hc, hread, hp, harrived, hrequest⟩

/-! ## the end -/

/-- What a step of the session does to those who close it. -/
theorem closers_of_world {w w' : World} {l : Mongoose.Label} (h : w.step l = some w') :
    (w'.session.stopped = w.session.stopped ∧ w'.session.closing = w.session.closing ∧ w'.closers = w.closers) ∨
      ∃ j b s p, l = .close j b ∧ Closed j w.session (w.closers j) b s p ∧
        w' = { w with session := s, closers := Function.update w.closers j (some p) } := by
  obtain ⟨c, cmd, now, rfl, hc, rfl⟩ | ⟨c, a, call, s, call', rfl, hc, ht, rfl⟩ | ⟨j, b, s, p, rfl, hs, rfl⟩ |
    ⟨s, -, he, rfl⟩ := World.step_cases h
  · exact .inl ⟨rfl, rfl, rfl⟩
  · exact .inl ⟨ht.close_eq.1, ht.close_eq.2.2, rfl⟩
  · exact .inr ⟨j, b, s, p, rfl, closed_of_close hs, rfl⟩
  · have heq := World.environment_close_eq he
    exact .inl ⟨heq.1, heq.2.2, rfl⟩

/-- A step of a closer is one that it may take. -/
theorem closed_of_step {w w' : World} {j : CloserId} {b : CloseAction} (h : w.step (.close j b) = some w') :
    ∃ s p, Closed j w.session (w.closers j) b s p ∧
      w' = { w with session := s, closers := Function.update w.closers j (some p) } := by
  obtain ⟨⟨s, p⟩, hs, rfl⟩ := Option.map_eq_some_iff.mp h
  exact ⟨s, p, closed_of_close hs, rfl⟩

/-- A thread that has stopped the transport. -/
def Silent (k : Link) : Prop := ∃ i, k.line.threads i = some (.stop .done)

/-- Where the closers stand. -/
structure Shut (k : Link) : Prop where
  closing : k.world.session.stopped = true → k.world.session.closing = true
  stopped : k.world.session.stopped = true → (∃ j, k.world.closers j = some .stopping) ∨ Silent k
  halted : ∀ j p, k.world.closers j = some p → p = .stopping ∨ p = .done → k.world.session.stopped = true
  done : ∀ j, k.world.closers j = some .done → Silent k

/-- What is silent stays so. -/
theorem Silent.step (h : Silent k) (hstep : Link.step strerror k a = some k') : Silent k' := by
  obtain ⟨i, hi⟩ := h
  refine ⟨i, ?_⟩
  obtain ⟨l, b, -, -, hb⟩ := Product.step_eq_some_iff.mp hstep
  cases b with
  | none =>
      rw [show k'.line = k.line from congrArg Prod.fst (Option.some.inj hb).symm]
      exact hi
  | some b =>
      obtain heq | ⟨b, v, rfl, heq, hm⟩ | ⟨b, p, rfl, heq, hm⟩ :=
        Line.thread_of_step (Run.recording_eq_some_iff.mp hb).1 i
      · exact heq.trans hi
      · rw [show k.2.1.threads i = _ from hi] at hm
        exact absurd rfl (hm.goes.1 _)
      · rw [show k.2.1.threads i = _ from hi] at hm
        obtain ⟨q, hq, hne⟩ := hm.goes
        cases hq
        exact absurd rfl hne

/-- A section of `close` that does not call the transport. -/
theorem Shut.closes (h : Shut k) (hclosers : ∃ ls, World.Closers ls k.world) (hsilent : Silent k → Silent k')
    {j : CloserId} {b : CloseAction} {s : Session} {p : ClosePhase}
    (hm : Closed j k.world.session (k.world.closers j) b s p)
    (hw : k'.world = { k.world with session := s, closers := Function.update k.world.closers j (some p) })
    (hb : b ≠ .stop ∧ b ≠ .done) : Shut k' := by
  obtain ⟨ls, hclosers⟩ := hclosers
  generalize ho : k.world.closers j = o at hm
  -- whoever waits for the transport's stop holds `close_mutex_`
  have hother (i : CloserId) (hi : k.world.closers i = some .stopping) : i = j → o = some .stopping := by
    rintro rfl
    exact ho.symm.trans hi
  have hstays (hp : o ≠ some .stopping) (hs : (∃ i, k.world.closers i = some .stopping) ∨ Silent k) :
      (∃ i, k'.world.closers i = some .stopping) ∨ Silent k' := by
    refine hs.imp (fun ⟨i, hi⟩ => ⟨i, ?_⟩) hsilent
    rw [hw]
    exact (Function.update_of_ne (fun hij => hp (hother i hi hij)) ..).trans hi
  have hself : k'.world.closers j = some p := by
    rw [hw]
    exact Function.update_self ..
  have hrest {i : CloserId} (hij : i ≠ j) : k'.world.closers i = k.world.closers i := by
    rw [hw]
    exact Function.update_of_ne hij ..
  have hdone (hp : p ≠ .done) (i : CloserId) (hi : k'.world.closers i = some .done) : Silent k' := by
    by_cases hij : i = j
    · rw [hij, hself] at hi
      exact absurd (Option.some.inj hi) hp
    · exact hsilent (h.done i ((hrest hij).symm.trans hi))
  have hhalted (hp : p ≠ .stopping ∧ p ≠ .done) (hstopped : k'.world.session.stopped = k.world.session.stopped)
      (i : CloserId) (q : ClosePhase) (hi : k'.world.closers i = some q) (hq : q = .stopping ∨ q = .done) :
      k'.world.session.stopped = true := by
    by_cases hij : i = j
    · rw [hij, hself] at hi
      cases hi
      exact absurd hq (not_or.mpr hp)
    · exact hstopped.trans (h.halted i q ((hrest hij).symm.trans hi) hq)
  have hclosing : s.closing = k.world.session.closing ∨ s.closing = true → s.stopped = k.world.session.stopped →
      k'.world.session.stopped = true → k'.world.session.closing = true := by
    intro hc hs hstopped
    rw [hw] at hstopped ⊢
    obtain hc | hc := hc
    · exact hc.trans (h.closing (hs.symm.trans hstopped))
    · exact hc
  cases hm with
  | lock => exact ⟨hclosing (.inl rfl) rfl, fun hs => hstays nofun (h.stopped (by rw [hw] at hs; exact hs)),
      hhalted ⟨nofun, nofun⟩ (by rw [hw]), hdone nofun⟩
  | mark => exact ⟨hclosing (.inr rfl) rfl, fun hs => hstays nofun (h.stopped (by rw [hw] at hs; exact hs)),
      hhalted ⟨nofun, nofun⟩ (by rw [hw]; rfl), hdone nofun⟩
  | drain => exact ⟨hclosing (.inl rfl) rfl, fun hs => hstays nofun (h.stopped (by rw [hw] at hs; exact hs)),
      hhalted ⟨nofun, nofun⟩ (by rw [hw]), hdone nofun⟩
  | again hs =>
      have hquiet : Silent k := by
        obtain ⟨i, hi⟩ | hquiet := h.stopped hs
        · obtain rfl := hclosers.eq hi ho nofun nofun
          cases ho.symm.trans hi
        · exact hquiet
      have hstopped : k'.world.session.stopped = true := by
        rw [hw]
        exact hs
      exact ⟨hclosing (.inl rfl) rfl, fun _ => .inr (hsilent hquiet), fun _ _ _ _ => hstopped, fun _ _ => hsilent hquiet⟩
  | stop => exact absurd rfl hb.1
  | done => exact absurd rfl hb.2

/-- What is shut stays so. -/
theorem Shut.step (h : Shut k) (hclosers : ∃ ls, World.Closers ls k.world)
    (hstep : Link.step strerror k a = some k') : Shut k' := by
  have hsilent : Silent k → Silent k' := fun hs => hs.step hstep
  have hkeep (hs : k'.world.session.stopped = k.world.session.stopped)
      (hc : k'.world.session.closing = k.world.session.closing) (hcl : k'.world.closers = k.world.closers) :
      Shut k' := by
    refine ⟨fun hs' => hc.trans (h.closing (hs ▸ hs')), fun hs' => ?_, fun j p hj hp => ?_, fun j hj => ?_⟩
    · exact (h.stopped (hs ▸ hs')).imp (fun ⟨j, hj⟩ => ⟨j, by rw [hcl]; exact hj⟩) hsilent
    · exact hs.trans (h.halted j p (hcl ▸ hj) hp)
    · exact hsilent (h.done j (hcl ▸ hj))
  have hworld {l : Mongoose.Label} (hw : k.world.step l = some k'.world) (hl : ∀ j b, l ≠ .close j b) : Shut k' := by
    obtain ⟨hs, hc, hcl⟩ | ⟨j, b, s, p, rfl, -⟩ := closers_of_world hw
    · exact hkeep hs hc hcl
    · exact absurd rfl (hl j b)
  obtain ⟨l, hout, hw, hl⟩ | ⟨b, hin, hw, hl⟩ | ⟨d, call', n, hd, hp', hw, hl⟩ | ⟨d, ht', hw, hl⟩ |
    ⟨d, e', ht', hw, hl⟩ | ⟨bytes, hp', hw, hl⟩ | ⟨reason, hp', hw, hl⟩ | ⟨j, hw, hl⟩ | ⟨j, ht', hw, hl⟩ :=
    moved_of_step hstep
  · obtain ⟨hs, hc, hcl⟩ | ⟨j, b, s, p, rfl, hm, hw⟩ := closers_of_world hw
    · exact hkeep hs hc hcl
    · refine h.closes hclosers hsilent hm hw ?_
      constructor
      · rintro rfl
        exact hout
      · rintro rfl
        exact hout
  · exact hkeep (by rw [hw]) (by rw [hw]) (by rw [hw])
  · exact hworld hw nofun
  · exact hworld hw nofun
  · exact hworld hw nofun
  · exact hworld hw nofun
  · exact hworld hw nofun
  · -- the closer has drained the commands
    obtain ⟨s, p, hm, hw⟩ := closed_of_step hw
    obtain ⟨ls, hclosers⟩ := hclosers
    generalize ho : k.world.closers j = o at hm
    cases hm
    have hself : k'.world.closers j = some .stopping := by
      rw [hw]
      exact Function.update_self ..
    refine ⟨fun _ => ?_, fun _ => .inl ⟨j, hself⟩, fun _ _ _ _ => by rw [hw], fun i hi => ?_⟩
    · rw [hw]
      exact hclosers.closing j _ ho trivial
    · by_cases hij : i = j
      · rw [hij, hself] at hi
        cases hi
      · exact hsilent (h.done i (by rw [← hi, hw]; exact (Function.update_of_ne hij ..).symm))
  · obtain ⟨s, p, hm, hw⟩ := closed_of_step hw
    have hquiet : Silent k' := hsilent ⟨_, ht'⟩
    generalize ho : k.world.closers j = o at hm
    cases hm
    have hstopped := h.halted j _ ho (.inl rfl)
    refine ⟨fun _ => ?_, fun _ => .inr hquiet, fun _ _ _ _ => ?_, fun _ _ => hquiet⟩
    · rw [hw]
      exact h.closing hstopped
    · rw [hw]
      exact hstopped

/-- In every run a closer that is done has shut the transport. -/
theorem shut_run (h : Run.run (Link.step strerror) (opened protocol l₀ log₀) as = some k) : Shut k := by
  refine Run.run_induction (P := fun _ k => Shut k) ?_ ?_ h
  · refine ⟨fun hs => ?_, fun hs => ?_, fun j p hj => ?_, fun j hj => ?_⟩
    · cases hs
    · cases hs
    · cases hj
    · cases hj
  · intro bs m b m' hm hshut hstep
    obtain ⟨ls, hworld⟩ := world_run hm
    exact hshut.step ⟨ls, World.closers_run hworld⟩ hstep

/-- On an unusable session no command returns. -/
theorem returned_of_step {w w' : World} {l : Mongoose.Label} (hu : ¬ w.session.usable) (h : w.step l = some w')
    {c : CallId} {call : Call} {body : Bytes} (hc : w'.calls c = some call) (hp : call.phase = .returned body) :
    w.calls c = some call := by
  obtain heq | ⟨cmd, now, -, -, heq⟩ | ⟨b, old, new, rfl, -, heq, s, hm⟩ := World.calls_of_step h c
  · exact heq.symm.trans hc
  · rw [← Option.some.inj (heq.symm.trans hc), Call.enter] at hp
    split at hp <;> cases hp
  · rw [← Option.some.inj (heq.symm.trans hc)] at hp
    cases hm with
    | answered _ _ hu' => exact absurd hu' hu
    | known | knownThrows | late | budget => cases hp
    | _ => cases hp

/-- On a session that is unusable no command returns any more. -/
theorem returned_of_run {w w' : World} {ls : List Mongoose.Label} (hu : ¬ w.session.usable)
    (h : Run.run World.step w ls = some w') {c : CallId} {call : Call} {body : Bytes} (hc : w'.calls c = some call)
    (hp : call.phase = .returned body) : w.calls c = some call := by
  refine (Run.invariant (I := fun m : World => ¬ m.session.usable ∧ ∀ c call body, m.calls c = some call →
    call.phase = .returned body → w.calls c = some call) ?_ ⟨hu, fun _ _ _ hc _ => hc⟩ h).2 c call body hc hp
  rintro m l m' ⟨hu, hm⟩ hstep
  refine ⟨World.not_usable_of_step hstep hu, fun c call body hc hp => ?_⟩
  exact hm c call body (returned_of_step hu hstep hc hp) hp

/-- **A closed session is silent.**  Once any call of `close` has returned, whichever it was and whoever else
still runs: both descriptors are closed and never used again, nothing more is written, read, handed over or
reported, nothing more is heard, and no command returns that had not. -/
theorem close_final (hfd : 0 ≤ fd) (hne : wake ≠ fd) (hinit : Line.Started strerror fd wake exclusive l₀ log₀)
    (h : Run.run (step strerror) (opened protocol l₀ log₀) as = some k) {j : CloserId}
    (hj : k.world.closers j = some .done) :
    (∀ r, (Resource.owned fun r => decide (r = fd)).state k.log.fds r = false) ∧
      (k.log.delivered = k.log.read ∨ k.log.failures ≠ []) ∧
      ∀ bs k', Run.run (step strerror) k bs = some k' → k'.log = k.log ∧ k'.heard.arrivals = k.heard.arrivals ∧
        ∀ c call body, k'.world.calls c = some call → call.phase = .returned body → k.world.calls c = some call := by
  obtain ⟨-, ks, hline⟩ := sides h
  obtain ⟨hs, ht⟩ := Line.told_run hfd hne hinit hline
  have hshut := shut_run h
  obtain ⟨i, hdone⟩ := hshut.done j hj
  have hc : k.line.tty.closed = true := hs.stands i _ hdone
  obtain ⟨hclosed, hread⟩ := ht.closed hs hc
  refine ⟨hclosed, hread, fun bs k' hrun => ?_⟩
  obtain ⟨ks', hline'⟩ := Product.exists_right_run hrun
  obtain ⟨ls', hleft⟩ := Product.exists_left_run hrun
  have hlog : k'.log = k.log := Line.closed_run hs hc hline'
  refine ⟨hlog, ?_, fun c call body hcall hp => ?_⟩
  · have hheard := heard_run hinit (Run.run_append h hrun)
    rw [Heard, hlog, heard_run hinit h] at hheard
    exact (Prod.mk.inj hheard).1.symm
  · have hu : ¬ k.world.session.usable :=
      World.not_usable_iff.mpr (.inl (hshut.closing (hshut.halted j _ hj (.inr rfl))))
    exact returned_of_run hu (Run.run_of_recording hleft) hcall hp

/-- A chunk is read, and the session is closed. -/
def closed : List Label :=
  [.transport (.pump .test), .transport (.pump (.poll 1 0 POLLIN 0)), .transport (.pump (.read (.ok [7]))),
    .transport (.pump .trace), .receive, .session (.close 0 .lock), .session (.close 0 .mark),
    .session (.close 0 .drain), .stop 0, .transport (.stop (.close 0) .lock), .transport (.stop (.close 0) .test),
    .transport (.stop (.close 0) .wake), .transport (.pump .test), .transport (.stop (.close 0) .join),
    .transport (.stop (.close 0) .lock_io), .transport (.stop (.close 0) .cleanup), .stopped 0]

/-- A session that is closed has delivered what came in before. -/
theorem close_final_closed :
    ∃ l₀ log₀ k, Run.run (step fun _ => "") (opened (fun _ => CAN) l₀ log₀) closed = some k ∧
      k.world.closers 0 = some .done ∧ k.log.delivered = [[7]] ∧
      ∀ bs k', Run.run (step fun _ => "") k bs = some k' → k'.log = k.log := by
  let first : Except Exception Unit × List FdOp × Line Holder :=
    Line.start (fun _ => "") (Line.opened 3 false) 4 0 none
  have hinit : Line.Started (fun _ => "") 3 4 false first.2.2 { fds := first.2.1 } := ⟨_, rfl, rfl⟩
  have hdone : (Run.run (step fun _ => "") (opened (fun _ => CAN) first.2.2 { fds := first.2.1 }) closed).map
      (fun k => (k.world.closers 0, k.log.delivered)) = some (some .done, [[7]]) := by
    decide +kernel
  obtain ⟨k, hrun, hk⟩ := Option.map_eq_some_iff.mp hdone
  obtain ⟨hj, hdelivered⟩ := Prod.mk.inj hk
  obtain ⟨-, -, hfinal⟩ := close_final (by decide) (by decide) hinit hrun hj
  exact ⟨_, _, k, hrun, hj, hdelivered, fun bs k' hrun => (hfinal bs k' hrun).1⟩

end Link

end Mongoose
