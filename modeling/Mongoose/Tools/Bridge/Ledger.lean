import Mongoose.Tools.Bridge.Moves

/-!
# Mongoose.Tools.Bridge.Ledger

What the bridge takes hold of it gives back.

The device is opened on the socket, the channel on the device, the filter on the channel,
and the reader runs on all of them, so each must go before what it rests on.  `Ledger`
says that what is held is what the phase of `main` says; over all runs of its threads no
handle is used once it was given back, and whichever way `main` ends it holds nothing.
-/

namespace Mongoose

namespace SocketCan

/-- How many things are held. -/
def MainPhase.depth : MainPhase → ℕ
  | .opening_interface | .exited _ => 0
  | .opening | .close_socket _ => 1
  | .connecting | .close_device _ => 2
  | .filtering | .disconnect _ => 3
  | .creating_reader | .joining_reporter | .stop_filter _ => 4
  | .creating_reporter | .host _ | .joining_reader => 5

/-- The result once it is known. -/
def MainPhase.result : MainPhase → Option Int
  | .stop_filter r | .disconnect r | .close_device r | .close_socket r | .exited r => some r
  | _ => none

/-- Whether the reader was created, as long as the phase says so. -/
def MainPhase.started : MainPhase → Option Bool
  | .opening_interface | .opening | .connecting | .filtering | .creating_reader => some false
  | .creating_reporter | .host _ | .joining_reader | .joining_reporter => some true
  | _ => none

namespace Bridge

/-- What has to be held first, and for as long. -/
def needs : Hold → Hold → Prop
  | .socket, _ => False
  | .device _, q => q = .socket
  | .channel d _, q => q = .device d
  | .filter d c _, q => q = .channel d c
  | .reader d c f, q => q = .socket ∨ q = .filter d c f

theorem not_needs_self (q : Hold) : ¬ needs q q := by
  cases q <;> simp [needs]

/-- What is held in a phase of `main`, the latest first. -/
def held (b : Bridge) (p : MainPhase) : List Hold :=
  [.reader b.device b.channel b.filter, .filter b.device b.channel b.filter, .channel b.device b.channel,
    .device b.device, .socket].drop (5 - p.depth)

theorem held_of_depth {b : Bridge} {p q : MainPhase} (h : p.depth = q.depth) : b.held p = b.held q := by
  rw [held, h, held]

/-- The reader was created at some time. -/
def Started (ops : List (Resource.Op Hold)) : Prop := ∃ d c f, .acquire (.reader d c f) ∈ ops

@[simp] theorem started_append {ops used : List (Resource.Op Hold)} :
    Started (ops ++ used) ↔ Started ops ∨ Started used := by
  simp only [Started, List.mem_append, exists_or]

/-- What holds of the program and its operations. -/
structure Ledger (b : Bridge) (ops : List (Resource.Op Hold)) : Prop where
  stacked : Resource.Stacked needs ops (b.held b.main)
  reader : b.reader ≠ none → b.main.depth = 5
  reporter : b.reporter ≠ none → b.main.depth = 5 ∨ b.main = .joining_reporter
  ends : b.main = .joining_reader ∨ b.main = .joining_reporter → b.Ends
  started : ∀ yes, b.main.started = some yes → (Started ops ↔ yes = true)
  result : ∀ r, b.main.result = some r →
    (r = 0 ∨ r = 1) ∧ (r = 0 ↔ b.failed = false ∧ Started ops) ∧ (r = 0 → b.stopping = true)

section ledger

variable {b b' : Bridge} {ops used : List (Resource.Op Hold)}

/-- What `main` does while neither thread runs. -/
structure Alone (b b' : Bridge) (p : MainPhase) : Prop where
  main : b'.main = p
  reader : b'.reader = b.reader
  reporter : b'.reporter = b.reporter
  stopping : b'.stopping = b.stopping
  failed : b'.failed = b.failed

/-- `main` goes on, or back, while neither thread runs. -/
theorem Ledger.alone {p : MainPhase} (h : Ledger b ops) (hb' : Alone b b' p)
    (hstacked : Resource.Stacked needs (ops ++ used) (b'.held p)) (hused : ¬ Started used)
    (hd : b.main.depth ≠ 5 ∧ b.main ≠ .joining_reporter)
    (hp : b.main.started = some false ∧ (p.started = some false ∨ p.result = some 1) ∨
      p.started = none ∧ p.result = b.main.result) : Ledger b' (ops ++ used) where
  stacked := hb'.main ▸ hstacked
  reader hr := absurd (h.reader (hb'.reader ▸ hr)) hd.1
  reporter hr := absurd (h.reporter (hb'.reporter ▸ hr)) (not_or.mpr hd)
  ends hm := by
    rw [hb'.main] at hm
    obtain rfl | rfl := hm <;> simp [MainPhase.started, MainPhase.result] at hp
  started yes hyes := by
    rw [hb'.main] at hyes
    rw [started_append, or_iff_left hused]
    obtain ⟨hbefore, hafter | hafter⟩ | ⟨hnone, -⟩ := hp
    · rw [hafter] at hyes
      exact h.started yes (hbefore.trans hyes)
    · cases p <;> simp_all [MainPhase.started, MainPhase.result]
    · rw [hnone] at hyes
      cases hyes
  result r hr := by
    rw [hb'.main] at hr
    rw [hb'.stopping, hb'.failed, started_append, or_iff_left hused]
    obtain ⟨hbefore, hafter | hafter⟩ | ⟨-, hsame⟩ := hp
    · cases p <;> simp_all [MainPhase.started, MainPhase.result]
    · obtain rfl : 1 = r := Option.some.inj (hafter.symm.trans hr)
      have hstarted : ¬ Started ops := by simpa using h.started false hbefore
      simp [hstarted]
    · exact h.result r (hsame ▸ hr)

/-- A step in the phases in which the reader has been created. -/
theorem Ledger.beside (h : Ledger b ops) (hstacked : Resource.Stacked needs (ops ++ used) (b'.held b'.main))
    (hstarted : b.main.started = some true) (hstarted' : b'.main.started = some true)
    (hreader : b'.reader ≠ none → b'.main.depth = 5)
    (hends : b'.main = .joining_reader ∨ b'.main = .joining_reporter → b'.Ends) : Ledger b' (ops ++ used) where
  stacked := hstacked
  reader := hreader
  reporter _ := by
    generalize b'.main = p at hstarted'
    cases p <;> simp [MainPhase.started, MainPhase.depth] at hstarted' ⊢
  ends := hends
  started yes hyes := by
    obtain rfl : true = yes := Option.some.inj (hstarted'.symm.trans hyes)
    have := (h.started true hstarted).mpr rfl
    simp [this]
  result r hr := by
    generalize b'.main = p at hstarted' hr
    cases p <;> simp [MainPhase.started, MainPhase.result] at hstarted' hr

/-- The operations of a step of the loop in `main`. -/
theorem Hosted.operations {p : HostPhase} {c : MainStep} (h : Hosted b p c b') (hp : b.main = .host p) :
    Log.operations b (.main c) = [] ∨ Log.operations b (.main c) = [.use .socket] ∨
      Log.operations b (.main c) = [.use (.channel b.device b.channel)] := by
  cases h <;> simp [Log.operations]

/-- The loop in `main` goes on, or is left with one of the flags set. -/
theorem Hosted.main {p : HostPhase} {c : MainStep} (h : Hosted b p c b') :
    (∃ q, b'.main = .host q) ∨ b'.main = .joining_reader ∧ b'.Ends := by
  cases h <;> simp [Ends]
  case leaves he => exact he

theorem Hosted.held {p : HostPhase} {c : MainStep} (h : Hosted b p c b') : b'.held = b.held := by
  cases h <;> rfl

theorem Ledger.hosted {p : HostPhase} {c : MainStep} (h : Ledger b ops) (hp : b.main = .host p) (hc : Hosted b p c b') :
    Ledger b' (ops ++ Log.operations b (.main c)) := by
  have hstacked := h.stacked
  have hdepth : b.main.depth = 5 := by simp [hp, MainPhase.depth]
  have hdepth' : b'.main.depth = 5 := by
    obtain ⟨q, hq⟩ | ⟨hq, -⟩ := hc.main <;> simp [hq, MainPhase.depth]
  refine h.beside ?_ (by simp [hp, MainPhase.started]) ?_ (fun _ => hdepth') ?_
  · rw [hc.held, held_of_depth (hdepth'.trans hdepth.symm)]
    obtain hops | hops | hops := hc.operations hp <;> rw [hops]
    · rwa [List.append_nil]
    · exact hstacked.use (by simp [held, hdepth])
    · exact hstacked.use (by simp [held, hdepth])
  · obtain ⟨q, hq⟩ | ⟨hq, -⟩ := hc.main <;> simp [hq, MainPhase.started]
  · obtain ⟨q, hq⟩ | ⟨-, he⟩ := hc.main
    · simp [hq]
    · exact fun _ => he

theorem Ledger.main {c : MainStep} (h : Ledger b ops) (hm : Moved b b.main c b') :
    Ledger b' (ops ++ Log.operations b (.main c)) := by
  have hstacked := h.stacked
  generalize hp : b.main = p at hm hstacked
  -- the beginning and the end, where neither thread runs
  have halone {q : MainPhase} (hb' : Alone b b' q)
      (hstacked' : Resource.Stacked needs (ops ++ Log.operations b (.main c)) (b'.held q))
      (hused : ¬ Started (Log.operations b (.main c))) (hd : p.depth ≠ 5 ∧ p ≠ .joining_reporter)
      (hq : p.started = some false ∧ (q.started = some false ∨ q.result = some 1) ∨
        q.started = none ∧ q.result = p.result) :
      Ledger b' (ops ++ Log.operations b (.main c)) := h.alone hb' hstacked' hused (hp ▸ hd) (hp ▸ hq)
  cases hm with
  | no_socket index fd bind hs =>
      rw [Log.operations, if_pos hs, List.append_nil] at halone ⊢
      exact halone (q := .exited 1) ⟨rfl, rfl, rfl, rfl, rfl⟩ hstacked (by simp [Started]) (by simp [MainPhase.depth])
        (by simp [MainPhase.started, MainPhase.result])
  | unbound index fd bind hs hb =>
      rw [Log.operations, if_neg hs, if_pos hb, List.append_cons] at halone ⊢
      have hopen : Resource.Stacked needs (ops ++ [.acquire .socket]) [.socket] :=
        hstacked.push (by simp [held, MainPhase.depth]) (by simp [needs])
      exact halone (q := .exited 1) ⟨rfl, rfl, rfl, rfl, rfl⟩ (hopen.pop (by simp) (not_needs_self _))
        (by simp [Started]) (by simp [MainPhase.depth]) (by simp [MainPhase.started, MainPhase.result])
  | bound index fd bind hs hb =>
      rw [Log.operations, if_neg hs, if_neg hb] at halone ⊢
      exact halone (q := .opening) ⟨rfl, rfl, rfl, rfl, rfl⟩
        (hstacked.push (by simp [held, MainPhase.depth]) (by simp [needs]))
        (by simp [Started]) (by simp [MainPhase.depth]) (by simp [MainPhase.started])
  | unopened status d hs =>
      rw [Log.operations, if_pos hs, List.append_nil] at halone ⊢
      exact halone (q := .close_socket 1) ⟨rfl, rfl, rfl, rfl, rfl⟩ hstacked (by simp [Started]) (by simp [MainPhase.depth])
        (by simp [MainPhase.started, MainPhase.result])
  | opened d =>
      exact halone (q := .connecting) ⟨rfl, rfl, rfl, rfl, rfl⟩
        (hstacked.push (by simp [held, MainPhase.depth]) (by simp [needs, held, MainPhase.depth]))
        (by simp [Log.operations, Started]) (by simp [MainPhase.depth]) (by simp [MainPhase.started])
  | unconnected status c hs =>
      rw [Log.operations, if_pos hs] at halone ⊢
      exact halone (q := .close_device 1) ⟨rfl, rfl, rfl, rfl, rfl⟩ (hstacked.use (by simp [held, MainPhase.depth]))
        (by simp [Started]) (by simp [MainPhase.depth]) (by simp [MainPhase.started, MainPhase.result])
  | connected c =>
      rw [Log.operations, if_neg (by simp), List.append_cons] at halone ⊢
      have huse := hstacked.use (r := .device b.device) (by simp [held, MainPhase.depth])
      exact halone (q := .filtering) ⟨rfl, rfl, rfl, rfl, rfl⟩
        (huse.push (by simp [held, MainPhase.depth]) (by simp [needs, held, MainPhase.depth]))
        (by simp [Started]) (by simp [MainPhase.depth]) (by simp [MainPhase.started])
  | unfiltered status f hs =>
      rw [Log.operations, if_pos hs] at halone ⊢
      exact halone (q := .disconnect 1) ⟨rfl, rfl, rfl, rfl, rfl⟩ (hstacked.use (by simp [held, MainPhase.depth]))
        (by simp [Started]) (by simp [MainPhase.depth]) (by simp [MainPhase.started, MainPhase.result])
  | filtered f =>
      rw [Log.operations, if_neg (by simp), List.append_cons] at halone ⊢
      have huse := hstacked.use (r := .channel b.device b.channel) (by simp [held, MainPhase.depth])
      exact halone (q := .creating_reader) ⟨rfl, rfl, rfl, rfl, rfl⟩
        (huse.push (by simp [held, MainPhase.depth]) (by simp [needs, held, MainPhase.depth]))
        (by simp [Started]) (by simp [MainPhase.depth]) (by simp [MainPhase.started])
  | uncreated error he =>
      rw [Log.operations, if_neg (by simp [he]), List.append_nil] at halone ⊢
      exact halone (q := .stop_filter 1) ⟨rfl, rfl, rfl, rfl, rfl⟩ hstacked (by simp [Started]) (by simp [MainPhase.depth])
        (by simp [MainPhase.started, MainPhase.result])
  | created q hq =>
      rw [Log.operations, if_pos ⟨hp, rfl⟩]
      refine ⟨?_, fun _ => ?_, fun _ => .inl ?_, fun hm => ?_, fun yes hyes => ?_, fun r hr => ?_⟩
      · rw [held_of_depth (q := .joining_reader) (by obtain rfl | rfl := hq <;> rfl)]
        exact hstacked.push (by simp [held, MainPhase.depth]) (by simp [needs, held, MainPhase.depth])
      · obtain rfl | rfl := hq <;> rfl
      · obtain rfl | rfl := hq <;> rfl
      · obtain rfl | rfl := hq <;> simp at hm
      · obtain rfl : true = yes := by obtain rfl | rfl := hq <;> exact Option.some.inj hyes
        exact iff_of_true ⟨_, _, _, List.mem_append_right _ List.mem_cons_self⟩ rfl
      · obtain rfl | rfl := hq <;> simp [MainPhase.result] at hr
  | reports error r hr =>
      rw [Log.operations, if_neg (by simp [hp]), List.append_nil]
      have hstacked' : Resource.Stacked needs (ops ++ []) (b.held (.host .testing)) := by rwa [List.append_nil]
      have hbeside : Ledger { b with reporter := r, main := .host .testing } (ops ++ []) :=
        h.beside hstacked' (by simp [hp, MainPhase.started]) rfl (fun _ => rfl) (by simp)
      rwa [List.append_nil] at hbeside
  | host p _ _ hc => exact h.hosted hp hc
  | joined_reader hr =>
      rw [Log.operations, if_pos hp]
      exact h.beside (hstacked.pop (by simp [needs]) (not_needs_self _)) (by simp [hp, MainPhase.started]) rfl (by simp)
        fun _ => h.ends (.inl hp)
  | joined_reporter hr =>
      have hops : Log.operations b (.main .join) = [] := if_neg (by simp [hp])
      rw [hops, List.append_nil]
      have hstarted : Started ops := (h.started true (by simp [hp, MainPhase.started])).mpr rfl
      refine ⟨hstacked, fun hne => ?_, by simp, by simp, by simp [MainPhase.started], fun r hr => ?_⟩
      · have hdepth := h.reader hne
        simp [hp, MainPhase.depth] at hdepth
      -- the loops were left because of one of the flags, and `main` says 0 when it was not the other
      · obtain rfl := Option.some.inj hr
        obtain hs | hf := h.ends (.inr hp)
        · cases hfailed : b.failed <;> simp [hs, hstarted]
        · simp [hf]
  | stop_filter result =>
      rw [Log.operations, List.append_cons] at halone ⊢
      have huse := hstacked.use (r := .channel b.device b.channel) (by simp [held, MainPhase.depth])
      exact halone (q := .disconnect result) ⟨rfl, rfl, rfl, rfl, rfl⟩ (huse.pop (by simp [needs]) (not_needs_self _))
        (by simp [Started]) (by simp [MainPhase.depth]) (by simp [MainPhase.started, MainPhase.result])
  | disconnect result =>
      exact halone (q := .close_device result) ⟨rfl, rfl, rfl, rfl, rfl⟩ (hstacked.pop (by simp [needs]) (not_needs_self _))
        (by simp [Log.operations, Started]) (by simp [MainPhase.depth]) (by simp [MainPhase.started, MainPhase.result])
  | close_device result =>
      exact halone (q := .close_socket result) ⟨rfl, rfl, rfl, rfl, rfl⟩ (hstacked.pop (by simp [needs]) (not_needs_self _))
        (by simp [Log.operations, Started]) (by simp [MainPhase.depth]) (by simp [MainPhase.started, MainPhase.result])
  | close_socket result =>
      exact halone (q := .exited result) ⟨rfl, rfl, rfl, rfl, rfl⟩ (hstacked.pop (by simp [needs]) (not_needs_self _))
        (by simp [Log.operations, Started]) (by simp [MainPhase.depth]) (by simp [MainPhase.started, MainPhase.result])

/-- While the reader runs, everything is held. -/
theorem Ledger.running {p : ReaderPhase} (h : Ledger b ops) (hp : b.reader = some p) :
    b.main.depth = 5 ∧ b.main.started = some true := by
  have hdepth : b.main.depth = 5 := h.reader (by simp [hp])
  generalize b.main = q at hdepth
  cases q <;> simp [MainPhase.depth, MainPhase.started] at hdepth ⊢

/-- What the reader uses is held while it runs. -/
theorem Ledger.read {p : ReaderPhase} {c : ReaderStep} (h : Ledger b ops) (hp : b.reader = some p) (hc : Read b p c b') :
    Ledger b' (ops ++ Log.operations b (.reader c)) := by
  obtain ⟨hdepth, hstarted⟩ := h.running hp
  have hmain : b'.main = b.main := by cases hc <;> rfl
  have hheld : b'.held = b.held := by cases hc <;> rfl
  have hends (he : b.Ends) : b'.Ends := by
    cases hc with
    | failed => exact .inr rfl
    | _ => exact he
  have hops : Log.operations b (.reader c) = [] ∨ Log.operations b (.reader c) = [.use .socket] ∨
      Log.operations b (.reader c) = [.use (.channel b.device b.channel)] := by
    cases hc <;> simp [Log.operations]
  refine h.beside ?_ hstarted (hmain ▸ hstarted) (fun _ => hmain ▸ hdepth) ?_
  · rw [hmain, hheld]
    obtain hops | hops | hops := hops <;> rw [hops]
    · rw [List.append_nil]
      exact h.stacked
    · exact h.stacked.use (by simp [held, hdepth])
    · exact h.stacked.use (by simp [held, hdepth])
  · rw [hmain]
    exact fun hm => hends (h.ends hm)

/-- Every step keeps the ledger. -/
theorem Ledger.step {a : Label} (h : Ledger b ops) (hs : b.step a = some b') :
    Ledger b' (ops ++ Log.operations b a) := by
  obtain ⟨rfl, -, rfl⟩ | ⟨c, rfl, hm⟩ | ⟨c, p, rfl, hp, hc⟩ | ⟨c, p, q, rfl, hp, -, rfl⟩ := step_cases hs
  · rw [show Log.operations b .signal = [] from rfl, List.append_nil]
    refine ⟨h.stacked, h.reader, h.reporter, fun _ => .inl rfl, h.started, fun r hr => ?_⟩
    obtain ⟨hcode, hzero, -⟩ := h.result r hr
    exact ⟨hcode, hzero, fun _ => rfl⟩
  · exact h.main hm
  · exact h.read hp hc
  · rw [show Log.operations b (.reporter c) = [] from rfl, List.append_nil]
    exact ⟨h.stacked, h.reader, fun _ => h.reporter (by simp [hp]), h.ends, h.started, h.result⟩

theorem start_ok {argv : List Bytes} (h : start argv = .ok b) : ∃ o, parse argv = some o ∧ b = { options := o } := by
  unfold start at h
  split_ifs at h
  split at h
  · cases h
  · next o ho => exact ⟨o, ho, (Except.ok.inj h).symm⟩

/-- What is not held any more, and what the result says. -/
theorem Ledger.exited {r : Int} (h : Ledger b ops) (hm : b.main = .exited r) :
    b.reader = none ∧ b.reporter = none ∧
      (r = 0 ∨ r = 1) ∧ (r = 0 ↔ b.failed = false ∧ Started ops) ∧ (r = 0 → b.stopping = true) := by
  have hreader : b.reader = none := by
    by_contra hne
    simpa [hm, MainPhase.depth] using h.reader hne
  have hreporter : b.reporter = none := by
    by_contra hne
    simpa [hm, MainPhase.depth] using h.reporter hne
  exact ⟨hreader, hreporter, h.result r (by rw [hm, MainPhase.result])⟩

/-- Every run keeps the ledger. -/
theorem ledger_of_run {argv : List Bytes} {b₀ : Bridge} {labels : List Label} {log : Log} (h₀ : start argv = .ok b₀)
    (hr : Run.run logged (b₀, {}) labels = some (b, log)) : Ledger b log.ops := by
  have hstep : ∀ (m : Bridge × Log) (a : Label) (t : Bridge × Log), Ledger m.1 m.2.ops → logged m a = some t →
      Ledger t.1 t.2.ops := by
    intro m a t hm ht
    obtain ⟨hs, hnote⟩ := Run.recording_eq_some_iff.mp ht
    have hops : t.2.ops = m.2.ops ++ Log.operations m.1 a := by
      rw [hnote]
      rfl
    exact hops ▸ hm.step hs
  refine Run.invariant (I := fun s : Bridge × Log => Ledger s.1 s.2.ops) hstep ?_ hr
  obtain ⟨o, -, rfl⟩ := start_ok h₀
  exact ⟨Resource.stacked_nil, by simp, by simp, by simp, by simp [MainPhase.started, Started],
    by simp [MainPhase.result]⟩

/-- Once the arguments were accepted, over every interleaving of `main`, the reader, the reporter and the signal,
whatever the library, the kernel and the interface answer: nothing is used, released or built on that is not held, and
nothing goes while what rests on it is still there, the reader included.  When `main` has ended nothing is held and neither thread runs; the exit code is 0
just when the bridge got as far as running and nothing failed, and then because of a signal. -/
theorem ledger_closed {argv : List Bytes} {b₀ : Bridge} {labels : List Label} {log : Log} (h₀ : start argv = .ok b₀)
    (hr : Run.run logged (b₀, {}) labels = some (b, log)) :
    (Resource.nested needs needs fun _ => false).Lawful log.ops ∧
      ∀ r, b.main = .exited r →
        (∀ q, (Resource.nested needs needs fun _ => false).state log.ops q = false) ∧ b.reader = none ∧ b.reporter = none ∧
          (r = 0 ∨ r = 1) ∧ (r = 0 ↔ b.failed = false ∧ Started log.ops) ∧ (r = 0 → b.stopping = true) := by
  have h := ledger_of_run h₀ hr
  refine ⟨h.stacked.lawful, fun r hm => ?_⟩
  have hempty : Resource.Stacked needs log.ops [] := by simpa [hm, held, MainPhase.depth] using h.stacked
  exact ⟨hempty.empty, h.exited hm⟩

/-- The bridge is started, hears nothing, and is stopped by a signal. -/
def signalled : List Label :=
  [.main (.open_interface 1 3 0), .main (.PassThruOpen 0 7), .main (.PassThruConnect 0 9),
    .main (.PassThruStartMsgFilter 0 5), .main (.create 0), .reader .test, .signal, .main .test,
    .reader (.PassThruReadMsgs [] ERR_BUFFER_EMPTY), .reader (.PassThruReadMsgs [] ERR_BUFFER_EMPTY), .reader .test,
    .main .join, .main .join, .main .PassThruStopMsgFilter, .main .PassThruDisconnect, .main .PassThruClose, .main .close]

theorem ledger_closed_signalled : ∃ b log,
    Run.run logged ({ options := { interface := some (ascii "can0") } }, {}) signalled = some (b, log) ∧
      b.main = .exited 0 ∧ (∀ q, (Resource.nested needs needs fun _ => false).state log.ops q = false) ∧
      Started log.ops := by
  have h₀ : start [ascii "can0"] = .ok { options := { interface := some (ascii "can0") } } := rfl
  have hrun : ∃ s, Run.run logged ({ options := { interface := some (ascii "can0") } }, {}) signalled = some s ∧
      s.1.main = .exited 0 := ⟨_, rfl, rfl⟩
  obtain ⟨⟨b, log⟩, hr, hm⟩ := hrun
  obtain ⟨hempty, -, -, -, hzero, -⟩ := (ledger_closed h₀ hr).2 0 hm
  exact ⟨b, log, hr, hm, hempty, (hzero.mp rfl).2⟩

end ledger

end Bridge

end SocketCan

end Mongoose
