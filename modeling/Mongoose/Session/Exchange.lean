import Mongoose.Codec.Stream
import Mongoose.Session.Records

/-!
# Mongoose.Session.Exchange

One command from call to answer.

On a usable session at rest a command that is answered in time returns its
answer, leaves the session at rest again, and has moved the sequence counter on
by one.  `exchange_run` says so for every command, sequence and answer.
-/

namespace Mongoose

/-! ## the answer on its way -/

/-- A frame that arrives whole comes out as its body. -/
theorem Decoder.feed_encode {d : Decoder} {body bytes : Bytes} (hd : d.buffer = [])
    (h : encode body = .ok bytes) : d.feed bytes = .ok ([body], d) := by
  have hsettled : d.Settled := by rw [Settled, hd]; exact settled_new
  have hlook : frameScanner.look bytes = .item bytes.length body := by
    have := frameVerdict_encode [] h
    rwa [List.append_nil] at this
  have hscan : frameScanner.scan bytes = ([.item bytes body], []) := by
    have hwait : frameScanner.look ([] : Bytes) = .wait := settled_new
    rw [Scan.Scanner.scan_of_item hlook, List.take_length, List.drop_length,
      Scan.Scanner.scan_of_wait hwait]
  rw [feed_eq_scan hsettled, hd, List.nil_append, hscan]
  obtain ⟨buffer, discarded⟩ := d
  obtain rfl : buffer = [] := hd
  rfl

/-- A response is nothing to a receiver. -/
theorem CanReceiver.receive_of_response (r : CanReceiver) {body : Bytes} (hlen : 12 ≤ body.length)
    (hop : response_opcode (le16At body 4)) : r.receive body = .ok r := by
  have h9 : le16At body 4 ≠ 9 := by intro h; rw [h] at hop; exact absurd hop (by decide)
  have h10 : le16At body 4 ≠ 10 := by intro h; rw [h] at hop; exact absurd hop (by decide)
  rw [receive]
  split
  · rfl
  rw [le16_of_le (by omega), le16_of_le (by omega), le16_of_le (by omega)]
  change (if _ then _ else _) = _
  split
  · rfl
  · change (if _ then _ else _) = _
    rw [if_neg h10, if_pos h9]
    rfl

/-- The response a waiting session takes from a frame that arrives whole. -/
theorem Session.receive_response {s : Session} {body bytes : Bytes} (hd : s.decoder.buffer = [])
    (hp : s.pending ≠ 0) (hr : s.response = none) (hm : 12 ≤ s.minimum)
    (ha : Answers s.pending_source s.pending s.minimum body) (h : encode body = .ok bytes) :
    s.receive bytes = .ok { s with response := some body } := by
  obtain ⟨hlen, hop, hdest, hsource, hseq⟩ := ha
  have hdeliver : ({ s with decoder := s.decoder } : Session).deliver body = .ok s := by
    rw [deliver]
    cases hc : s.can_receiver with
    | none => rfl
    | some r =>
        simp only [CanReceiver.receive_of_response (s.receivers r) (by omega) hop]
        change Except.ok (s.update_receiver r (s.receivers r)) = _
        rw [update_receiver, Function.update_eq_self]
  have haccepts : s.accepts body = .ok true := by
    have hw : ¬ (s.pending = 0 ∨ s.response.isSome ∨ body.length < s.minimum) := by
      simp [hp, hr, hlen]
    rw [accepts, if_neg hw, le16_of_le (by omega), le16_of_le (by omega), le16_of_le (by omega),
      le16_of_le (by omega)]
    change (if _ then _ else _) = _
    rw [if_neg (not_not_intro hop)]
    change (if _ then _ else _) = _
    rw [if_neg (not_not_intro hdest)]
    change (if _ then _ else _) = _
    rw [if_neg (not_not_intro hsource)]
    exact congrArg _ (decide_eq_true hseq)
  have hdispatch : s.dispatch body = .ok { s with response := some body } := by
    rw [dispatch, show s.deliver body = .ok s from hdeliver]
    change (s.accepts body >>= _) = _
    rw [haccepts]
    rfl
  rw [receive, Decoder.feed_encode hd h]
  change ([body].foldlM dispatch s) = _
  rw [List.foldlM_cons, hdispatch]
  rfl

/-- With every sequence free a command takes the next one. -/
theorem Session.start_of_free {s : Session} {cmd : Command} {now : Int} {q : Nat} {wire : Bytes}
    (hu : s.usable) (hfree : ∀ q, s.used q = 0) (hq : q = s.sequence % 255 + 1)
    (hwire : request cmd.opcode q cmd.payload cmd.destination cmd.chan >>= encode = .ok wire) :
    s.start cmd now = (.ok wire, { s with
      sequence := q, pending_source := cmd.destination, pending := q, minimum := cmd.minimum
      response := none, used := Function.update s.used q now }) := by
  rw [start, if_neg (by simp [hu.1]), if_neg (not_not_intro hu.2),
    allocate_of_free now 254 s.sequence hfree, ← hq]
  simp [hwire]

namespace Call

variable {c : CallId} {s : Session} {call : Call}

theorem step_start (now : Int) (hp : call.phase = .started) :
    call.step c s (.start now) = some (call.start s now) := if_pos hp

theorem step_known (hp : call.phase = .allocated) :
    call.step c s .known = some (call.known s, call.goto .known) := if_pos hp

theorem step_budget (now : Int) (hp : call.phase = .known) :
    call.step c s (.budget now) = some (s, call.goto (call.budget now)) := if_pos hp

theorem step_wake (hp : call.phase = .waiting) (hr : s.ready) :
    call.step c s .wake = some (call.wake s) := if_pos ⟨hp, hr⟩

end Call

namespace World

/-! ## the exchange -/

variable {w w' : World} {c : CallId}

/-- No command in progress, a usable session, and no half frame buffered. -/
structure Idle (w : World) : Prop where
  transaction : w.session.transaction = none
  usable : w.session.usable
  free : ∀ q, w.session.used q = 0
  buffer : w.session.decoder.buffer = []

/-- The steps of a command that is answered at once. -/
def exchange (c : CallId) (cmd : Command) (now : Int) (bytes : Bytes) : List Label :=
  [.enter c cmd now, .act c .slot, .act c (.start now), .act c .known, .act c (.budget now),
    .act c .send, .receive bytes, .act c .sendReturns, .act c .wake]

theorem put_put (w : World) (s s' : Session) (c : CallId) (call call' : Call) :
    (w.put s c call).put s' c call' = w.put s' c call' := by
  simp [put, Function.update_idem]

theorem run_enter {cmd : Command} {now : Int} {ls : List Label} (hc : w.calls c = none)
    (h : Run.run step (w.put w.session c (Call.enter cmd now)) ls = some w') :
    Run.run step w (.enter c cmd now :: ls) = some w' :=
  Run.run_cons_iff.mpr ⟨_, by simp [step, hc], h⟩

theorem run_act {s s' : Session} {call call' : Call} {a : Action} {ls : List Label}
    (ha : call.step c s a = some (s', call'))
    (h : Run.run step (w.put s' c call') ls = some w') :
    Run.run step (w.put s c call) (.act c a :: ls) = some w' :=
  Run.run_cons_iff.mpr ⟨w.put s' c call', by simp [step, ha, put_put], h⟩

theorem run_receive {s s' : Session} {call : Call} {bytes : Bytes} {ls : List Label}
    (hr : s.receive bytes = .ok s') (h : Run.run step (w.put s' c call) ls = some w') :
    Run.run step (w.put s c call) (.receive bytes :: ls) = some w' :=
  Run.run_cons_iff.mpr
    ⟨w.put s' c call, by simp [step, environment, hr, Except.toOption, put], h⟩

/-- Making the sequence known changes no more than a receiver. -/
theorem known_eq (call : Call) (s : Session) :
    call.known s = { s with receivers := (call.known s).receivers } := by
  rw [Call.known]
  split <;> rfl

/-- **A command that is answered returns.**  The session is at rest again, its
counter one further, its write noted and nothing else changed. -/
theorem exchange_run {cmd : Command} {now : Int} {q : Nat} {wire body bytes : Bytes}
    (hw : w.Idle) (hc : w.calls c = none) (hpos : 0 < cmd.timeout) (hmax : cmd.timeout ≤ 60000)
    (hq : q = w.session.sequence % 255 + 1)
    (hwire : request cmd.opcode q cmd.payload cmd.destination cmd.chan >>= encode = .ok wire)
    (hans : Answers cmd.destination q cmd.minimum body) (hbytes : encode body = .ok bytes) :
    ∃ w', Run.run step w (exchange c cmd now bytes) = some w' ∧ w'.Idle ∧
      w'.session.sequence = q ∧ w'.session.can_receiver = w.session.can_receiver ∧
      w'.session.receivers = ({ command := cmd, deadline := 0, allocated := q : Call }.known
        w.session).receivers ∧
      (∀ d, d ≠ c → w'.calls d = w.calls d) := by
  obtain ⟨htrans, ⟨hclosing, hfailure⟩, hfree, hbuffer⟩ := hw
  have henter : Call.enter cmd now = { command := cmd, deadline := now + milliseconds cmd.timeout } :=
    if_neg (by omega)
  -- the session once the sequence is taken, and once it is known
  let s : Session := { w.session with
    transaction := some (.command c), sequence := q, pending_source := cmd.destination, pending := q
    minimum := cmd.minimum, response := none, used := Function.update w.session.used q now }
  let call : Call :=
    { command := cmd, deadline := now + milliseconds cmd.timeout, allocated := q, wire := wire,
      phase := .allocated }
  let t : Session := { s with receivers := (call.known s).receivers }
  have hstart : (Call.goto { command := cmd, deadline := now + milliseconds cmd.timeout }
      .started).start { w.session with transaction := some (.command c) } now = (s, call) := by
    have hs : Session.start { w.session with transaction := some (.command c) } cmd now =
        (.ok wire, s) := Session.start_of_free ⟨hclosing, hfailure⟩ hfree hq hwire
    rw [Call.start, Call.goto, hs]
  have hbudget : call.budget now = .sending ((milliseconds cmd.timeout + 999999) / 1000000) := by
    have hleft : call.deadline - now = milliseconds cmd.timeout := by
      change now + milliseconds cmd.timeout - now = _
      omega
    rw [Call.budget, hleft]
    exact if_neg (by unfold milliseconds; omega)
  have hreceive : t.receive bytes = .ok { t with response := some body } := by
    refine Session.receive_response hbuffer (show q ≠ 0 by omega) rfl ?_ hans hbytes
    change 12 ≤ cmd.minimum
    unfold Command.minimum
    split <;> omega
  let u : Session := { t with
    pending := 0, used := Function.update t.used q 0, response := some [], transaction := none }
  have hwake : (call.goto .waiting).wake { t with response := some body } =
      (u, call.goto (.returned body)) := by
    simp [Call.wake, Call.goto, Session.finish, Call.release, t, s, u, call, hclosing, hfailure]
  have h1 : Call.step c w.session { command := cmd, deadline := now + milliseconds cmd.timeout }
      .slot = some ({ w.session with transaction := some (.command c) },
        Call.goto { command := cmd, deadline := now + milliseconds cmd.timeout } .started) :=
    if_pos ⟨rfl, htrans⟩
  have h2 : Call.step c { w.session with transaction := some (.command c) }
      (Call.goto { command := cmd, deadline := now + milliseconds cmd.timeout } .started)
      (.start now) = some (s, call) := (Call.step_start now rfl).trans (congrArg some hstart)
  have h3 : call.step c s .known = some (t, call.goto .known) := by
    rw [show t = call.known s from (known_eq call s).symm]
    exact Call.step_known rfl
  have h4 : (call.goto .known).step c t (.budget now) =
      some (t, call.goto (.sending ((milliseconds cmd.timeout + 999999) / 1000000))) := by
    rw [← hbudget]
    exact Call.step_budget now rfl
  have h5 : (call.goto (.sending ((milliseconds cmd.timeout + 999999) / 1000000))).step c t .send =
      some (t, call.goto .sent) := rfl
  have h6 : (call.goto .sent).step c { t with response := some body } .sendReturns =
      some ({ t with response := some body }, call.goto .waiting) := rfl
  have h7 : (call.goto .waiting).step c { t with response := some body } .wake =
      some (u, call.goto (.returned body)) :=
    (Call.step_wake rfl (.inl rfl)).trans (congrArg some hwake)
  refine ⟨w.put u c (call.goto (.returned body)), ?_, ⟨rfl, ⟨hclosing, hfailure⟩, fun q' => ?_, hbuffer⟩,
    rfl, rfl, ?_, fun d hd => put_calls_of_ne _ _ _ hd⟩
  · refine run_enter hc ?_
    rw [henter]
    exact run_act h1 (run_act h2 (run_act h3 (run_act h4 (run_act h5
      (run_receive hreceive (run_act h6 (run_act h7 rfl)))))))
  · change Function.update (Function.update w.session.used q now) q 0 q' = 0
    by_cases hqq : q' = q
    · rw [hqq, Function.update_self]
    · rw [Function.update_of_ne hqq, Function.update_of_ne hqq, hfree q']
  · change (call.known s).receivers = _
    cases hrec : cmd.sequence_known <;> simp [Call.known, call, s, hrec, Session.update_receiver]

end World

end Mongoose
