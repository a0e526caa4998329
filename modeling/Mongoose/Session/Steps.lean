import Mongoose.Session

/-!
# Mongoose.Session.Steps

What each step can do.

`Took` lists the outcomes of a call's step with the condition of each, and
`took_of_step` says that there are no others.  `receive_ok` does the same for
inbound bytes.  `Quiet` is what every step outside the calls keeps: it never
touches the sequence numbers, and it fills the response at most once and only
with a body the session accepts.  Later modules reason from these and never
unfold a step.
-/

namespace Mongoose

/-! ## bodies -/

/-- A body is a response to the sequence, node and length a session waits for. -/
def Answers (source sequence minimum : Nat) (body : Bytes) : Prop :=
  minimum ≤ body.length ∧ response_opcode (le16At body 4) ∧ le16At body 0 = 0 ∧
    le16At body 2 = source ∧ le16At body 6 = sequence

instance (source sequence minimum : Nat) (body : Bytes) :
    Decidable (Answers source sequence minimum body) :=
  inferInstanceAs (Decidable (_ ∧ _))

/-- A body answers a call: from its node, with its sequence, long enough. -/
def Call.Answers (call : Call) (body : Bytes) : Prop :=
  Mongoose.Answers call.command.destination call.allocated call.command.minimum body

instance (call : Call) (body : Bytes) : Decidable (call.Answers body) :=
  inferInstanceAs (Decidable (Mongoose.Answers _ _ _ _))

namespace Session

variable {s s' : Session}

/-- The session waits, has no response yet, and the body is one. -/
def Accepts (s : Session) (body : Bytes) : Prop :=
  s.pending ≠ 0 ∧ s.response = none ∧ Answers s.pending_source s.pending s.minimum body

instance (s : Session) (body : Bytes) : Decidable (s.Accepts body) :=
  inferInstanceAs (Decidable (_ ∧ _))

/-- Reading the fields in order decides `Accepts`. -/
theorem accepts_ok {body : Bytes} {b : Bool} (h : s.accepts body = .ok b) :
    b = true ↔ s.Accepts body := by
  rw [accepts] at h
  by_cases hw : s.pending = 0 ∨ s.response.isSome ∨ body.length < s.minimum
  · rw [if_pos hw] at h
    obtain rfl := Except.ok.inj h
    constructor
    · intro hb; cases hb
    · rintro ⟨hp, hr, hm, -⟩
      rw [hr] at hw
      obtain hw | hw | hw := hw
      · exact absurd hw hp
      · cases hw
      · omega
  · rw [if_neg hw] at h
    obtain ⟨hp, hr, hm⟩ : s.pending ≠ 0 ∧ s.response = none ∧ s.minimum ≤ body.length := by
      simpa using hw
    simp only [Accepts, Answers, hp, hr, hm, ne_eq, not_false_eq_true, true_and]
    have h := le16_bind_ok h
    by_cases hop : response_opcode (le16At body 4)
    · rw [if_neg (not_not_intro hop)] at h
      have h := le16_bind_ok h
      by_cases hd : le16At body 0 = 0
      · rw [if_neg (not_not_intro hd)] at h
        have h := le16_bind_ok h
        by_cases hs : le16At body 2 = s.pending_source
        · rw [if_neg (not_not_intro hs)] at h
          have h := le16_bind_ok h
          obtain rfl := Except.ok.inj h
          simp [hop, hd, hs]
        · rw [if_pos hs] at h
          obtain rfl := Except.ok.inj h
          simp [hs]
      · rw [if_pos hd] at h
        obtain rfl := Except.ok.inj h
        simp [hd]
    · rw [if_pos hop] at h
      obtain rfl := Except.ok.inj h
      simp [hop]

/-! ## inbound bytes -/

/-- The installed receiver is all that a delivery changes. -/
theorem deliver_ok {body : Bytes} (h : s.deliver body = .ok s') :
    s' = { s with receivers := s'.receivers } := by
  rw [deliver] at h
  split at h
  · obtain rfl := Except.ok.inj h
    rfl
  · obtain ⟨receiver, -, h⟩ := bind_ok h
    obtain rfl := Except.ok.inj h
    rfl

/-- The installed receiver sees a body, and no other. -/
theorem receivers_of_dispatch {body : Bytes} (h : s.dispatch body = .ok s') :
    s.can_receiver = none ∧ s'.receivers = s.receivers ∨
      ∃ r receiver, s.can_receiver = some r ∧ (s.receivers r).receive body = .ok receiver ∧
        s'.receivers = Function.update s.receivers r receiver := by
  obtain ⟨t, ht, h⟩ := bind_ok h
  obtain ⟨b, -, h⟩ := bind_ok h
  obtain rfl := Except.ok.inj h
  rw [deliver] at ht
  cases hr : s.can_receiver with
  | none =>
      rw [hr] at ht
      obtain rfl := Except.ok.inj ht
      left
      cases b <;> exact ⟨rfl, rfl⟩
  | some r =>
      rw [hr] at ht
      obtain ⟨receiver, hreceive, ht⟩ := bind_ok ht
      obtain rfl := Except.ok.inj ht
      right
      refine ⟨r, receiver, rfl, hreceive, ?_⟩
      cases b <;> rfl

/-- The response after a body. -/
def answered (s : Session) (body : Bytes) : Option Bytes :=
  if s.Accepts body then some body else s.response

/-- A body reaches the installed receiver and the waiting command, and nothing else. -/
theorem dispatch_ok {body : Bytes} (h : s.dispatch body = .ok s') :
    s' = { s with receivers := s'.receivers, response := s.answered body } := by
  obtain ⟨t, ht, h⟩ := bind_ok h
  obtain ⟨b, hb, h⟩ := bind_ok h
  obtain rfl := Except.ok.inj h
  have hs := deliver_ok ht
  have hsame : t.Accepts body ↔ s.Accepts body := by rw [hs]; rfl
  have hacc : b = true ↔ s.Accepts body := (accepts_ok hb).trans hsame
  cases b with
  | false =>
      rw [answered, if_neg fun h => Bool.false_ne_true (hacc.mpr h)]
      exact hs
  | true =>
      rw [answered, if_pos (hacc.mp rfl), if_pos rfl, hs]

/-- The response after several bodies: the first that is one. -/
def answer (s : Session) (bodies : List Bytes) : Option Bytes :=
  if s.pending = 0 ∨ s.response.isSome then s.response
  else bodies.find? fun body => Answers s.pending_source s.pending s.minimum body

theorem answer_nil : s.answer [] = s.response := by
  rw [answer]
  split
  · rfl
  · next hw =>
      obtain ⟨-, hr⟩ : s.pending ≠ 0 ∧ s.response = none := by simpa using hw
      exact hr.symm

/-- The first body takes its turn, then the others. -/
theorem answer_cons (body : Bytes) (bodies : List Bytes) :
    s.answer (body :: bodies) = { s with response := s.answered body }.answer bodies := by
  by_cases hw : s.pending = 0 ∨ s.response.isSome
  · have hacc : ¬ s.Accepts body := by
      rintro ⟨hp, hr, -⟩
      rw [hr] at hw
      exact hw.elim hp (fun h => Bool.false_ne_true h)
    simp only [answer, answered, if_neg hacc, if_pos hw]
  · obtain ⟨hp, hr⟩ : s.pending ≠ 0 ∧ s.response = none := by simpa using hw
    by_cases ha : Answers s.pending_source s.pending s.minimum body
    · simp [answer, answered, Accepts, hp, hr, ha]
    · simp [answer, answered, Accepts, hp, hr, ha]

theorem dispatches_ok {bodies : List Bytes} (h : bodies.foldlM dispatch s = .ok s') :
    s' = { s with receivers := s'.receivers, response := s.answer bodies } := by
  induction bodies generalizing s with
  | nil =>
      obtain rfl := Except.ok.inj h
      rw [answer_nil]
  | cons body bodies ih =>
      obtain ⟨t, ht, h⟩ := bind_ok h
      have hs := ih h
      have ht := dispatch_ok ht
      have hanswer : s.answer (body :: bodies) = t.answer bodies := by
        rw [answer_cons, ht]
        rfl
      rw [hanswer, hs, ht]

/-- A chunk reaches the decoder, its bodies reach the receivers, and the first
that answers the waiting command becomes the response. -/
theorem receive_ok {bytes : Bytes} (h : s.receive bytes = .ok s') :
    ∃ bodies decoder, s.decoder.feed bytes = .ok (bodies, decoder) ∧
      s' = { s with
        decoder := decoder, receivers := s'.receivers, response := s.answer bodies } := by
  obtain ⟨⟨bodies, decoder⟩, hfeed, h⟩ := bind_ok h
  exact ⟨bodies, decoder, hfeed, dispatches_ok h⟩

/-- A response found in a chunk answers the command that waits. -/
theorem answer_cases (s : Session) (bodies : List Bytes) :
    s.answer bodies = s.response ∨
      ∃ body ∈ bodies, s.answer bodies = some body ∧ s.Accepts body := by
  by_cases hw : s.pending = 0 ∨ s.response.isSome
  · exact .inl (by rw [answer, if_pos hw])
  · obtain ⟨hp, hr⟩ : s.pending ≠ 0 ∧ s.response = none := by simpa using hw
    rw [answer, if_neg hw, hr]
    cases hf : bodies.find? fun body => Answers s.pending_source s.pending s.minimum body with
    | none => exact .inl rfl
    | some body =>
        have ha : Answers s.pending_source s.pending s.minimum body := by
          simpa using List.find?_some hf
        exact .inr ⟨body, List.mem_of_find?_eq_some hf, rfl, hp, hr, ha⟩

/-! ## steps that leave the commands alone -/

/-- What a step outside the sections of `command` keeps. -/
structure Quiet (s s' : Session) : Prop where
  sequence : s'.sequence = s.sequence
  pending : s'.pending = s.pending
  pending_source : s'.pending_source = s.pending_source
  minimum : s'.minimum = s.minimum
  used : s'.used = s.used
  closing : s.closing = true → s'.closing = true
  failure : s.failure ≠ "" → s'.failure = s.failure
  response : s'.response = s.response ∨ ∃ body, s'.response = some body ∧ s.Accepts body

theorem Quiet.usable (h : Quiet s s') (hu : s'.usable) : s.usable := by
  constructor
  · by_contra hc
    have := h.closing (by simpa using hc)
    rw [hu.1] at this
    cases this
  · by_contra hf
    exact hf ((h.failure hf).symm.trans hu.2)

/-- A session that differs in none of these fields. -/
theorem quiet_of_eq (hq : s'.sequence = s.sequence) (hp : s'.pending = s.pending)
    (hs : s'.pending_source = s.pending_source) (hm : s'.minimum = s.minimum)
    (hu : s'.used = s.used) (hc : s'.closing = s.closing) (hf : s'.failure = s.failure)
    (hr : s'.response = s.response) : Quiet s s' :=
  ⟨hq, hp, hs, hm, hu, hc.trans, fun _ => hf, .inl hr⟩

/-- The transport's bytes are received, or refused. -/
theorem receive_of_environment {bytes : Bytes} (h : World.environment s (.receive bytes) = some s') :
    s.receive bytes = .ok s' := by
  cases hr : s.receive bytes with
  | error e => simp [World.environment, hr, Except.toOption] at h
  | ok t => simpa [World.environment, hr, Except.toOption] using h

theorem quiet_of_environment {l : Label} (h : World.environment s l = some s') :
    Quiet s s' ∧ s'.transaction = s.transaction := by
  cases l with
  | receive bytes =>
      obtain ⟨bodies, decoder, -, ht⟩ := receive_ok (receive_of_environment h)
      rw [ht]
      refine ⟨⟨rfl, rfl, rfl, rfl, rfl, id, fun _ => rfl, ?_⟩, rfl⟩
      obtain ha | ⟨body, -, ha, hacc⟩ := answer_cases s bodies
      · exact .inl ha
      · exact .inr ⟨body, ha, hacc⟩
  | failed reason =>
      obtain rfl := Option.some.inj h
      exact ⟨⟨rfl, rfl, rfl, rfl, rfl, id, fun hf => if_neg hf, .inl rfl⟩, rfl⟩
  | set_can_receiver receiver =>
      obtain rfl := Option.some.inj h
      rw [set_can_receiver]
      split
      · exact ⟨quiet_of_eq rfl rfl rfl rfl rfl rfl rfl rfl, rfl⟩
      · exact ⟨quiet_of_eq rfl rfl rfl rfl rfl rfl rfl rfl, rfl⟩
  | client receiver op =>
      obtain rfl := Option.some.inj h
      exact ⟨quiet_of_eq rfl rfl rfl rfl rfl rfl rfl rfl, rfl⟩
  | enter c cmd now => cases h
  | act c a => cases h
  | close k a => cases h

theorem quiet_of_close {k : CloserId} {p : Option ClosePhase} {p' : ClosePhase} {a : CloseAction}
    (h : s.close k p a = some (s', p')) : Quiet s s' := by
  cases a with
  | mark =>
      simp only [close, mark_closing] at h
      split at h
      · split at h
        · obtain ⟨rfl, -⟩ := Prod.mk.inj (Option.some.inj h)
          exact quiet_of_eq rfl rfl rfl rfl rfl rfl rfl rfl
        · obtain ⟨rfl, -⟩ := Prod.mk.inj (Option.some.inj h)
          exact ⟨rfl, rfl, rfl, rfl, rfl, fun _ => rfl, fun _ => rfl, .inl rfl⟩
      · cases h
  | lock | drain | stop | done =>
      simp only [close] at h
      split at h
      · obtain ⟨rfl, -⟩ := Prod.mk.inj (Option.some.inj h)
        exact quiet_of_eq rfl rfl rfl rfl rfl rfl rfl rfl
      · cases h

/-- Closing takes `transaction_` when it is free and gives it back at the end. -/
theorem transaction_of_close {k : CloserId} {p : Option ClosePhase} {p' : ClosePhase}
    {a : CloseAction} (h : s.close k p a = some (s', p')) :
    s'.transaction = s.transaction ∨
      (s.transaction = none ∧ s'.transaction = some (.close k)) ∨
      (p = some .stopping ∧ s'.transaction = none) := by
  cases a with
  | lock =>
      obtain ⟨-, h⟩ := Option.ite_none_right_eq_some.mp h
      cases h
      exact .inl rfl
  | mark =>
      obtain ⟨-, h⟩ := Option.ite_none_right_eq_some.mp h
      rw [mark_closing] at h
      split at h <;> cases h <;> exact .inl rfl
  | drain =>
      obtain ⟨⟨-, ht⟩, h⟩ := Option.ite_none_right_eq_some.mp h
      cases h
      exact .inr (.inl ⟨ht, rfl⟩)
  | stop =>
      obtain ⟨-, h⟩ := Option.ite_none_right_eq_some.mp h
      cases h
      exact .inl rfl
  | done =>
      obtain ⟨hp, h⟩ := Option.ite_none_right_eq_some.mp h
      cases h
      exact .inr (.inr ⟨hp, rfl⟩)

/-- A closer past its drain holds `transaction_`. -/
theorem close_holds {k : CloserId} {p : Option ClosePhase} {p' : ClosePhase} {a : CloseAction}
    (h : s.close k p a = some (s', p'))
    (hp : p = some .drained → s.transaction = some (.close k)) (hp' : p' = .drained ∨ p' = .stopping) :
    s'.transaction = some (.close k) := by
  cases a with
  | lock =>
      obtain ⟨-, h⟩ := Option.ite_none_right_eq_some.mp h
      cases h
      obtain h | h := hp' <;> cases h
  | mark =>
      obtain ⟨-, h⟩ := Option.ite_none_right_eq_some.mp h
      rw [mark_closing] at h
      split at h <;> cases h <;> obtain h | h := hp' <;> cases h
  | drain =>
      obtain ⟨-, h⟩ := Option.ite_none_right_eq_some.mp h
      cases h
      rfl
  | stop =>
      obtain ⟨hd, h⟩ := Option.ite_none_right_eq_some.mp h
      cases h
      exact hp hd
  | done =>
      obtain ⟨-, h⟩ := Option.ite_none_right_eq_some.mp h
      cases h
      obtain h | h := hp' <;> cases h

end Session

/-! ## calls -/

/-- The outcomes of a call's step, each with its condition. -/
inductive Took (c : CallId) (s : Session) (call : Call) : Action → Session → Call → Prop
  | slot (hp : call.phase = .slot) (ht : s.transaction = none) :
      Took c s call .slot { s with transaction := some (.command c) } (call.goto .started)
  | slotTimeout (now : Int) (hp : call.phase = .slot) (hd : call.deadline ≤ now) :
      Took c s call (.slotTimeout now) s
        (call.goto (.threw (.Error ERR_TIMEOUT "waiting for command slot timed out")))
  | closing (now : Int) (hp : call.phase = .started) (hc : s.closing = true) :
      Took c s call (.start now) (Call.release s)
        (call.goto (.threw (.Error ERR_DEVICE_NOT_CONNECTED "session is closing")))
  | failed (now : Int) (hp : call.phase = .started) (hf : s.failure ≠ "") :
      Took c s call (.start now) (Call.release s)
        (call.goto (.threw (.Error ERR_DEVICE_NOT_CONNECTED s.failure)))
  | full (now : Int) (q : Nat) (hp : call.phase = .started) (hu : s.usable)
      (ha : s.allocate now 255 s.sequence = (false, q)) :
      Took c s call (.start now) (Call.release { s with sequence := q })
        (call.goto (.threw (.Error ERR_EXCEEDED_LIMIT
          "all sequence numbers are in the 10-second reuse quarantine")))
  | oversize (now : Int) (q : Nat) (e : Exception) (hp : call.phase = .started) (hu : s.usable)
      (ha : s.allocate now 255 s.sequence = (true, q))
      (hw : request call.command.opcode q call.command.payload call.command.destination
        call.command.chan >>= encode = .error e) :
      Took c s call (.start now) (Call.release { s with sequence := q }) (call.goto (.threw e))
  | allocated (now : Int) (q : Nat) (wire : Bytes) (hp : call.phase = .started) (hu : s.usable)
      (ha : s.allocate now 255 s.sequence = (true, q))
      (hw : request call.command.opcode q call.command.payload call.command.destination
        call.command.chan >>= encode = .ok wire) :
      Took c s call (.start now)
        { s with
          sequence := q, pending_source := call.command.destination, pending := q
          minimum := call.command.minimum, response := none
          used := Function.update s.used q now }
        { call with allocated := q, wire := wire, phase := .allocated }
  | known (hp : call.phase = .allocated) : Took c s call .known (call.known s) (call.goto .known)
  | knownThrows (record : Recording) (e : Exception) (hp : call.phase = .allocated)
      (hr : call.command.sequence_known = some record) :
      Took c s call (.knownThrows e)
        (s.update_receiver record.receiver (s.receivers record.receiver).make_room)
        (call.goto (.undo e))
  | late (now : Int) (hp : call.phase = .known) (hd : call.deadline ≤ now) :
      Took c s call (.budget now) s
        (call.goto (.undo (.Error ERR_TIMEOUT "command deadline expired before write")))
  | budget (now : Int) (n : Int) (hp : call.phase = .known) (hd : now < call.deadline) (hn : 0 < n) :
      Took c s call (.budget now) s (call.goto (.sending n))
  | send (n : Int) (hp : call.phase = .sending n) : Took c s call .send s (call.goto .sent)
  | sendReturns (hp : call.phase = .sent) : Took c s call .sendReturns s (call.goto .waiting)
  | sendThrows (e : Exception) (hp : call.phase = .sent) :
      Took c s call (.sendThrows e) s (call.goto (.abandon e))
  | undo (e : Exception) (hp : call.phase = .undo e) :
      Took c s call .undo (Call.release (s.undo call.allocated)) (call.goto (.threw e))
  | abandon (e : Exception) (hp : call.phase = .abandon e) :
      Took c s call .abandon (Call.release s.abandon) (call.goto (.threw e))
  | woken (e : Exception) (hp : call.phase = .waiting) (hu : ¬ s.usable) :
      Took c s call .wake
        (Call.release { s with
          pending := 0
          used := if s.response.isSome then Function.update s.used call.allocated 0 else s.used })
        (call.goto (.threw e))
  | answered (body : Bytes) (hp : call.phase = .waiting) (hu : s.usable)
      (hr : s.response = some body) :
      Took c s call .wake
        (Call.release { s with
          pending := 0, used := Function.update s.used call.allocated 0, response := some [] })
        (call.goto (.returned body))
  | expire (now : Int) (hp : call.phase = .waiting) (hr : s.response = none) (hu : s.usable)
      (hd : call.deadline ≤ now) :
      Took c s call (.expire now) (Call.release s.expire)
        (call.goto (.threw (.Error ERR_TIMEOUT Session.timeout_reason)))

theorem took_of_start {c : CallId} {s s' : Session} {call call' : Call} {now : Int}
    (hp : call.phase = .started) (h : call.start s now = (s', call')) :
    Took c s call (.start now) s' call' := by
  rw [Call.start, Session.start] at h
  by_cases hc : s.closing = true
  · rw [if_pos hc] at h
    obtain ⟨rfl, rfl⟩ := Prod.mk.inj h
    exact .closing now hp hc
  rw [if_neg hc] at h
  by_cases hf : s.failure = ""
  · rw [if_neg (not_not_intro hf)] at h
    have hu : s.usable := ⟨Bool.eq_false_iff.mpr hc, hf⟩
    cases ha : s.allocate now 255 s.sequence with
    | mk available q =>
        simp only [ha] at h
        cases available with
        | false =>
            obtain ⟨rfl, rfl⟩ := Prod.mk.inj h
            exact .full now q hp hu ha
        | true =>
            simp only [Bool.true_eq_false, if_false] at h
            cases hw : request call.command.opcode q call.command.payload call.command.destination
                call.command.chan >>= encode with
            | error e =>
                rw [hw] at h
                obtain ⟨rfl, rfl⟩ := Prod.mk.inj h
                exact .oversize now q e hp hu ha hw
            | ok wire =>
                rw [hw] at h
                obtain ⟨rfl, rfl⟩ := Prod.mk.inj h
                exact .allocated now q wire hp hu ha hw
  · rw [if_pos hf] at h
    obtain ⟨rfl, rfl⟩ := Prod.mk.inj h
    exact .failed now hp hf

theorem took_of_wake {c : CallId} {s s' : Session} {call call' : Call}
    (hp : call.phase = .waiting) (hr : s.ready) (h : call.wake s = (s', call')) :
    Took c s call .wake s' call' := by
  by_cases hu : s.usable
  · obtain ⟨hc, hf⟩ := hu
    obtain ⟨body, hb⟩ : ∃ body, s.response = some body := by
      simpa [Session.ready, hc, hf, Option.isSome_iff_exists] using hr
    have hwake : call.wake s = (Call.release { s with
        pending := 0, used := Function.update s.used call.allocated 0, response := some [] },
        call.goto (.returned body)) := by
      simp [Call.wake, Session.finish, hb, hc, hf]
    rw [hwake] at h
    cases h
    exact .answered body hp ⟨hc, hf⟩ hb
  · have hwake : ∃ e, call.wake s = (Call.release { s with
        pending := 0
        used := if s.response.isSome then Function.update s.used call.allocated 0 else s.used },
        call.goto (.threw e)) := by
      by_cases hc : s.closing = true
      · exact ⟨.Error ERR_DEVICE_NOT_CONNECTED "session closed while waiting", by
          simp [Call.wake, Session.finish, hc]⟩
      · have hf : s.failure ≠ "" := fun hf => hu ⟨Bool.eq_false_iff.mpr hc, hf⟩
        exact ⟨.Error ERR_DEVICE_NOT_CONNECTED s.failure, by
          simp [Call.wake, Session.finish, hc, hf]⟩
    obtain ⟨e, he⟩ := hwake
    rw [he] at h
    cases h
    exact .woken e hp hu

/-- **A call does nothing but what `Took` lists.** -/
theorem took_of_step {c : CallId} {s s' : Session} {call call' : Call} {a : Action}
    (h : call.step c s a = some (s', call')) : Took c s call a s' call' := by
  cases a with
  | slot =>
      obtain ⟨⟨hp, ht⟩, h⟩ := Option.ite_none_right_eq_some.mp h
      cases h
      exact .slot hp ht
  | slotTimeout now =>
      obtain ⟨⟨hp, hd⟩, h⟩ := Option.ite_none_right_eq_some.mp h
      cases h
      exact .slotTimeout now hp hd
  | start now =>
      obtain ⟨hp, h⟩ := Option.ite_none_right_eq_some.mp h
      exact took_of_start hp (Option.some.inj h)
  | known =>
      obtain ⟨hp, h⟩ := Option.ite_none_right_eq_some.mp h
      cases h
      exact .known hp
  | knownThrows e =>
      obtain ⟨hp, h⟩ := Option.ite_none_right_eq_some.mp h
      obtain ⟨record, hr, h⟩ := Option.map_eq_some_iff.mp h
      cases h
      exact .knownThrows record e hp hr
  | budget now =>
      obtain ⟨hp, h⟩ := Option.ite_none_right_eq_some.mp h
      cases h
      by_cases hd : call.deadline ≤ now
      · have hb : call.budget now = .undo (.Error ERR_TIMEOUT "command deadline expired before write") :=
          if_pos (show call.deadline - now ≤ 0 by omega)
        rw [hb]
        exact .late now hp hd
      · have hb : call.budget now = .sending ((call.deadline - now + 999999) / 1000000) :=
          if_neg (show ¬ call.deadline - now ≤ 0 by omega)
        have hn : 0 < (call.deadline - now + 999999) / 1000000 := by omega
        rw [hb]
        exact .budget now _ hp (Int.not_le.mp hd) hn
  | send =>
      rw [Call.step] at h
      split at h
      · next n hp => cases h; exact .send n hp
      · cases h
  | sendReturns =>
      obtain ⟨hp, h⟩ := Option.ite_none_right_eq_some.mp h
      cases h
      exact .sendReturns hp
  | sendThrows e =>
      obtain ⟨hp, h⟩ := Option.ite_none_right_eq_some.mp h
      cases h
      exact .sendThrows e hp
  | undo =>
      rw [Call.step] at h
      split at h
      · next e hp => cases h; exact .undo e hp
      · cases h
  | abandon =>
      rw [Call.step] at h
      split at h
      · next e hp => cases h; exact .abandon e hp
      · cases h
  | wake =>
      obtain ⟨⟨hp, hr⟩, h⟩ := Option.ite_none_right_eq_some.mp h
      exact took_of_wake hp hr (Option.some.inj h)
  | expire now =>
      obtain ⟨⟨hp, hr, hd⟩, h⟩ := Option.ite_none_right_eq_some.mp h
      cases h
      obtain ⟨hresp, hc, hf⟩ : s.response = none ∧ s.closing = false ∧ s.failure = "" := by
        simpa [Session.ready] using hr
      exact .expire now hp hresp ⟨hc, hf⟩ hd

/-! ## the system -/

namespace World

variable {w w' : World}

/-- A step of a call takes the call on, and the session with it. -/
theorem step_act {c : CallId} {a : Action} (h : w.step (.act c a) = some w') :
    ∃ call s call', w.calls c = some call ∧ call.step c w.session a = some (s, call') ∧
      w' = w.put s c call' := by
  obtain ⟨call, hc, h⟩ := Option.bind_eq_some_iff.mp h
  obtain ⟨⟨s, call'⟩, hs, h⟩ := Option.map_eq_some_iff.mp h
  exact ⟨call, s, call', hc, hs, h.symm⟩

/-- A step is a call made, a step of a call, a section of `close`, or a step of
the transport and the channels. -/
theorem step_cases {l : Label} (h : w.step l = some w') :
    (∃ c cmd now, l = .enter c cmd now ∧ w.calls c = none ∧
      w' = w.put w.session c (Call.enter cmd now)) ∨
    (∃ c a call s call', l = .act c a ∧ w.calls c = some call ∧ Took c w.session call a s call' ∧
      w' = w.put s c call') ∨
    (∃ k a s p, l = .close k a ∧ w.session.close k (w.closers k) a = some (s, p) ∧
      w' = { w with session := s, closers := Function.update w.closers k (some p) }) ∨
    (∃ s, l.call = none ∧ environment w.session l = some s ∧ w' = { w with session := s }) := by
  cases l with
  | enter c cmd now =>
      obtain ⟨hc, h⟩ := Option.ite_none_right_eq_some.mp h
      cases h
      exact .inl ⟨c, cmd, now, rfl, Option.isNone_iff_eq_none.mp hc, rfl⟩
  | act c a =>
      obtain ⟨call, s, call', hc, hs, hw⟩ := step_act h
      exact .inr (.inl ⟨c, a, call, s, call', rfl, hc, took_of_step hs, hw⟩)
  | close k a =>
      obtain ⟨⟨s, p⟩, hs, h⟩ := Option.map_eq_some_iff.mp h
      exact .inr (.inr (.inl ⟨k, a, s, p, rfl, hs, h.symm⟩))
  | receive bytes | failed reason | set_can_receiver receiver | client receiver op =>
      simp only [step] at h
      obtain ⟨s, hs, h⟩ := Option.map_eq_some_iff.mp h
      exact .inr (.inr (.inr ⟨s, rfl, hs, h.symm⟩))

/-- What a step does to one call. -/
theorem calls_of_step {l : Label} (h : w.step l = some w') (d : CallId) :
    w'.calls d = w.calls d ∨
    (∃ cmd now, l = .enter d cmd now ∧ w.calls d = none ∧ w'.calls d = some (Call.enter cmd now)) ∨
    (∃ a call call', l = .act d a ∧ w.calls d = some call ∧ w'.calls d = some call' ∧
      ∃ s, Took d w.session call a s call') := by
  obtain ⟨c, cmd, now, rfl, hc, rfl⟩ | ⟨c, a, call, s, call', rfl, hc, ht, rfl⟩ | ⟨k, a, s, p, -, -, rfl⟩ |
    ⟨s, -, -, rfl⟩ := step_cases h
  · by_cases hd : d = c
    · subst hd
      exact .inr (.inl ⟨cmd, now, rfl, hc, put_calls_self ..⟩)
    · exact .inl (put_calls_of_ne _ _ _ hd)
  · by_cases hd : d = c
    · subst hd
      exact .inr (.inr ⟨a, call, call', rfl, hc, put_calls_self .., s, ht⟩)
    · exact .inl (put_calls_of_ne _ _ _ hd)
  · exact .inl rfl
  · exact .inl rfl

end World

end Mongoose
