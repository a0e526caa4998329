import Mongoose.Session.Invariant

/-!
# Mongoose.Session.Matching

Which inbound body answers which command.

A `Log` is kept beside the run: all bodies in order of arrival, and for each
call how many had arrived when its sequence became pending and how many when it
stopped waiting.  `response_matching` says that a call that returns does so with
the first body in between that answers it, that these windows never overlap, and
that any other body leaves the commands alone.
-/

namespace Mongoose

/-! ## the bodies of a chunk -/

namespace Session

variable {s s' : Session}

/-- The bodies a chunk completes. -/
def arrived (s : Session) (bytes : Bytes) : List Bytes :=
  match s.decoder.feed bytes with
  | .ok r => r.1
  | .error _ => []

theorem response_of_receive {bytes : Bytes} (h : s.receive bytes = .ok s') :
    s'.response = s.answer (s.arrived bytes) := by
  obtain ⟨bodies, decoder, hfeed, hs⟩ := receive_ok h
  rw [hs, arrived, hfeed]

/-- Only inbound bytes change the response from outside the calls. -/
theorem response_of_environment {l : Label} (h : World.environment s l = some s')
    (hl : ∀ bytes, l ≠ .receive bytes) : s'.response = s.response := by
  cases l with
  | receive bytes => exact absurd rfl (hl bytes)
  | failed reason | client receiver op => cases h; rfl
  | set_can_receiver receiver =>
      cases h
      rw [set_can_receiver]
      split <;> rfl
  | enter c cmd now => cases h
  | act c a => cases h
  | close k a => cases h

theorem response_of_close {k : CloserId} {p : Option ClosePhase} {p' : ClosePhase}
    {a : CloseAction} (h : s.close k p a = some (s', p')) : s'.response = s.response := by
  cases a with
  | mark =>
      obtain ⟨-, h⟩ := Option.ite_none_right_eq_some.mp h
      rw [mark_closing] at h
      split at h <;> cases h <;> rfl
  | lock | drain | stop | done =>
      obtain ⟨-, h⟩ := Option.ite_none_right_eq_some.mp h
      cases h
      rfl

end Session

/-- A body answers no call if its opcode is not a response's. -/
theorem Call.not_answers_of_opcode {call : Call} {body : Bytes}
    (h : ¬ response_opcode (le16At body 4)) : ¬ call.Answers body :=
  fun ha => h ha.2.1

namespace Took

variable {c : CallId} {s s' : Session} {call call' : Call} {a : Action}

/-- A call with a sequence number keeps it and its command, so the same bodies answer it. -/
theorem answers_eq (h : Took c s call a s' call') (ha : call.phase.Active) :
    (fun body => decide (call'.Answers body)) = fun body => decide (call.Answers body) := by
  cases h with
  | allocated now q wire hp =>
      rw [hp] at ha
      exact ha.elim
  | _ => rfl

/-- A call that keeps its sequence number leaves the response alone. -/
theorem response_eq (h : Took c s call a s' call') (ha : call.phase.Active)
    (ha' : call'.phase.Active) : s'.response = s.response := by
  cases h with
  | known hp => rw [Call.known]; split <;> rfl
  | allocated now q wire hp => rw [hp] at ha; exact ha.elim
  | undo | abandon | woken | answered | expire => exact ha'.elim
  | _ => rfl

/-- A call gets a sequence number in its first section. -/
theorem active_of_ne_start (h : Took c s call a s' call') (ha : ∀ now, a ≠ .start now)
    (hp : call'.phase.Active) : call.phase.Active := by
  cases h with
  | slot | slotTimeout | undo | abandon | woken | answered | expire => exact hp.elim
  | closing now | failed now | full now | oversize now | allocated now => exact absurd rfl (ha now)
  | known hp' | knownThrows _ _ hp' | late _ hp' | budget _ _ hp' | send _ hp' | sendReturns hp'
  | sendThrows _ hp' => rw [hp']; trivial

/-- A call returns from its wait. -/
theorem not_returned_of_ne_wake (h : Took c s call a s' call') (ha : a ≠ .wake) (body : Bytes) :
    call'.phase ≠ .returned body := by
  cases h with
  | answered => exact absurd rfl ha
  | budget | late => exact Phase.noConfusion
  | _ => exact Phase.noConfusion

end Took

namespace World

/-! ## the log -/

/-- What a run logs for the matching of responses. -/
structure Log where
  /-- The inbound bodies in order of arrival. -/
  arrivals : List Bytes := []
  /-- How many had arrived when a call's sequence became pending. -/
  started : CallId → Nat := fun _ => 0
  /-- How many had arrived when a call stopped waiting. -/
  ended : CallId → Nat := fun _ => 0

namespace Log

def note (w : World) (l : Label) (_ : World) (h : Log) : Log :=
  match l with
  | .receive bytes => { h with arrivals := h.arrivals ++ w.session.arrived bytes }
  | .act c (.start _) => { h with started := Function.update h.started c h.arrivals.length }
  | .act c .wake => { h with ended := Function.update h.ended c h.arrivals.length }
  | _ => h

/-- The bodies that arrived while a call waited. -/
def window (h : Log) (c : CallId) : List Bytes :=
  (h.arrivals.take (h.ended c)).drop (h.started c)

end Log

/-- What the log says of the calls. -/
structure Matched (w : World) (h : Log) : Prop where
  active : ∀ {c call}, w.calls c = some call → call.phase.Active →
    h.started c ≤ h.arrivals.length ∧
      w.session.response = (h.arrivals.drop (h.started c)).find? fun b => call.Answers b
  returned : ∀ {c call body}, w.calls c = some call → call.phase = .returned body →
    h.started c ≤ h.ended c ∧ h.ended c ≤ h.arrivals.length ∧
      (h.window c).find? (fun b => call.Answers b) = some body
  before : ∀ {c d call call' body}, w.calls c = some call → call.phase.Active →
    w.calls d = some call' → call'.phase = .returned body → h.ended d ≤ h.started c
  disjoint : ∀ {c d call call' body body'}, w.calls c = some call → call.phase = .returned body →
    w.calls d = some call' → call'.phase = .returned body' → c ≠ d →
    h.ended c ≤ h.started d ∨ h.ended d ≤ h.started c

variable {w w' : World} {h : Log}

theorem matched_opened (protocol : ReceiverRef → UInt32) : Matched (opened protocol) {} where
  active := fun hc => by cases hc
  returned := fun hc => by cases hc
  before := fun hc => by cases hc
  disjoint := fun hc => by cases hc

/-- Steps that move neither the calls, the response nor the log. -/
theorem Matched.congr (hm : Matched w h) (hc : w'.calls = w.calls)
    (hr : w'.session.response = w.session.response) : Matched w' h := by
  refine ⟨fun hd ha => ?_, fun hd => hm.returned (hc ▸ hd), fun hd ha he => ?_,
    fun hd hp he => hm.disjoint (hc ▸ hd) hp (hc ▸ he)⟩
  · rw [hr]
    exact hm.active (hc ▸ hd) ha
  · exact hm.before (hc ▸ hd) ha (hc ▸ he)

/-- Inbound bytes: the response is still the first that answers. -/
theorem Matched.receive (hm : Matched w h) (hw : w.Sound) {bytes : Bytes} {s : Session}
    (hs : w.session.receive bytes = .ok s) :
    Matched { w with session := s } { h with arrivals := h.arrivals ++ w.session.arrived bytes } := by
  refine ⟨fun {c call} hc ha => ?_, fun {c call body} hc hp => ?_, hm.before, hm.disjoint⟩
  · obtain ⟨hle, hr⟩ := hm.active hc ha
    have hown := hw.owns hc ha
    refine ⟨Nat.le_trans hle (by simp), ?_⟩
    change s.response = _
    rw [Session.response_of_receive hs, Session.answer, List.drop_append_of_le_length hle,
      List.find?_append, ← hr]
    have hpos : w.session.pending ≠ 0 := by
      have := hown.pos
      rw [hown.pending]
      omega
    cases hresp : w.session.response with
    | some body => simp
    | none =>
        simp only [hpos, Option.isSome_none, Bool.false_eq_true, or_self, if_false, Option.none_or]
        rw [hown.source, hown.pending, hown.minimum]
        rfl
  · obtain ⟨hse, hle, hfind⟩ := hm.returned hc hp
    refine ⟨hse, Nat.le_trans hle (by simp), ?_⟩
    rwa [Log.window, List.take_append_of_le_length hle]

/-- A step of a call other than its first section and its wake-up. -/
theorem Matched.act (hm : Matched w h) (hw : w.Sound) {c : CallId} {call call' : Call} {a : Action}
    {s : Session} (hc : w.calls c = some call) (ht : Took c w.session call a s call')
    (hstart : ∀ now, a ≠ .start now) (hwake : a ≠ .wake) : Matched (w.put s c call') h := by
  have hother {d call''} (hd : (w.put s c call').calls d = some call'') {body : Bytes}
      (hp : call''.phase = .returned body) : w.calls d = some call'' := by
    by_cases hdc : d = c
    · subst hdc
      rw [put_calls_self] at hd
      cases hd
      exact absurd hp (ht.not_returned_of_ne_wake hwake body)
    · rwa [put_calls_of_ne _ _ _ hdc] at hd
  refine ⟨fun {d call''} hd ha => ?_, fun hd hp => hm.returned (hother hd hp) hp,
    fun {d e call'' call₃ body} hd ha he hp => ?_,
    fun hd hp he hp' => hm.disjoint (hother hd hp) hp (hother he hp') hp'⟩
  · by_cases hdc : d = c
    · subst hdc
      rw [put_calls_self] at hd
      cases hd
      have ha' := ht.active_of_ne_start hstart ha
      rw [put_session, ht.response_eq ha' ha, ht.answers_eq ha']
      exact hm.active hc ha'
    · rw [put_calls_of_ne _ _ _ hdc] at hd
      have hs : s = w.session := ht.eq_of_other (hw.holds hc)
        (fun h => hdc (Holder.command.inj h)) (hw.holds hd ha.holds)
      rw [put_session, hs]
      exact hm.active hd ha
  · by_cases hdc : d = c
    · subst hdc
      rw [put_calls_self] at hd
      cases hd
      exact hm.before hc (ht.active_of_ne_start hstart ha) (hother he hp) hp
    · rw [put_calls_of_ne _ _ _ hdc] at hd
      exact hm.before hd ha (hother he hp) hp

/-- The first section of a call: its window opens at the end of the log. -/
theorem Matched.start (hm : Matched w h) (hw : w.Sound) {c : CallId} {call call' : Call}
    {now : Int} {s : Session} (hc : w.calls c = some call)
    (ht : Took c w.session call (.start now) s call') :
    Matched (w.put s c call')
      { h with started := Function.update h.started c h.arrivals.length } := by
  have hphase : call.phase = .started := by cases ht <;> assumption
  have hret (body : Bytes) : call'.phase ≠ .returned body :=
    ht.not_returned_of_ne_wake Action.noConfusion body
  have hne {d call'' body} (hd : (w.put s c call').calls d = some call'')
      (hp : call''.phase = .returned body) : d ≠ c ∧ w.calls d = some call'' := by
    by_cases hdc : d = c
    · subst hdc
      rw [put_calls_self] at hd
      cases hd
      exact absurd hp (hret body)
    · exact ⟨hdc, by rwa [put_calls_of_ne _ _ _ hdc] at hd⟩
  -- the call holds `transaction_`, so no other has a sequence number
  have honly {d call''} (hd : (w.put s c call').calls d = some call'') (ha : call''.phase.Active) :
      d = c := by
    by_contra hdc
    rw [put_calls_of_ne _ _ _ hdc] at hd
    exact hdc (hw.eq_of_holds hd hc ha.holds (by rw [hphase]; trivial))
  refine ⟨fun {d call''} hd ha => ?_, fun {d call'' body} hd hp => ?_,
    fun {d e call'' call₃ body} hd ha he hp => ?_, fun {d e _ _ _ _} hd hp he hp' hde => ?_⟩
  · obtain rfl := honly hd ha
    rw [put_calls_self] at hd
    cases hd
    have hr : s.response = none := by
      cases ht with
      | allocated => rfl
      | closing | failed | full | oversize => exact ha.elim
    simp [Function.update_self, hr]
  · obtain ⟨hdc, hd⟩ := hne hd hp
    simp only [Log.window, Function.update_of_ne hdc]
    exact hm.returned hd hp
  · obtain rfl := honly hd ha
    obtain ⟨hec, he⟩ := hne he hp
    simp only [Function.update_self]
    exact (hm.returned he hp).2.1
  · obtain ⟨hdc, hd⟩ := hne hd hp
    obtain ⟨hec, he⟩ := hne he hp'
    simp only [Function.update_of_ne hdc, Function.update_of_ne hec]
    exact hm.disjoint hd hp he hp' hde

/-- The wake-up of a call: its window closes at the end of the log. -/
theorem Matched.wake (hm : Matched w h) (hw : w.Sound) {c : CallId} {call call' : Call}
    {s : Session} (hc : w.calls c = some call) (ht : Took c w.session call .wake s call') :
    Matched (w.put s c call')
      { h with ended := Function.update h.ended c h.arrivals.length } := by
  have hact : call.phase.Active := by
    cases ht with
    | woken _ hp | answered _ hp => rw [hp]; trivial
  have hend : ¬ call'.phase.Active := by cases ht <;> exact id
  obtain ⟨hle, hresp⟩ := hm.active hc hact
  have hnone {d call''} (hd : (w.put s c call').calls d = some call'') : ¬ call''.phase.Active := by
    intro ha
    by_cases hdc : d = c
    · subst hdc
      rw [put_calls_self] at hd
      cases hd
      exact hend ha
    · rw [put_calls_of_ne _ _ _ hdc] at hd
      exact hdc (hw.eq_of_holds hd hc ha.holds hact.holds)
  have hbefore {d call'' body} (hd : (w.put s c call').calls d = some call'') (hdc : d ≠ c)
      (hp : call''.phase = .returned body) : h.ended d ≤ h.started c := by
    rw [put_calls_of_ne _ _ _ hdc] at hd
    exact hm.before hc hact hd hp
  refine ⟨fun hd ha => absurd ha (hnone hd), fun {d call'' body} hd hp => ?_,
    fun hd ha => absurd ha (hnone hd), fun {d e call'' call₃ body body'} hd hp he hp' hde => ?_⟩
  · by_cases hdc : d = c
    · subst hdc
      rw [put_calls_self] at hd
      cases hd
      cases ht with
      | woken => cases hp
      | answered body' hp' hu hr =>
          cases hp
          rw [hr] at hresp
          simp only [Log.window, Function.update_self, List.take_length]
          exact ⟨hle, Nat.le_refl _, hresp.symm⟩
    · rw [put_calls_of_ne _ _ _ hdc] at hd
      simp only [Log.window, Function.update_of_ne hdc]
      exact hm.returned hd hp
  · by_cases hdc : d = c
    · subst hdc
      simp only [Function.update_of_ne hde.symm]
      exact .inr (hbefore he hde.symm hp')
    · by_cases hec : e = c
      · subst hec
        simp only [Function.update_of_ne hdc]
        exact .inl (hbefore hd hdc hp)
      · rw [put_calls_of_ne _ _ _ hdc] at hd
        rw [put_calls_of_ne _ _ _ hec] at he
        simp only [Function.update_of_ne hdc, Function.update_of_ne hec]
        exact hm.disjoint hd hp he hp' hde

/-- A call that has just been made is in no window. -/
theorem Matched.enter (hm : Matched w h) {c : CallId} (cmd : Command) (now : Int) :
    Matched (w.put w.session c (Call.enter cmd now)) h := by
  have hactive : ¬ (Call.enter cmd now).phase.Active := by
    rw [Call.enter]
    split <;> exact id
  have hret (body : Bytes) : (Call.enter cmd now).phase ≠ .returned body := by
    rw [Call.enter]
    split <;> exact Phase.noConfusion
  have hne {d call} (hd : (w.put w.session c (Call.enter cmd now)).calls d = some call)
      (hp : call.phase.Active ∨ ∃ body, call.phase = .returned body) : w.calls d = some call := by
    by_cases hdc : d = c
    · subst hdc
      rw [put_calls_self] at hd
      cases hd
      obtain ha | ⟨body, hp⟩ := hp
      · exact absurd ha hactive
      · exact absurd hp (hret body)
    · rwa [put_calls_of_ne _ _ _ hdc] at hd
  exact ⟨fun hd ha => hm.active (hne hd (.inl ha)) ha,
    fun hd hp => hm.returned (hne hd (.inr ⟨_, hp⟩)) hp,
    fun hd ha he hp => hm.before (hne hd (.inl ha)) ha (hne he (.inr ⟨_, hp⟩)) hp,
    fun hd hp he hp' => hm.disjoint (hne hd (.inr ⟨_, hp⟩)) hp (hne he (.inr ⟨_, hp'⟩)) hp'⟩

/-- Every step keeps the log true. -/
theorem Matched.step (hm : Matched w h) (hw : w.Sound) {l : Label} (hs : w.step l = some w') :
    Matched w' (Log.note w l w' h) := by
  obtain ⟨c, cmd, now, rfl, -, rfl⟩ | ⟨c, a, call, s, call', rfl, hc, ht, rfl⟩ |
    ⟨k, a, s, p, rfl, hk, rfl⟩ | ⟨s, hl, he, rfl⟩ := step_cases hs
  · exact hm.enter cmd now
  · cases a with
    | start now => exact hm.start hw hc ht
    | wake => exact hm.wake hw hc ht
    | slot | slotTimeout | known | knownThrows | budget | send | sendReturns | sendThrows | undo
    | abandon | expire =>
        exact hm.act hw hc ht (fun _ => Action.noConfusion) Action.noConfusion
  · exact hm.congr rfl (Session.response_of_close hk)
  · cases l with
    | receive bytes => exact hm.receive hw (Session.receive_of_environment he)
    | failed | set_can_receiver | client =>
        exact hm.congr rfl (Session.response_of_environment he fun _ => Label.noConfusion)
    | enter | act | close => cases he

theorem matched_run {protocol : ReceiverRef → UInt32} {ls : List Label}
    (hr : Run.run (Run.recording step Log.note) (opened protocol, {}) ls = some (w, h)) :
    Matched w h := by
  have hboth : w.Sound ∧ Matched w h := by
    refine Run.invariant (I := fun r : World × Log => r.1.Sound ∧ Matched r.1 r.2)
      (fun m l t hm hs => ?_) ⟨sound_opened protocol, matched_opened protocol⟩ hr
    obtain ⟨hs, ht⟩ := Run.recording_eq_some_iff.mp hs
    rw [ht]
    exact ⟨hm.1.step hs, hm.2.step hm.1 hs⟩
  exact hboth.2

/-- **Responses are matched.** In every run a call that returned did so with the
first body of its window that answers it; the windows of two calls share no
body; a body the session does not wait for leaves everything but the receiver as
it was, and one it waits for only becomes the response; and data and indications
answer nothing. -/
theorem response_matching {protocol : ReceiverRef → UInt32} {ls : List Label} {w : World} {h : Log}
    (hr : Run.run (Run.recording step Log.note) (opened protocol, {}) ls = some (w, h)) :
    (∀ c call body, w.calls c = some call → call.phase = .returned body →
      (h.window c).find? (fun b => call.Answers b) = some body) ∧
    (∀ c d call call' body body', w.calls c = some call → call.phase = .returned body →
      w.calls d = some call' → call'.phase = .returned body' → c ≠ d →
      h.ended c ≤ h.started d ∨ h.ended d ≤ h.started c) ∧
    (∀ (s s' : Session) (body : Bytes), s.dispatch body = .ok s' →
      s' = { s with
        receivers := s'.receivers
        response := if s.Accepts body then some body else s.response }) ∧
    (∀ (call : Call) (body : Bytes), le16At body 4 = 9 ∨ le16At body 4 = 10 →
      ¬ call.Answers body) := by
  have hm := matched_run hr
  refine ⟨fun c call body hc hp => (hm.returned hc hp).2.2,
    fun c d call call' body body' hc hp hd hp' hcd => hm.disjoint hc hp hd hp' hcd,
    fun s s' body hs => Session.dispatch_ok hs, fun call body hop => ?_⟩
  apply Call.not_answers_of_opcode
  obtain h | h := hop <;> rw [h] <;> decide

/-- A command, a body with another sequence, its answer, and a second answer. -/
def answered : List Label :=
  [.enter 0 { opcode := 3 } 0, .act 0 .slot, .act 0 (.start 1), .act 0 .known, .act 0 (.budget 2),
    .act 0 .send,
    .receive ([20, 0, 0xf2, 0x51] ++ [0, 0, 1, 0, 3, 0x80, 9, 0, 0, 0, 0, 0, 0, 0, 0, 0, 0, 0, 0, 0]),
    .receive ([20, 0, 0xf2, 0x51] ++ [0, 0, 1, 0, 3, 0x80, 1, 0, 0, 0, 0, 0, 0, 0, 0, 0, 0, 0, 0, 0] ++
      [20, 0, 0xf2, 0x51] ++ [0, 0, 1, 0, 3, 0x80, 1, 0, 0, 0, 0, 0, 7, 0, 0, 0, 0, 0, 0, 0]),
    .act 0 .sendReturns, .act 0 .wake]

theorem response_matching_exchange :
    ∃ w h call, Run.run (Run.recording step Log.note) (opened fun _ => CAN, {}) answered = some (w, h) ∧
      w.calls 0 = some call ∧ h.arrivals.length = 3 ∧
      (h.window 0).find? (fun b => call.Answers b) =
        some [0, 0, 1, 0, 3, 0x80, 1, 0, 0, 0, 0, 0, 0, 0, 0, 0, 0, 0, 0, 0] := by
  have hphase : (Run.run (Run.recording step Log.note) (opened fun _ => CAN, {}) answered).bind
      (fun r => (r.1.calls 0).map fun call => (call.phase, r.2.arrivals.length)) =
        some (.returned [0, 0, 1, 0, 3, 0x80, 1, 0, 0, 0, 0, 0, 0, 0, 0, 0, 0, 0, 0, 0], 3) := by
    decide +kernel
  obtain ⟨⟨w, h⟩, hr, hc⟩ := Option.bind_eq_some_iff.mp hphase
  obtain ⟨call, hc, hp⟩ := Option.map_eq_some_iff.mp hc
  obtain ⟨hp, hlen⟩ := Prod.mk.inj hp
  exact ⟨w, h, call, hr, hc, hlen, (response_matching hr).1 0 call _ hc hp⟩

end World

end Mongoose
