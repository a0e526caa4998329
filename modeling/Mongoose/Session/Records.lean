import Mongoose.Session.Invariant

/-!
# Mongoose.Session.Records

What the steps of a session do to the sequence counter and to the records of the
writes still to be confirmed.

On a usable session at rest every sequence is free, so an allocation takes the
cyclic successor of the last one.  `records_of_step` sorts the steps into those
that note a write, those that forget the newest record, and all others, which
only ever drop records from the front.
-/

namespace Mongoose

/-! ## the counter -/

namespace Session

variable {s s' : Session}

/-- With every sequence free the loop stops at the first it tries. -/
theorem allocate_of_free (now : Int) (n q : Nat) (h : ∀ q, s.used q = 0) :
    s.allocate now (n + 1) q = (true, q % 255 + 1) := by
  rw [allocate]
  exact if_pos (.inl (h _))

/-! ## the records -/

end Session

/-- A receiver keeps its counts, and its records but for some at the front. -/
structure CanReceiver.Sheds (r r' : CanReceiver) : Prop where
  pending : r'.pending_transmits <:+ r.pending_transmits
  transmitted : r'.transmitted = r.transmitted
  confirmed : r'.confirmed = r.confirmed

namespace CanReceiver

variable {r r' r'' : CanReceiver}

theorem Sheds.refl (r : CanReceiver) : Sheds r r := ⟨List.suffix_rfl, rfl, rfl⟩

/-- What is shed stays so. -/
theorem Sheds.trans (h : Sheds r r') (h' : Sheds r' r'') : Sheds r r'' :=
  ⟨h'.pending.trans h.pending, h'.transmitted.trans h.transmitted, h'.confirmed.trans h.confirmed⟩

/-- Room is made at the front. -/
theorem pending_make_room (r : CanReceiver) : r.make_room.pending_transmits <:+ r.pending_transmits := by
  rw [make_room]
  split
  · exact List.tail_suffix _
  · exact List.suffix_rfl

/-- Making room only sheds records. -/
theorem sheds_make_room (r : CanReceiver) : Sheds r r.make_room := by
  refine ⟨pending_make_room r, ?_, ?_⟩ <;> rw [make_room] <;> split <;> rfl

/-- A stop sheds all of them. -/
theorem sheds_stop (r : CanReceiver) (code : Int) (reason : String) : Sheds r (r.stop code reason) :=
  ⟨List.nil_suffix, rfl, rfl⟩

/-- What a channel does with its receiver, but for forgetting the newest record. -/
theorem sheds_op {op : ReceiverOp} (hop : op ≠ .forget_transmit) (r : CanReceiver) :
    Sheds r (op.apply r) := by
  cases op with
  | forget_transmit => exact absurd rfl hop
  | stop code reason => exact sheds_stop r code reason
  | forget_transmits => exact ⟨List.nil_suffix, rfl, rfl⟩
  | flush_receive | set_loopback | take => exact ⟨List.suffix_rfl, rfl, rfl⟩
  | report =>
      rw [ReceiverOp.apply, report]
      split_ifs <;> exact ⟨List.suffix_rfl, rfl, rfl⟩

end CanReceiver

namespace Session

variable {s s' : Session}

def Sheds (s s' : Session) : Prop := ∀ r, (s.receivers r).Sheds (s'.receivers r)

theorem Sheds.refl (s : Session) : Sheds s s := fun r => .refl (s.receivers r)

/-- Receivers that are the same shed nothing. -/
theorem Sheds.of_eq (h : s'.receivers = s.receivers) : Sheds s s' := fun r => h ▸ .refl (s.receivers r)

/-- So for all receivers. -/
theorem Sheds.trans {t : Session} (h : Sheds s t) (h' : Sheds t s') : Sheds s s' :=
  fun r => (h r).trans (h' r)

/-- One receiver sheds, the others do not. -/
theorem sheds_update_receiver {r : ReceiverRef} {receiver : CanReceiver}
    (h : (s.receivers r).Sheds receiver) : Sheds s (s.update_receiver r receiver) := by
  intro r'
  by_cases hr : r' = r
  · subst hr
    simpa [update_receiver] using h
  · simpa [update_receiver, Function.update_of_ne hr] using CanReceiver.Sheds.refl (s.receivers r')

/-- A stop of the channel's receiver sheds its records. -/
theorem sheds_stop_receiver (s : Session) (code : Int) (reason : String) :
    Sheds s (s.stop_receiver code reason) := by
  rw [stop_receiver]
  cases s.can_receiver with
  | none => exact .refl s
  | some r => exact sheds_update_receiver (CanReceiver.sheds_stop (s.receivers r) code reason)

/-- So does a replacement. -/
theorem sheds_set_can_receiver (s : Session) (receiver : Option ReceiverRef) :
    Sheds s (s.set_can_receiver receiver) := by
  have hretire := sheds_stop_receiver s ERR_INVALID_CHANNEL_ID "CAN channel retired"
  rw [set_can_receiver]
  split
  · exact hretire
  · exact hretire.trans (sheds_stop_receiver { s.stop_receiver ERR_INVALID_CHANNEL_ID
      "CAN channel retired" with can_receiver := receiver } _ _)

/-- Apart from what comes in, the environment only sheds. -/
theorem sheds_environment {l : Label} (h : World.environment s l = some s')
    (hr : ∀ bytes, l ≠ .receive bytes) (hl : ∀ r, l ≠ .client r .forget_transmit) : Sheds s s' := by
  cases l with
  | receive bytes => exact absurd rfl (hr bytes)
  | failed reason =>
      cases h
      exact fun r => sheds_stop_receiver { s with failure := _ } _ _ r
  | set_can_receiver receiver =>
      cases h
      exact sheds_set_can_receiver s receiver
  | client r op =>
      cases h
      refine sheds_update_receiver (CanReceiver.sheds_op (fun hop => ?_) (s.receivers r))
      exact hl r (by rw [hop])
  | enter c cmd now => cases h
  | act c a => cases h
  | close k a => cases h

/-- So does a closer. -/
theorem sheds_close {k : CloserId} {p : Option ClosePhase} {p' : ClosePhase} {a : CloseAction}
    (h : s.close k p a = some (s', p')) : Sheds s s' := by
  cases a with
  | mark =>
      obtain ⟨-, h⟩ := Option.ite_none_right_eq_some.mp h
      rw [mark_closing] at h
      split at h
      · cases h
        exact .of_eq rfl
      · cases h
        exact fun r => sheds_stop_receiver { s with closing := true } _ _ r
  | lock | drain | stop | done =>
      obtain ⟨-, h⟩ := Option.ite_none_right_eq_some.mp h
      cases h
      exact .of_eq rfl

/-- Every receiver keeps its records, but for some at the front. -/
def Drops (s s' : Session) : Prop :=
  ∀ r, (s'.receivers r).pending_transmits <:+ (s.receivers r).pending_transmits

/-- What sheds records drops them from the front. -/
theorem Sheds.drops (h : Sheds s s') : Drops s s' := fun r => (h r).pending

/-- A body drops records at the front alone. -/
theorem drops_dispatch {body : Bytes} (h : s.dispatch body = .ok s') : Drops s s' := by
  intro r
  obtain ⟨-, h⟩ | ⟨q, receiver, -, hreceive, h⟩ := receivers_of_dispatch h
  · simp [h]
  · rw [h]
    by_cases hr : r = q
    · subst hr
      simpa using CanReceiver.pending_receive hreceive
    · simp [Function.update_of_ne hr]

/-- So does a chunk. -/
theorem drops_receive {bytes : Bytes} (h : s.receive bytes = .ok s') : Drops s s' := by
  obtain ⟨⟨bodies, decoder⟩, -, h⟩ := bind_ok h
  suffices hfold : ∀ (bodies : List Bytes) (t : Session),
      bodies.foldlM dispatch t = .ok s' → Drops t s' from
    fun r => hfold bodies { s with decoder := decoder } h r
  intro bodies
  induction bodies with
  | nil =>
      intro t ht
      obtain rfl := Except.ok.inj ht
      exact (Sheds.refl t).drops
  | cons body bodies ih =>
      intro t ht
      obtain ⟨u, hu, ht⟩ := bind_ok ht
      exact fun r => (ih u ht r).trans (drops_dispatch hu r)

/-- And whatever the environment does short of forgetting the last. -/
theorem drops_environment {l : Label} (h : World.environment s l = some s')
    (hl : ∀ r, l ≠ .client r .forget_transmit) : Drops s s' := by
  by_cases hr : ∀ bytes, l ≠ .receive bytes
  · exact (sheds_environment h hr hl).drops
  · obtain ⟨bytes, rfl⟩ : ∃ bytes, l = .receive bytes := by simpa using hr
    exact drops_receive (receive_of_environment h)

end Session

namespace Took

variable {c : CallId} {s s' : Session} {call call' : Call} {a : Action}

/-- A call counts the sequence up by one when it takes one. -/
theorem sequence_or (h : Took c s call a s' call')
    (hrest : call.phase.Holds → ¬ call.phase.Active → s.Rest) :
    s'.sequence = s.sequence ∨ s'.sequence = s.sequence % 255 + 1 := by
  have hnext {now : Int} {b : Bool} {q : Nat} (hp : call.phase = .started) (hu : s.usable)
      (ha : s.allocate now 255 s.sequence = (b, q)) : q = s.sequence % 255 + 1 := by
    have hs : s.Rest := hrest (by rw [hp]; trivial) (by rw [hp]; exact id)
    rw [Session.allocate_of_free now 254 s.sequence (hs.used hu)] at ha
    exact (Prod.mk.inj ha).2.symm
  cases h with
  | full now q hp hu ha | oversize now q _ hp hu ha | allocated now q _ hp hu ha =>
      exact .inr (hnext hp hu ha)
  | known hp => exact .inl (quiet_known call s).sequence
  | _ => exact .inl rfl

/-- A call that notes no write only sheds records. -/
theorem sheds (h : Took c s call a s' call')
    (hn : a = .known → call.command.sequence_known = none) : Session.Sheds s s' := by
  cases h with
  | known hp =>
      rw [Call.known, hn rfl]
      exact .refl s
  | knownThrows record e hp hr =>
      exact Session.sheds_update_receiver (CanReceiver.sheds_make_room _)
  | abandon e hp =>
      exact fun r => Session.sheds_stop_receiver { s with pending := 0, failure := _ } _ _ r
  | expire now hp hr hu hd =>
      exact fun r => Session.sheds_stop_receiver { s with pending := 0, failure := _ } _ _ r
  | _ => exact .of_eq rfl

end Took

namespace World

variable {w w' : World} {l : Label}

/-- The write a step notes: its receiver and its sequence. -/
def noting (w : World) : Label → Option (ReceiverRef × Nat)
  | .act c .known =>
      (w.calls c).bind fun call =>
        call.command.sequence_known.map fun record => (record.receiver, call.allocated)
  | _ => none

/-- A step notes a write, forgets the newest record, or drops records from the front. -/
theorem records_of_step (hw : w.Sound) (h : w.step l = some w') :
    (∃ r, w.noting l = some (r, w.session.sequence) ∧ 1 ≤ w.session.sequence ∧
      w'.session.sequence = w.session.sequence ∧
      (∀ r', r' ≠ r → w'.session.receivers r' = w.session.receivers r') ∧
      (w'.session.receivers r).pending_transmits.map (·.sequence) =
        (w.session.receivers r).make_room.pending_transmits.map (·.sequence) ++
          [w.session.sequence]) ∨
    (∃ r, l = .client r .forget_transmit ∧ w'.session.sequence = w.session.sequence ∧
      (∀ r', r' ≠ r → w'.session.receivers r' = w.session.receivers r') ∧
      (w'.session.receivers r).pending_transmits =
        (w.session.receivers r).pending_transmits.dropLast) ∨
    (w.noting l = none ∧ (∀ r, l ≠ .client r .forget_transmit) ∧
      (w'.session.sequence = w.session.sequence ∨
        w'.session.sequence = w.session.sequence % 255 + 1) ∧
      Session.Drops w.session w'.session) := by
  obtain ⟨c, cmd, now, rfl, -, rfl⟩ | ⟨c, a, call, s, call', rfl, hc, ht, rfl⟩ |
    ⟨k, a, s, p, rfl, hk, rfl⟩ | ⟨s, hl, he, rfl⟩ := step_cases h
  · exact .inr (.inr ⟨rfl, fun _ => Label.noConfusion, .inl rfl, (Session.Sheds.refl _).drops⟩)
  · by_cases hn : a = .known → call.command.sequence_known = none
    · refine .inr (.inr ⟨?_, fun _ => Label.noConfusion, ht.sequence_or (hw.rest_of_holds hc),
        (ht.sheds hn).drops⟩)
      cases a with
      | known => rw [noting, hc, Option.bind_some, hn rfl]; rfl
      | _ => rfl
    · obtain ⟨rfl, hsome⟩ := Classical.not_imp.mp hn
      obtain ⟨record, hrec⟩ := Option.ne_none_iff_exists'.mp hsome
      cases ht with
      | known hp =>
          have hown : call.Owns w.session := hw.owns hc (by rw [hp]; trivial)
          rw [hown.sequence]
          refine .inl ⟨record.receiver, by rw [noting, hc, Option.bind_some, hrec]; rfl, hown.pos,
            ?_, fun r' hr' => ?_, ?_⟩
          · exact (Took.quiet_known call w.session).sequence.trans hown.sequence
          · rw [put_session, Call.known, hrec]
            exact Function.update_of_ne hr' ..
          · rw [put_session, Call.known, hrec]
            simp [Session.update_receiver, CanReceiver.note_transmit]
  · exact .inr (.inr ⟨rfl, fun _ => Label.noConfusion, .inl (Session.quiet_of_close hk).sequence,
      (Session.sheds_close hk).drops⟩)
  · have hq := (Session.quiet_of_environment he).1
    have hn : w.noting l = none := by cases l <;> first | rfl | cases hl
    by_cases hl' : ∀ r, l ≠ .client r .forget_transmit
    · exact .inr (.inr ⟨hn, hl', .inl hq.sequence, Session.drops_environment he hl'⟩)
    · obtain ⟨r, rfl⟩ : ∃ r, l = .client r .forget_transmit := by simpa using hl'
      cases he
      refine .inr (.inl ⟨r, rfl, rfl, fun r' hr' => Function.update_of_ne hr' .., ?_⟩)
      simp [Session.update_receiver, ReceiverOp.apply, CanReceiver.forget_transmit]

end World

end Mongoose
