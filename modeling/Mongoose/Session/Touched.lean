import Mathlib.Logic.Relation
import Mongoose.Can.Inbound
import Mongoose.Session.Outcome

/-!
# Mongoose.Session.Touched

What a step of a session does to its receivers.

Whatever a thread does, each receiver takes some of its own functions, in a row:
`touches_of_step` says so once, so that what they keep, every run keeps.  `Guards` says
how the session minds the receiver that is installed: it stops it when it replaces it,
and when it dies itself.
-/

namespace Mongoose

open Relation

namespace CanReceiver

/-! ## one receiver -/

/-- One function of a receiver.  Where a write is noted, `P` holds of its message. -/
inductive Touched (P : PASSTHRU_MSG → Prop) (r : CanReceiver) : CanReceiver → Prop
  | body (body : Bytes) (r' : CanReceiver) (h : r.receive body = .ok r') : Touched P r r'
  | note (message : PASSTHRU_MSG) (sequence : Nat) (call : Option TransmitCall) (h : P message) :
      Touched P r (r.note_transmit message sequence call)
  | make_room : Touched P r r.make_room
  | op (op : ReceiverOp) : Touched P r (op.apply r)

/-- What always holds of a receiver: its queues keep their bounds, and are empty once it is
stopped. -/
structure Proper (r : CanReceiver) : Prop where
  bounded : r.Bounded
  empty : r.stopped ≠ 0 → r.backlog = []

/-- A stopped receiver stays stopped, for the same reason, and counts nothing. -/
structure Ages (r r' : CanReceiver) : Prop where
  stopped : r.stopped ≠ 0 → r'.stopped = r.stopped ∧ r'.reason = r.reason
  counts : r.stopped ≠ 0 → r'.transmitted = r.transmitted ∧ r'.confirmed = r.confirmed

section ages

variable {r r' r'' : CanReceiver}

/-- A receiver that stays as it is. -/
theorem Ages.refl (r : CanReceiver) : Ages r r := ⟨fun _ => ⟨rfl, rfl⟩, fun _ => ⟨rfl, rfl⟩⟩

/-- One change after the other. -/
theorem Ages.trans (h : Ages r r') (h' : Ages r' r'') : Ages r r'' := by
  constructor
  · intro hs
    obtain ⟨hstopped, hreason⟩ := h.stopped hs
    have hs' := h'.stopped (hstopped ▸ hs)
    exact ⟨hs'.1.trans hstopped, hs'.2.trans hreason⟩
  · intro hs
    obtain ⟨htransmitted, hconfirmed⟩ := h.counts hs
    have hs' := h'.counts ((h.stopped hs).1 ▸ hs)
    exact ⟨hs'.1.trans htransmitted, hs'.2.trans hconfirmed⟩

/-- A receiver that differs in none of these fields. -/
theorem Ages.of_eq (hs : r'.stopped = r.stopped) (hr : r'.reason = r.reason)
    (ht : r'.transmitted = r.transmitted) (hc : r'.confirmed = r.confirmed) : Ages r r' :=
  ⟨fun _ => ⟨hs, hr⟩, fun _ => ⟨ht, hc⟩⟩

/-- A stopped receiver takes no body. -/
theorem receive_stopped (hs : r.stopped ≠ 0) (body : Bytes) : r.receive body = .ok r := by
  rw [receive, if_pos (.inl hs)]
  rfl

/-- A stop leaves the first one its code and its reason. -/
theorem ages_stop (r : CanReceiver) (code : Int) (reason : String) : Ages r (r.stop code reason) := by
  constructor
  · intro hs
    simp [stop, hs]
  · exact fun _ => ⟨rfl, rfl⟩

/-- After a stop a receiver is stopped. -/
theorem stopped_stop (r : CanReceiver) {code : Int} (reason : String) (hcode : code ≠ 0) :
    (r.stop code reason).stopped ≠ 0 := by
  by_cases hs : r.stopped = 0 <;> simp [stop, hs, hcode]

end ages

namespace Touched

variable {P : PASSTHRU_MSG → Prop} {r r' : CanReceiver}

/-- Whatever touches a receiver ages it. -/
theorem ages (h : Touched P r r') : Ages r r' := by
  cases h with
  | body body _ h =>
      by_cases hs : r.stopped ≠ 0
      · rw [receive_stopped hs] at h
        cases h
        exact .refl r
      · exact ⟨fun h => absurd h hs, fun h => absurd h hs⟩
  | note =>
      simp only [CanReceiver.note_transmit, CanReceiver.make_room]
      split <;> exact .of_eq rfl rfl rfl rfl
  | make_room =>
      simp only [CanReceiver.make_room]
      split <;> exact .of_eq rfl rfl rfl rfl
  | op op =>
      cases op with
      | stop code reason => exact ages_stop r code reason
      | report =>
          simp only [ReceiverOp.apply, report]
          split_ifs <;> exact .of_eq rfl rfl rfl rfl
      | _ => exact .of_eq rfl rfl rfl rfl

/-- A receiver that has the same queue, or none. -/
theorem proper_of_eq (hr : r.Proper) (hb : r'.Bounded) (hs : r'.stopped = r.stopped)
    (hq : r.backlog = [] → r'.backlog = []) : r'.Proper :=
  ⟨hb, fun h => hq (hr.empty (hs ▸ h))⟩

/-- And keeps it proper. -/
theorem proper (h : Touched P r r') (hr : r.Proper) : r'.Proper := by
  have hb := hr.bounded
  cases h with
  | body body _ h =>
      rw [receive_eq hb] at h
      obtain rfl := Except.ok.inj h
      split
      · exact hr
      · next hs =>
          have hrec := received_handle hb (inbound (channel_node r.protocol.toNat) body)
          exact ⟨hrec.bounded, fun h => absurd (hrec.stopped ▸ h) hs⟩
  | note =>
      simp only [CanReceiver.note_transmit, CanReceiver.make_room]
      split <;> exact proper_of_eq hr ⟨hb.messages, hb.frames, hb.one⟩ rfl id
  | make_room =>
      simp only [CanReceiver.make_room]
      split <;> exact proper_of_eq hr ⟨hb.messages, hb.frames, hb.one⟩ rfl id
  | op op =>
      cases op with
      | stop code reason => exact ⟨bounded_stop r code reason, fun _ => backlog_stop r code reason⟩
      | flush_receive => exact proper_of_eq hr (bounded_flush_receive r) rfl fun _ => backlog_flush_receive r
      | take left =>
          refine proper_of_eq hr (hb.take left) rfl fun hq => ?_
          rw [ReceiverOp.apply, (take_eq hb left).2, hq, List.drop_nil]
      | report =>
          simp only [ReceiverOp.apply, report]
          split_ifs <;> exact proper_of_eq hr ⟨hb.messages, hb.frames, hb.one⟩ rfl id
      | _ => exact proper_of_eq hr ⟨hb.messages, hb.frames, hb.one⟩ rfl id

/-- What each function keeps, several do. -/
theorem ages_many (h : ReflTransGen (Touched P) r r') : Ages r r' := by
  induction h with
  | refl => exact .refl r
  | tail _ h ih => exact ih.trans h.ages

/-- However often. -/
theorem proper_many (h : ReflTransGen (Touched P) r r') (hr : r.Proper) : r'.Proper := by
  induction h with
  | refl => exact hr
  | tail _ h ih => exact h.proper ih

end Touched

end CanReceiver

namespace Session

/-! ## one session -/

variable {P : PASSTHRU_MSG → Prop} {s s' s'' : Session}

/-- Every receiver has taken some of its functions. -/
def Touches (P : PASSTHRU_MSG → Prop) (s s' : Session) : Prop :=
  ∀ r, ReflTransGen (CanReceiver.Touched P) (s.receivers r) (s'.receivers r)

theorem Touches.refl (s : Session) : Touches P s s := fun _ => .refl

/-- Receivers that stay the same were not touched. -/
theorem Touches.of_eq (h : s'.receivers = s.receivers) : Touches P s s' := fun _ => h ▸ .refl

/-- Touches add up. -/
theorem Touches.trans (h : Touches P s s') (h' : Touches P s' s'') : Touches P s s'' :=
  fun r => (h r).trans (h' r)

/-- One receiver is touched, the others are not. -/
theorem touches_update_receiver {r : ReceiverRef} {receiver : CanReceiver}
    (h : ReflTransGen (CanReceiver.Touched P) (s.receivers r) receiver) :
    Touches P s (s.update_receiver r receiver) := by
  intro q
  by_cases hq : q = r
  · subst hq
    simpa [update_receiver] using h
  · simpa [update_receiver, hq] using ReflTransGen.refl

/-- A stop touches the receiver of the channel. -/
theorem touches_stop_receiver (s : Session) (code : Int) (reason : String) :
    Touches P s (s.stop_receiver code reason) := by
  intro q
  rw [stop_receiver]
  cases s.can_receiver with
  | none => exact .refl
  | some r =>
      by_cases hq : q = r
      · subst hq
        simpa [ReceiverOp.apply] using
          ReflTransGen.single (CanReceiver.Touched.op (P := P) (r := s.receivers q) (.stop code reason))
      · simpa [hq] using ReflTransGen.refl

/-- The receiver that is installed stops. -/
theorem stopped_stop_receiver {r : ReceiverRef} {code : Int} (reason : String) (hcode : code ≠ 0)
    (hr : s.can_receiver = some r) : ((s.stop_receiver code reason).receivers r).stopped ≠ 0 := by
  simp only [stop_receiver, hr, Function.update_self]
  exact CanReceiver.stopped_stop _ reason hcode

/-- A body touches it too. -/
theorem touches_dispatch {body : Bytes} (h : s.dispatch body = .ok s') : Touches P s s' := by
  obtain ⟨-, h⟩ | ⟨r, receiver, -, hreceive, h⟩ := receivers_of_dispatch h
  · exact .of_eq h
  · intro q
    rw [h]
    exact touches_update_receiver (.single (.body body receiver hreceive)) q

/-- And all bodies of a chunk. -/
theorem touches_dispatches {bodies : List Bytes} (h : bodies.foldlM dispatch s = .ok s') :
    Touches P s s' := by
  induction bodies generalizing s with
  | nil =>
      obtain rfl := Except.ok.inj h
      exact .refl s
  | cons body bodies ih =>
      obtain ⟨t, ht, h⟩ := bind_ok h
      exact (touches_dispatch ht).trans (ih h)

theorem touches_receive {bytes : Bytes} (h : s.receive bytes = .ok s') : Touches P s s' := by
  obtain ⟨⟨bodies, decoder⟩, -, h⟩ := bind_ok h
  exact fun r => touches_dispatches h r

/-- The receiver that is installed is stopped if the session is dead. -/
def Guarded (s : Session) : Prop :=
  ∀ r, s.can_receiver = some r → ¬ s.usable → (s.receivers r).stopped ≠ 0

/-- How a session minds its receiver: it touches no other, stops it when it replaces it,
and when it dies. -/
structure Minds (P : PASSTHRU_MSG → Prop) (s s' : Session) : Prop where
  touches : Touches P s s'
  replaced : ∀ r, s.can_receiver = some r → s'.can_receiver = some r ∨ (s'.receivers r).stopped ≠ 0
  guarded : s.Guarded → s'.Guarded

/-- What is stopped stays stopped. -/
theorem Touches.stopped (h : Touches P s s') {r : ReceiverRef} (hr : (s.receivers r).stopped ≠ 0) :
    (s'.receivers r).stopped ≠ 0 :=
  ((CanReceiver.Touched.ages_many (h r)).stopped hr).1 ▸ hr

/-- The same receiver, on a session that is as usable as before. -/
theorem Minds.of_touches (h : Touches P s s') (hr : s'.can_receiver = s.can_receiver)
    (hu : s.usable → s'.usable) : Minds P s s' :=
  ⟨h, fun _ hs => .inl (hr.trans hs), fun hg r hs hdead =>
    h.stopped (hg r (hr ▸ hs) fun hx => hdead (hu hx))⟩

/-- The same receiver, stopped. -/
theorem Minds.of_stop (s : Session) {code : Int} (reason : String) (hcode : code ≠ 0)
    {t : Session} (hr : t.can_receiver = s.can_receiver) (ht : t.receivers = s.receivers) :
    Minds P s (t.stop_receiver code reason) :=
  ⟨fun r => ht ▸ touches_stop_receiver t code reason r, fun _ hs => .inl (hr.trans hs),
    fun _ _ hs _ => stopped_stop_receiver reason hcode hs⟩

/-- Who holds the locks does not matter. -/
theorem Minds.release (h : Minds P s s') : Minds P s (Call.release s') :=
  ⟨h.touches, h.replaced, h.guarded⟩

/-- A failure stops the receiver it leaves behind. -/
theorem minds_fail (t : Session) (reason : String) (hr : t.can_receiver = s.can_receiver)
    (ht : t.receivers = s.receivers) : Minds P s (t.fail reason) :=
  .of_stop s reason (by decide) hr ht

/-- A receiver that is replaced is stopped. -/
theorem minds_set_can_receiver (s : Session) (receiver : Option ReceiverRef) :
    Minds P s (s.set_can_receiver receiver) := by
  have hretire := touches_stop_receiver (P := P) s ERR_INVALID_CHANNEL_ID "CAN channel retired"
  have hold : ∀ r, s.can_receiver = some r →
      ((s.stop_receiver ERR_INVALID_CHANNEL_ID "CAN channel retired").receivers r).stopped ≠ 0 :=
    fun r hr => stopped_stop_receiver _ (by decide) hr
  rw [set_can_receiver]
  split
  · next hu => exact ⟨hretire, fun r hr => .inr (hold r hr), fun _ _ _ hdead => absurd hu hdead⟩
  · have hlost := touches_stop_receiver (P := P)
      { s.stop_receiver ERR_INVALID_CHANNEL_ID "CAN channel retired" with can_receiver := receiver }
      ERR_DEVICE_NOT_CONNECTED "device connection lost"
    exact ⟨hretire.trans hlost, fun r hr => .inr (hlost.stopped (hold r hr)),
      fun _ _ hr _ => stopped_stop_receiver _ (by decide) hr⟩

theorem can_receiver_set (s : Session) (receiver : Option ReceiverRef) :
    (s.set_can_receiver receiver).can_receiver = receiver := by
  rw [set_can_receiver]
  split <;> rfl

/-- The environment never replaces a receiver without stopping it. -/
theorem minds_environment {l : Label} (h : World.environment s l = some s') : Minds P s s' := by
  cases l with
  | receive bytes =>
      have hr := receive_of_environment h
      obtain ⟨bodies, decoder, -, ht⟩ := receive_ok hr
      exact .of_touches (touches_receive hr) (by rw [ht]) fun hu => by rw [ht]; exact hu
  | failed reason =>
      cases h
      exact minds_fail (s := s) s _ rfl rfl
  | set_can_receiver receiver =>
      cases h
      exact minds_set_can_receiver s receiver
  | client r op =>
      cases h
      exact .of_touches (touches_update_receiver (.single (.op op))) rfl id
  | enter c cmd now => cases h
  | act c a => cases h
  | close k a => cases h

/-- Nor does a closer. -/
theorem minds_close {k : CloserId} {p : Option ClosePhase} {p' : ClosePhase} {a : CloseAction}
    (h : s.close k p a = some (s', p')) : Minds P s s' := by
  cases a with
  | mark =>
      obtain ⟨-, h⟩ := Option.ite_none_right_eq_some.mp h
      rw [mark_closing] at h
      split at h
      · cases h
        exact .of_touches (.of_eq rfl) rfl id
      · cases h
        exact .of_stop s _ (by decide) rfl rfl
  | lock | drain | stop | done =>
      obtain ⟨-, h⟩ := Option.ite_none_right_eq_some.mp h
      cases h
      exact .of_touches (.of_eq rfl) rfl id

end Session

/-- A call touches a receiver to note its write, and stops the one installed if it kills
the session. -/
theorem Took.minds {P : PASSTHRU_MSG → Prop} {c : CallId} {s s' : Session} {call call' : Call}
    {a : Action} (h : Took c s call a s' call')
    (hP : ∀ record, call.command.sequence_known = some record → P record.message) :
    Session.Minds P s s' := by
  cases h with
  | known hp =>
      rw [Call.known]
      cases hr : call.command.sequence_known with
      | none => exact .of_touches (.refl s) rfl id
      | some record =>
          exact .of_touches
            (Session.touches_update_receiver (.single (.note _ _ _ (hP record hr)))) rfl id
  | knownThrows record e hp hr =>
      exact .of_touches (Session.touches_update_receiver (.single .make_room)) rfl id
  | abandon e hp => exact (Session.minds_fail (s := s) { s with pending := 0 } _ rfl rfl).release
  | expire now hp hr hu hd => exact (Session.minds_fail (s := s) { s with pending := 0 } _ rfl rfl).release
  | _ => exact .of_touches (.of_eq rfl) rfl id

namespace World

variable {P : PASSTHRU_MSG → Prop} {w w' : World} {l : Label}

/-- Every write that a call is to note has `P`. -/
def Permits (P : PASSTHRU_MSG → Prop) (w : World) : Prop :=
  ∀ c call, w.calls c = some call →
    ∀ record, call.command.sequence_known = some record → P record.message

/-- Nor does any step. -/
theorem minds_of_step (hn : w.Permits P) (h : w.step l = some w') : w.session.Minds P w'.session := by
  obtain ⟨c, cmd, now, rfl, -, rfl⟩ | ⟨c, a, call, s, call', rfl, hc, ht, rfl⟩ |
    ⟨k, a, s, p, rfl, hk, rfl⟩ | ⟨s, hl, he, rfl⟩ := step_cases h
  · exact .of_touches (.refl _) rfl id
  · exact ht.minds (hn c call hc)
  · exact Session.minds_close hk
  · exact Session.minds_environment he

/-- Nothing is asked of the writes. -/
theorem permits_trivial (w : World) : w.Permits fun _ => True := fun _ _ _ _ _ => trivial

/-- The receivers of a run are proper. -/
theorem proper_of_run {protocol : ReceiverRef → UInt32} {ls : List Label}
    (h : Run.run step (opened protocol) ls = some w) (r : ReceiverRef) :
    (w.session.receivers r).Proper := by
  refine Run.invariant (I := fun w => ∀ r, (w.session.receivers r).Proper) ?_ ?_ h r
  · intro m l t hm hs r
    exact CanReceiver.Touched.proper_many ((minds_of_step m.permits_trivial hs).touches r) (hm r)
  · intro r
    refine ⟨⟨Nat.zero_le _, Nat.zero_le _, ?_⟩, fun h => absurd rfl h⟩
    split <;> rfl

end World

end Mongoose
