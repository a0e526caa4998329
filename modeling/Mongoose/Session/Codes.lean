import Mongoose.Can.Readers
import Mongoose.Session.Touched

/-!
# Mongoose.Session.Codes

The codes that receivers are stopped with.

A session retires a receiver, or loses its device; a channel stops one for the same
reason.  So a receiver that is stopped throws one of two codes at whoever waits for it.
-/

namespace Mongoose

/-- A receiver that is stopped was stopped with one of two codes. -/
def CanReceiver.Coded (r : CanReceiver) : Prop :=
  r.stopped = 0 ∨ r.stopped = ERR_INVALID_CHANNEL_ID ∨ r.stopped = ERR_DEVICE_NOT_CONNECTED

namespace CanReceiver

variable {r : CanReceiver}

/-- A stop has one of the two codes, or the receiver keeps the one it has. -/
theorem Coded.stop (h : r.Coded) {code : Int}
    (hcode : code = ERR_INVALID_CHANNEL_ID ∨ code = ERR_DEVICE_NOT_CONNECTED) (reason : String) :
    (r.stop code reason).Coded := by
  by_cases hs : r.stopped = 0
  · right
    simpa [CanReceiver.stop, hs] using hcode
  · simpa [CanReceiver.stop, Coded, hs] using h

/-- Making room stops nothing. -/
theorem Coded.make_room (h : r.Coded) : r.make_room.Coded := by
  unfold CanReceiver.make_room
  split <;> exact h

end CanReceiver

namespace Session

variable {s s' : Session}

def Coded (s : Session) : Prop := ∀ r, (s.receivers r).Coded

/-- One receiver changes, and is stopped by one of the codes if at all. -/
theorem Coded.update_receiver (h : s.Coded) {r : ReceiverRef} {receiver : CanReceiver}
    (hr : receiver.Coded) : (s.update_receiver r receiver).Coded := by
  intro q
  by_cases hq : q = r
  · subst hq
    simpa [Session.update_receiver] using hr
  · simpa [Session.update_receiver, Function.update_of_ne hq] using h q

/-- So when the receiver of the channel is stopped. -/
theorem Coded.stop_receiver (h : s.Coded) {code : Int}
    (hcode : code = ERR_INVALID_CHANNEL_ID ∨ code = ERR_DEVICE_NOT_CONNECTED) (reason : String) :
    (s.stop_receiver code reason).Coded := by
  rw [Session.stop_receiver]
  cases s.can_receiver with
  | none => exact h
  | some r => exact h.update_receiver ((h r).stop hcode reason)

/-- A failure stops it by the code of a lost connection. -/
theorem Coded.fail (h : s.Coded) (reason : String) : (s.fail reason).Coded :=
  Coded.stop_receiver (s := { s with failure := reason }) h (.inr rfl) reason

/-- What comes in stops nothing by itself. -/
theorem Coded.dispatches (hs : ∀ r, (s.receivers r).Proper) (h : s.Coded) {bodies : List Bytes}
    (hd : bodies.foldlM dispatch s = .ok s') : s'.Coded := by
  induction bodies generalizing s with
  | nil =>
      obtain rfl := Except.ok.inj hd
      exact h
  | cons body bodies ih =>
      obtain ⟨t, ht, hd⟩ := bind_ok hd
      refine ih (fun r => CanReceiver.Touched.proper_many (touches_dispatch (P := fun _ => True) ht r) (hs r)) ?_ hd
      obtain ⟨-, hr⟩ | ⟨q, receiver, -, hreceive, hr⟩ := receivers_of_dispatch ht
      · intro r
        rw [hr]
        exact h r
      · rw [CanReceiver.receive_classify (hs q).bounded] at hreceive
        obtain rfl := Except.ok.inj hreceive
        have hrec := CanReceiver.received_handle (hs q).bounded ((s.receivers q).classify body)
        have hcoded : ((s.receivers q).handle ((s.receivers q).classify body)).Coded := by
          rw [CanReceiver.Coded, hrec.stopped]
          exact h q
        intro r
        rw [hr]
        exact h.update_receiver hcoded r

/-- The environment stops by one of the codes. -/
theorem Coded.environment (hs : ∀ r, (s.receivers r).Proper) (h : s.Coded) {l : Label}
    (hl : ∀ r code reason, l = .client r (.stop code reason) →
      code = ERR_INVALID_CHANNEL_ID ∨ code = ERR_DEVICE_NOT_CONNECTED)
    (he : World.environment s l = some s') : s'.Coded := by
  cases l with
  | receive bytes =>
      obtain ⟨⟨bodies, decoder⟩, -, hd⟩ := bind_ok (receive_of_environment he)
      exact Coded.dispatches (s := { s with decoder := decoder }) hs h hd
  | failed reason =>
      cases he
      exact h.fail _
  | set_can_receiver receiver =>
      cases he
      have hretired := h.stop_receiver (.inl rfl) "CAN channel retired"
      rw [set_can_receiver]
      split
      · exact hretired
      · exact Coded.stop_receiver (s := { s.stop_receiver ERR_INVALID_CHANNEL_ID "CAN channel retired" with
          can_receiver := receiver }) hretired (.inr rfl) _
  | client r op =>
      cases he
      refine h.update_receiver ?_
      cases op with
      | stop code reason => exact (h r).stop (hl r code reason rfl) reason
      | report =>
          rw [ReceiverOp.apply, CanReceiver.report]
          split_ifs <;> exact h r
      | _ => exact h r
  | enter | act | close => cases he

/-- So does a closer. -/
theorem Coded.close (h : s.Coded) {k : CloserId} {p : Option ClosePhase} {p' : ClosePhase} {a : CloseAction}
    (hk : s.close k p a = some (s', p')) : s'.Coded := by
  cases a with
  | mark =>
      obtain ⟨-, hk⟩ := Option.ite_none_right_eq_some.mp hk
      rw [mark_closing] at hk
      split at hk
      · cases hk
        exact h
      · cases hk
        exact Coded.stop_receiver (s := { s with closing := true }) h (.inr rfl) _
  | lock | drain | stop | done =>
      obtain ⟨-, hk⟩ := Option.ite_none_right_eq_some.mp hk
      cases hk
      exact h

end Session

/-- And a command that fails. -/
theorem Took.coded {c : CallId} {s s' : Session} {call call' : Call} {a : Action}
    (ht : Took c s call a s' call') (h : s.Coded) : s'.Coded := by
  cases ht with
  | known hp =>
      rw [Call.known]
      cases call.command.sequence_known with
      | none => exact h
      | some record => exact h.update_receiver (CanReceiver.Coded.make_room (h record.receiver))
  | knownThrows record e hp hr => exact h.update_receiver (CanReceiver.Coded.make_room (h record.receiver))
  | abandon e hp => exact Session.Coded.fail (s := { s with pending := 0 }) h _
  | expire now hp hr hu hd => exact Session.Coded.fail (s := { s with pending := 0 }) h _
  | _ => exact h

/-- A step keeps the codes, unless it stops a receiver with another. -/
theorem World.coded_step {w w' : World} {l : Label} (hs : ∀ r, (w.session.receivers r).Proper)
    (h : w.session.Coded) (hl : ∀ r code reason, l = .client r (.stop code reason) →
      code = ERR_INVALID_CHANNEL_ID ∨ code = ERR_DEVICE_NOT_CONNECTED)
    (ht : w.step l = some w') : w'.session.Coded := by
  obtain ⟨c, cmd, now, rfl, -, rfl⟩ | ⟨c, a, call, s, call', rfl, -, htook, rfl⟩ |
    ⟨k, a, s, p, rfl, hk, rfl⟩ | ⟨s, -, he, rfl⟩ := step_cases ht
  · exact h
  · exact htook.coded h
  · exact h.close hk
  · exact h.environment hs hl he

end Mongoose
