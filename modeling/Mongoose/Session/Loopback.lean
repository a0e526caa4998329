import Mongoose.Session.Touched

/-!
# Mongoose.Session.Loopback

Who turns LOOPBACK on and off.

A receiver samples the setting when a write is confirmed and nothing in a session changes
it, so along every run it is what the channel last set.
-/

namespace Mongoose

namespace CanReceiver

/-- Reporting a write samples the setting. -/
theorem loopback_announce (r : CanReceiver) (sent : PendingTransmit) (timestamp : UInt32) :
    (r.announce sent timestamp).loopback = r.loopback := by
  rw [announce]
  split <;> rfl

/-- What comes in leaves LOOPBACK. -/
theorem loopback_handle (r : CanReceiver) (x : Inbound) : (r.handle x).loopback = r.loopback := by
  cases x with
  | other | loss | malformed => rfl
  | sent sequence timestamp =>
      rw [handle]
      split
      · rfl
      · next sent _ =>
          obtain ⟨confirmed, pending, hpair⟩ := pair_kept r sequence sent
          rw [loopback_announce, hpair]
  | data status timestamp frame =>
      rw [handle]
      split <;> rfl

/-- So does a body. -/
theorem loopback_receive {r r' : CanReceiver} (hr : r.Bounded) {body : Bytes}
    (h : r.receive body = .ok r') : r'.loopback = r.loopback := by
  rw [receive_eq hr] at h
  obtain rfl := Except.ok.inj h
  split
  · rfl
  · exact loopback_handle r _

/-- And making room. -/
theorem loopback_make_room (r : CanReceiver) : r.make_room.loopback = r.loopback := by
  rw [make_room]
  split <;> rfl

/-- The channel sets it, and does nothing else to it. -/
theorem loopback_apply (r : CanReceiver) {op : ReceiverOp} (h : ∀ enabled, op ≠ .set_loopback enabled) :
    (op.apply r).loopback = r.loopback := by
  cases op with
  | set_loopback enabled => exact absurd rfl (h enabled)
  | report =>
      simp only [ReceiverOp.apply, report]
      split_ifs <;> rfl
  | _ => rfl

end CanReceiver

namespace Session

variable {s s' s'' : Session}

/-- Every receiver has its setting. -/
def SameLoopback (s s' : Session) : Prop :=
  ∀ r, (s'.receivers r).loopback = (s.receivers r).loopback

/-- Receivers that are the same have the same LOOPBACK. -/
theorem SameLoopback.of_eq (h : s'.receivers = s.receivers) : SameLoopback s s' := fun _ => by rw [h]

/-- It stays the same. -/
theorem SameLoopback.trans (h : SameLoopback s s') (h' : SameLoopback s' s'') : SameLoopback s s'' :=
  fun r => (h' r).trans (h r)

/-- One receiver changes and keeps it. -/
theorem sameLoopback_update_receiver {r : ReceiverRef} {receiver : CanReceiver}
    (h : receiver.loopback = (s.receivers r).loopback) : SameLoopback s (s.update_receiver r receiver) := by
  intro q
  by_cases hq : q = r
  · subst hq
    simpa [update_receiver] using h
  · simp [update_receiver, hq]

/-- A stop keeps it. -/
theorem sameLoopback_stop_receiver (s : Session) (code : Int) (reason : String) :
    SameLoopback s (s.stop_receiver code reason) := by
  intro q
  rw [stop_receiver]
  cases s.can_receiver with
  | none => rfl
  | some r =>
      by_cases hq : q = r
      · subst hq
        simp [CanReceiver.stop]
      · simp [hq]

/-- A body does. -/
theorem sameLoopback_dispatch (hs : ∀ r, (s.receivers r).Proper) {body : Bytes} (h : s.dispatch body = .ok s') :
    SameLoopback s s' := by
  obtain ⟨-, h⟩ | ⟨r, receiver, -, hreceive, h⟩ := receivers_of_dispatch h
  · exact .of_eq h
  · intro q
    rw [h]
    exact sameLoopback_update_receiver (CanReceiver.loopback_receive (hs r).bounded hreceive) q

theorem sameLoopback_dispatches (hs : ∀ r, (s.receivers r).Proper) {bodies : List Bytes}
    (h : bodies.foldlM dispatch s = .ok s') : SameLoopback s s' := by
  induction bodies generalizing s with
  | nil =>
      obtain rfl := Except.ok.inj h
      exact .of_eq rfl
  | cons body bodies ih =>
      obtain ⟨t, ht, h⟩ := bind_ok h
      have htouches := touches_dispatch (P := fun _ => True) ht
      exact (sameLoopback_dispatch hs ht).trans
        (ih (fun r => CanReceiver.Touched.proper_many (htouches r) (hs r)) h)

/-- Whatever the environment does keeps it, but a set. -/
theorem sameLoopback_environment (hs : ∀ r, (s.receivers r).Proper) {l : Label}
    (hl : ∀ r enabled, l ≠ .client r (.set_loopback enabled)) (h : World.environment s l = some s') :
    SameLoopback s s' := by
  cases l with
  | receive bytes =>
      obtain ⟨⟨bodies, decoder⟩, -, ht⟩ := bind_ok (receive_of_environment h)
      exact fun r => sameLoopback_dispatches (s := { s with decoder := decoder }) hs ht r
  | failed reason =>
      cases h
      exact sameLoopback_stop_receiver _ _ _
  | set_can_receiver receiver =>
      cases h
      have hretire := sameLoopback_stop_receiver s ERR_INVALID_CHANNEL_ID "CAN channel retired"
      rw [set_can_receiver]
      split
      · exact hretire
      · exact hretire.trans (sameLoopback_stop_receiver _ _ _)
  | client r op =>
      cases h
      exact sameLoopback_update_receiver (CanReceiver.loopback_apply _ fun enabled h => hl r enabled (h ▸ rfl))
  | enter | act | close => cases h

theorem sameLoopback_close {k : CloserId} {p : Option ClosePhase} {p' : ClosePhase} {a : CloseAction}
    (h : s.close k p a = some (s', p')) : SameLoopback s s' := by
  cases a with
  | mark =>
      obtain ⟨-, h⟩ := Option.ite_none_right_eq_some.mp h
      rw [mark_closing] at h
      split at h
      · cases h
        exact .of_eq rfl
      · cases h
        exact sameLoopback_stop_receiver _ _ _
  | lock | drain | stop | done =>
      obtain ⟨-, h⟩ := Option.ite_none_right_eq_some.mp h
      cases h
      exact .of_eq rfl

end Session

/-- A call notes its write and stops the receiver, no more. -/
theorem Took.sameLoopback {c : CallId} {s s' : Session} {call call' : Call} {a : Action}
    (h : Took c s call a s' call') : s.SameLoopback s' := by
  cases h with
  | known hp =>
      rw [Call.known]
      cases call.command.sequence_known with
      | none => exact .of_eq rfl
      | some record => exact Session.sameLoopback_update_receiver (CanReceiver.loopback_make_room _)
  | knownThrows record e hp hr =>
      exact Session.sameLoopback_update_receiver (CanReceiver.loopback_make_room _)
  | abandon e hp => exact Session.sameLoopback_stop_receiver { s with pending := 0 } _ _
  | expire now hp hr hu hd => exact Session.sameLoopback_stop_receiver { s with pending := 0 } _ _
  | _ => exact .of_eq rfl

namespace World

variable {w w' : World} {l : Label} {ls : List Label}

/-- So does every step. -/
theorem sameLoopback_step (hw : ∀ r, (w.session.receivers r).Proper)
    (hl : ∀ r enabled, l ≠ .client r (.set_loopback enabled)) (h : w.step l = some w') :
    w.session.SameLoopback w'.session := by
  obtain ⟨c, cmd, now, rfl, -, rfl⟩ | ⟨c, a, call, s, call', rfl, hc, ht, rfl⟩ |
    ⟨k, a, s, p, rfl, hk, rfl⟩ | ⟨s, -, he, rfl⟩ := step_cases h
  · exact .of_eq rfl
  · exact ht.sameLoopback
  · exact Session.sameLoopback_close hk
  · exact Session.sameLoopback_environment hw hl he

/-- Steps that set nothing leave every setting. -/
theorem sameLoopback_run (hw : ∀ r, (w.session.receivers r).Proper)
    (hl : ∀ l ∈ ls, ∀ r enabled, l ≠ .client r (.set_loopback enabled)) (h : Run.run step w ls = some w') :
    w.session.SameLoopback w'.session := by
  refine (Run.invariant_of_along (I := fun m => (∀ r, (m.session.receivers r).Proper) ∧
      w.session.SameLoopback m.session)
    (P := fun _ l _ => ∀ r enabled, l ≠ .client r (.set_loopback enabled)) ?_ ⟨hw, .of_eq rfl⟩
    (Run.along_of_mem fun l hm _ _ _ => hl l hm) h).2
  rintro m l t ⟨hm, hsame⟩ hk hs
  have htouches := (minds_of_step m.permits_trivial hs).touches
  exact ⟨fun r => CanReceiver.Touched.proper_many (htouches r) (hm r),
    hsame.trans (sameLoopback_step hm hk hs)⟩

end World

end Mongoose
