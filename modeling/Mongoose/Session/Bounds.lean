import Mongoose.Can.Bounds

/-!
# Mongoose.Session.Bounds

The inbound path of a session, in bounds.

`Session.Fit` is what every run of a session keeps: its receivers fit, and a response is
no shorter than its header.  `Session.receive_total` says that any bytes are then received
with every access checked, and that nothing is thrown.
-/

namespace Mongoose

namespace Checked

/-! ## the session, access by access -/

/-- `Session::receive` for one body. -/
def dispatch (s : Session) (body : Bytes) : Except Exception Session := do
  let s ← match s.can_receiver with
    | none => pure s
    | some r => do
        let receiver ← receive (s.receivers r) body
        pure (s.update_receiver r receiver)
  let accepted ← s.accepts body
  pure (if accepted then { s with response := some body } else s)

/-- `Session::receive`. -/
def session_receive (s : Session) (bytes : Bytes) : Except Exception Session := do
  let (bodies, decoder) ← feed_bytes s.decoder bytes
  bodies.foldlM dispatch { s with decoder := decoder }

end Checked

/-! ## what every run keeps -/

namespace Session

/-- The receivers are as they should be, and only a body with a header can be a response. -/
structure Fit (lo hi : Nat) (s : Session) : Prop where
  proper : ∀ r, (s.receivers r).Proper
  fit : ∀ r, (s.receivers r).Fit lo hi
  minimum : 12 ≤ s.minimum

variable {lo hi : Nat} {s s' : Session}

theorem Fit.touches (hroom : CanReceiver.Roomy lo hi) (h : s.Fit lo hi)
    (ht : s.Touches (CanReceiver.Records lo hi) s') (hm : 12 ≤ s'.minimum) : s'.Fit lo hi where
  proper r := CanReceiver.Touched.proper_many (ht r) (h.proper r)
  fit r := CanReceiver.Touched.fit_many hroom (ht r) (h.proper r) (h.fit r)
  minimum := hm

/-- A body as long as the shortest response has the fields of one. -/
theorem accepts_total (h : 12 ≤ s.minimum) (body : Bytes) : ∃ b, s.accepts body = .ok b := by
  rw [accepts]
  split
  · exact ⟨_, rfl⟩
  · next hlong =>
      obtain ⟨-, hlen⟩ := not_or.mp (not_or.mp hlong).2
      rw [CanReceiver.le16_bind _ (by omega)]
      split
      · exact ⟨_, rfl⟩
      · rw [CanReceiver.le16_bind _ (by omega)]
        split
        · exact ⟨_, rfl⟩
        · rw [CanReceiver.le16_bind _ (by omega)]
          split
          · exact ⟨_, rfl⟩
          · rw [CanReceiver.le16_bind _ (by omega)]
            exact ⟨_, rfl⟩

/-- One body is dispatched, in bounds. -/
theorem dispatch_total (hroom : CanReceiver.Roomy lo hi) (h : s.Fit lo hi) (body : Bytes) :
    ∃ s', Checked.dispatch s body = .ok s' ∧ s.dispatch body = .ok s' ∧ s'.Fit lo hi := by
  have hdeliver : ∃ t, s.deliver body = .ok t ∧ t.minimum = s.minimum := by
    rw [deliver]
    cases s.can_receiver with
    | none => exact ⟨s, rfl, rfl⟩
    | some r =>
        dsimp only
        rw [CanReceiver.receive_eq (h.proper r).bounded]
        exact ⟨_, rfl, rfl⟩
  obtain ⟨t, ht, hm⟩ := hdeliver
  obtain ⟨b, hb⟩ := accepts_total (hm ▸ h.minimum) body
  have hdispatch : s.dispatch body = .ok (if b then { t with response := some body } else t) := by
    rw [dispatch, ht]
    change (t.accepts body >>= _) = _
    rw [hb]
    rfl
  have hchecked : Checked.dispatch s body = s.dispatch body := by
    unfold Checked.dispatch dispatch deliver
    cases s.can_receiver with
    | none => rfl
    | some r => simp only [Checked.receive_eq (h.fit r).valid, bind_assoc]
  refine ⟨_, hchecked.trans hdispatch, hdispatch, h.touches hroom (touches_dispatch hdispatch) ?_⟩
  cases b <;> exact hm ▸ h.minimum

theorem dispatches_total (hroom : CanReceiver.Roomy lo hi) (h : s.Fit lo hi) (bodies : List Bytes) :
    ∃ s', bodies.foldlM Checked.dispatch s = .ok s' ∧ bodies.foldlM dispatch s = .ok s' := by
  induction bodies generalizing s with
  | nil => exact ⟨s, rfl, rfl⟩
  | cons body bodies ih =>
      obtain ⟨t, hc, hd, ht⟩ := dispatch_total hroom h body
      obtain ⟨s', hcs, hds⟩ := ih ht
      refine ⟨s', ?_, ?_⟩
      · rw [List.foldlM_cons, hc]
        exact hcs
      · rw [List.foldlM_cons, hd]
        exact hds

/-- **Any bytes are received, in bounds.** -/
theorem receive_total (hroom : CanReceiver.Roomy lo hi) (h : s.Fit lo hi) (bytes : Bytes) :
    ∃ s', Checked.session_receive s bytes = .ok s' ∧ s.receive bytes = .ok s' := by
  obtain ⟨⟨bodies, decoder⟩, hfeed⟩ := Checked.feed_bytes_total s.decoder bytes
  obtain ⟨s', hc, hd⟩ := dispatches_total hroom
    (s := { s with decoder := decoder }) ⟨h.proper, h.fit, h.minimum⟩ bodies
  refine ⟨s', ?_, ?_⟩
  · rw [Checked.session_receive, hfeed]
    exact hc
  · rw [receive, ← Checked.feed_bytes_eq, hfeed]
    exact hd

end Session

/-- A label that calls for no write but one whose record is between the bounds. -/
def Label.Records (lo hi : Nat) : Label → Prop
  | .enter _ cmd _ =>
      ∀ record, cmd.sequence_known = some record → CanReceiver.Records lo hi record.message
  | _ => True

namespace World

/-- A session that fits, and calls that note only such writes. -/
structure Fit (lo hi : Nat) (w : World) : Prop where
  session : w.session.Fit lo hi
  notes : w.Permits (CanReceiver.Records lo hi)

variable {lo hi : Nat} {w w' : World} {l : Label}

theorem fit_opened (lo hi : Nat) (protocol : ReceiverRef → UInt32) : (opened protocol).Fit lo hi where
  session :=
    { proper := fun r => proper_of_run (show Run.run step (opened protocol) [] = some _ from rfl) r
      fit := fun r => CanReceiver.fit_new lo hi _
      minimum := show 12 ≤ 20 by decide }
  notes := fun _ _ h => (nomatch h)

/-- A command answers with a header at least. -/
theorem minimum_of_step (hm : 12 ≤ w.session.minimum) (h : w.step l = some w') :
    12 ≤ w'.session.minimum := by
  obtain ⟨c, cmd, now, rfl, -, rfl⟩ | ⟨c, a, call, s, call', rfl, hc, ht, rfl⟩ |
    ⟨k, a, s, p, rfl, hk, rfl⟩ | ⟨s, hl, he, rfl⟩ := step_cases h
  · exact hm
  · rw [put_session]
    cases ht with
    | allocated =>
        simp only [Command.minimum]
        split <;> decide
    | known => exact (Took.quiet_known call w.session).minimum.symm ▸ hm
    | _ => exact hm
  · exact (Session.quiet_of_close hk).minimum.symm ▸ hm
  · exact (Session.quiet_of_environment he).1.minimum.symm ▸ hm

theorem permits_of_step (hn : w.Permits (CanReceiver.Records lo hi)) (hl : l.Records lo hi)
    (h : w.step l = some w') : w'.Permits (CanReceiver.Records lo hi) := by
  intro d call hcall record hrecord
  obtain ⟨c, cmd, now, rfl, -, rfl⟩ | ⟨c, a, call₁, s, call', rfl, hc, ht, rfl⟩ |
    ⟨k, a, s, p, rfl, hk, rfl⟩ | ⟨s, -, he, rfl⟩ := step_cases h
  · by_cases hd : d = c
    · subst hd
      rw [put_calls_self] at hcall
      cases hcall
      refine hl record (hrecord ▸ ?_)
      rw [Call.enter]
      split <;> rfl
    · rw [put_calls_of_ne _ _ _ hd] at hcall
      exact hn d call hcall record hrecord
  · by_cases hd : d = c
    · subst hd
      rw [put_calls_self] at hcall
      cases hcall
      exact hn d call₁ hc record (ht.command_eq ▸ hrecord)
    · rw [put_calls_of_ne _ _ _ hd] at hcall
      exact hn d call hcall record hrecord
  · exact hn d call hcall record hrecord
  · exact hn d call hcall record hrecord

theorem Fit.step (hroom : CanReceiver.Roomy lo hi) (hw : w.Fit lo hi) (hl : l.Records lo hi)
    (h : w.step l = some w') : w'.Fit lo hi where
  session := hw.session.touches hroom (minds_of_step hw.notes h).touches
    (minimum_of_step hw.session.minimum h)
  notes := permits_of_step hw.notes hl h

/-- Steps that call for no write but one between the bounds. -/
theorem Fit.run (hroom : CanReceiver.Roomy lo hi) (hw : w.Fit lo hi) {ls : List Label}
    (hl : ∀ l ∈ ls, l.Records lo hi) (h : Run.run World.step w ls = some w') : w'.Fit lo hi := by
  refine Run.invariant_of_along (I := World.Fit lo hi) (P := fun _ l _ => l.Records lo hi)
    (fun _ _ _ hm hk hs => hm.step hroom hk hs) hw (Run.along_of_mem fun l hm _ _ _ => hl l hm) h

/-- Every session fits the bounds of a record. -/
theorem fit_run {protocol : ReceiverRef → UInt32} {ls : List Label}
    (h : Run.run World.step (opened protocol) ls = some w) : w.Fit 0 4108 := by
  refine (fit_opened 0 4108 protocol).run ⟨by decide, by decide⟩ (fun l _ => ?_) h
  cases l with
  | enter c cmd now => exact fun record _ => CanReceiver.records_any record.message
  | _ => trivial

end World

/-! ## the inbound path -/

/-- The inbound path of a session with every access checked: whatever is received, by the
session or by a part of it, no check fails and nothing is thrown. -/
structure Session.InBounds (s : Session) : Prop where
  decoder : ∀ bytes, ∃ r, Checked.feed_bytes s.decoder bytes = .ok r ∧ s.decoder.feed bytes = .ok r
  session : ∀ bytes, ∃ s', Checked.session_receive s bytes = .ok s' ∧ s.receive bytes = .ok s'
  receiver : ∀ r body, ∃ r',
    Checked.receive (s.receivers r) body = .ok r' ∧ (s.receivers r).receive body = .ok r'
  reassembler : ∀ r frame, Checked.feed (s.receivers r).reassembler frame =
    .ok ((s.receivers r).reassembler.feed frame)
  read : ∀ r left, Checked.take (s.receivers r) left = .ok ((s.receivers r).take left)
  frames : ∀ r, ∀ f ∈ (s.receivers r).frames, 4 ≤ f.size ∧ f.size ≤ 12

theorem Session.Fit.inBounds {lo hi : Nat} {s : Session} (hroom : CanReceiver.Roomy lo hi)
    (hhi : hi ≤ dataCapacity) (h : s.Fit lo hi) : s.InBounds where
  decoder bytes := by
    obtain ⟨r, hr⟩ := Checked.feed_bytes_total s.decoder bytes
    exact ⟨r, hr, (Checked.feed_bytes_eq _ _).symm.trans hr⟩
  session bytes := receive_total hroom h bytes
  receiver r body := by
    rw [Checked.receive_eq (h.fit r).valid, CanReceiver.receive_eq (h.proper r).bounded]
    exact ⟨_, rfl, rfl⟩
  reassembler r frame := Checked.feed_eq (h.fit r).valid frame
  read r left := Checked.take_eq (h.fit r) hhi left
  frames r f hf := ⟨((h.fit r).frames f hf).minimum, ((h.fit r).frames f hf).maximum⟩

end Mongoose
