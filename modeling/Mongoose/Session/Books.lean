import Mongoose.Can.Accounts
import Mongoose.Session.Records
import Mongoose.Session.Touched

/-!
# Mongoose.Session.Books

The writes that the receivers of a session have noted, over its runs.

`book` keeps a register for each receiver beside the run of a world.  The records and the
counts of every receiver are those of its register, whatever the threads of the session
do, so what a count says of the writes behind it is read off the register.
-/

namespace Mongoose

/-! ## the books -/

namespace CanReceiver

/-- The sequence that a body confirms, as a receiver tells it. -/
def confirms (r : CanReceiver) (body : Bytes) : Option Nat :=
  match r.classify body with
  | .sent sequence _ => some sequence
  | _ => none

/-- What a receiver tells bodies by. -/
theorem confirms_congr {r r' : CanReceiver} (hs : r'.stopped = r.stopped)
    (hp : r'.protocol = r.protocol) : r'.confirms = r.confirms := by
  funext body
  rw [confirms, confirms, classify, classify, hs, hp]

end CanReceiver

/-- The sequences that a chunk confirms to a receiver. -/
def Session.confirmations (s : Session) (r : ReceiverRef) (bytes : Bytes) : List Nat :=
  match s.decoder.feed bytes with
  | .ok (bodies, _) => bodies.filterMap (s.receivers r).confirms
  | .error _ => []

/-- How many of them pair with a record of a call. -/
def Session.credits (s : Session) (r : ReceiverRef) (c : TransmitCall) (bytes : Bytes) : Nat :=
  if s.can_receiver = some r then
    (picks ((s.confirmations r bytes).map fun sequence p => decide (p.sequence = sequence))
      (s.receivers r).pending_transmits).countP fun p => p.call = some c
  else 0

/-- A register for each receiver. -/
abbrev Books := ReceiverRef → Register Noted

namespace World

/-- The write that a step notes, and the receiver it is noted with. -/
def notes (w : World) : Label → Option (ReceiverRef × Noted)
  | .act c .known =>
      (w.calls c).bind fun call => call.command.sequence_known.map fun record =>
        (record.receiver,
          { message := record.message, sequence := call.allocated, call := record.call })
  | _ => none

/-- The books after a step: a write is entered, the newest is given up, a chunk settles
some, and else those are kept whose records are. -/
def book (w : World) (l : Label) (w' : World) (g : Books) : Books := fun r =>
  match w.notes l with
  | some (q, n) =>
      if q = r then
        (if (w.session.receivers r).pending_transmits.length = CanReceiver.message_capacity then (g r).evict
          else g r).enter n
      else g r
  | none =>
      match l with
      | .receive bytes =>
          if w.session.can_receiver = some r then
            (g r).settles ((w.session.confirmations r bytes).map Noted.hasSequence)
          else g r
      | .client q .forget_transmit => if q = r then (g r).retract else g r
      | _ => (g r).keep (w'.session.receivers r).pending_transmits.length

section book

variable {w w' : World} {l : Label} {g : Books} {r : ReceiverRef}

theorem book_of_notes {q : ReceiverRef} {n : Noted} (hn : w.notes l = some (q, n)) :
    w.book l w' g r = if q = r then
      (if (w.session.receivers r).pending_transmits.length = CanReceiver.message_capacity then (g r).evict
        else g r).enter n
      else g r := by
  unfold book
  rw [hn]

/-- What does not note a write, forget one or receive. -/
theorem book_of_other (hn : w.notes l = none) (hr : ∀ bytes, l ≠ .receive bytes)
    (hl : ∀ r, l ≠ .client r .forget_transmit) :
    w.book l w' g r = (g r).keep (w'.session.receivers r).pending_transmits.length := by
  unfold book
  rw [hn]
  dsimp only
  split
  · next bytes => exact absurd rfl (hr bytes)
  · next q => exact absurd rfl (hl q)
  · rfl

/-- One receiver's register after a step. -/
theorem book_cases (w : World) (l : Label) (w' : World) (g : Books) (r : ReceiverRef) :
    (∃ n, w.notes l = some (r, n) ∧
      w.book l w' g r = (if (w.session.receivers r).pending_transmits.length =
        CanReceiver.message_capacity then (g r).evict else g r).enter n) ∨
    (∀ n, w.notes l ≠ some (r, n)) ∧
      ((∃ ps, w.book l w' g r = (g r).settles ps) ∨ w.book l w' g r = (g r).retract ∨
        ∃ n, w.book l w' g r = (g r).keep n) := by
  have hsame : g r = (g r).settles [] := rfl
  cases hn : w.notes l with
  | some x =>
      obtain ⟨q, n⟩ := x
      rw [book_of_notes hn]
      by_cases hq : q = r
      · rw [if_pos hq, hq]
        exact .inl ⟨n, rfl, rfl⟩
      · rw [if_neg hq]
        refine .inr ⟨fun m hm => hq ?_, .inl ⟨[], hsame⟩⟩
        exact congrArg Prod.fst (Option.some.inj hm)
  | none =>
      refine .inr ⟨fun n => nofun, ?_⟩
      by_cases hr : ∀ bytes, l ≠ .receive bytes
      · by_cases hl : ∀ q, l ≠ .client q .forget_transmit
        · exact .inr (.inr ⟨_, book_of_other hn hr hl⟩)
        · obtain ⟨q, rfl⟩ : ∃ q, l = .client q .forget_transmit := by simpa using hl
          by_cases hq : q = r
          · exact .inr (.inl (if_pos hq))
          · exact .inl ⟨[], if_neg hq⟩
      · obtain ⟨bytes, rfl⟩ : ∃ bytes, l = .receive bytes := by simpa using hr
        by_cases hq : w.session.can_receiver = some r
        · exact .inl ⟨_, if_pos hq⟩
        · exact .inl ⟨[], if_neg hq⟩

/-- Only what a step notes is entered. -/
theorem entries_book (w : World) (l : Label) (w' : World) (g : Books) (r : ReceiverRef) :
    (∃ n, w.notes l = some (r, n) ∧ (w.book l w' g r).entries = (g r).entries ++ [n]) ∨
      (∀ n, w.notes l ≠ some (r, n)) ∧ (w.book l w' g r).entries = (g r).entries := by
  obtain ⟨n, hn, h⟩ | ⟨hn, ⟨ps, h⟩ | h | ⟨n, h⟩⟩ := book_cases w l w' g r
  · refine .inl ⟨n, hn, ?_⟩
    rw [h]
    split <;> rfl
  · exact .inr ⟨hn, by rw [h, Register.entries_settles]⟩
  · exact .inr ⟨hn, by rw [h]; rfl⟩
  · exact .inr ⟨hn, by rw [h]; rfl⟩

/-- Only a chunk settles any. -/
theorem settled_book_of_ne (hr : ∀ bytes, l ≠ .receive bytes) :
    (w.book l w' g r).settled = (g r).settled := by
  cases hn : w.notes l with
  | some x =>
      rw [book_of_notes hn]
      split_ifs <;> rfl
  | none =>
      by_cases hl : ∀ q, l ≠ .client q .forget_transmit
      · rw [book_of_other hn hr hl]
        rfl
      · obtain ⟨q, rfl⟩ : ∃ q, l = .client q .forget_transmit := by simpa using hl
        show (if q = r then (g r).retract else g r).settled = (g r).settled
        split <;> rfl

/-- What was settled stays settled. -/
theorem settled_book (w : World) (l : Label) (w' : World) (g : Books) (r : ReceiverRef) :
    (g r).settled <+: (w.book l w' g r).settled := by
  obtain ⟨n, -, h⟩ | ⟨-, ⟨ps, h⟩ | h | ⟨n, h⟩⟩ := book_cases w l w' g r
  · rw [h]
    split <;> exact List.prefix_rfl
  · rw [h]
    exact Register.settled_settles _ _
  · rw [h]
    exact List.prefix_rfl
  · rw [h]
    exact List.prefix_rfl

end book

end World

/-! ## keeping them -/

section booked

variable {r r' : CanReceiver} {g : Register Noted}

/-- Records that go from the front. -/
theorem Booked.sheds (h : Booked r g) (hr : r.Sheds r') :
    Booked r' (g.keep r'.pending_transmits.length) where
  records := by
    have hlen : r.pending_transmits.length = g.pending.length := by rw [h.records, List.length_map]
    calc r'.pending_transmits
        = r.pending_transmits.drop (r.pending_transmits.length - r'.pending_transmits.length) :=
          List.suffix_iff_eq_drop.mp hr.pending
      _ = (g.pending.map fun e => e.1.record).drop (g.pending.length - r'.pending_transmits.length) := by
          rw [hlen, h.records]
      _ = (g.pending.drop (g.pending.length - r'.pending_transmits.length)).map fun e => e.1.record :=
          List.map_drop.symm
  sound := h.sound.of_sublist (List.drop_sublist _ _)
  length := Nat.le_trans hr.pending.length_le h.length
  transmitted := hr.transmitted.trans h.transmitted
  confirmed c := (congrFun hr.confirmed c).trans (h.confirmed c)

/-- A body settles what it confirms. -/
theorem Booked.body (h : Booked r g) (body : Bytes) :
    Booked (r.handle (r.classify body)) (g.settles ((r.confirms body).toList.map Noted.hasSequence)) := by
  rw [CanReceiver.confirms]
  cases r.classify body with
  | sent sequence timestamp => exact h.sent sequence timestamp
  | other | loss | malformed | data => exact h.congr (.handle (by simp))

end booked

namespace Session

variable {s s' : Session} {g : Register Noted} {r : ReceiverRef}

/-- The receivers are proper, and the records of one are those of a register. -/
theorem booked_dispatches (hs : ∀ q, (s.receivers q).Proper) (h : Booked (s.receivers r) g)
    {bodies : List Bytes} (hd : bodies.foldlM dispatch s = .ok s') :
    Booked (s'.receivers r) (if s.can_receiver = some r then
      g.settles ((bodies.filterMap (s.receivers r).confirms).map Noted.hasSequence) else g) := by
  induction bodies generalizing s g with
  | nil =>
      obtain rfl := Except.ok.inj hd
      split <;> exact h
  | cons body bodies ih =>
      obtain ⟨t, ht, hd⟩ := bind_ok hd
      have hcur : t.can_receiver = s.can_receiver := by rw [dispatch_ok ht]
      have hproper := fun q => CanReceiver.Touched.proper_many (touches_dispatch (P := fun _ => True) ht q) (hs q)
      obtain ⟨hnone, hr⟩ | ⟨q, receiver, hq, hreceive, hr⟩ := receivers_of_dispatch ht
      · have hrest := ih hproper (g := g) (by rw [hr]; exact h) hd
        rw [hcur, hnone] at hrest
        rw [hnone]
        exact hrest
      · rw [CanReceiver.receive_classify (hs q).bounded] at hreceive
        obtain rfl := Except.ok.inj hreceive
        by_cases hqr : q = r
        · subst hqr
          have hbody : Booked (t.receivers q)
              (g.settles (((s.receivers q).confirms body).toList.map Noted.hasSequence)) := by
            rw [hr, Function.update_self]
            exact h.body body
          have hsame : (t.receivers q).confirms = (s.receivers q).confirms := by
            have hrec := CanReceiver.received_handle (hs q).bounded ((s.receivers q).classify body)
            rw [hr, Function.update_self]
            exact CanReceiver.confirms_congr hrec.stopped hrec.protocol
          have hrest := ih hproper hbody hd
          rw [hcur, hq, if_pos rfl, hsame] at hrest
          have hcons : (body :: bodies).filterMap (s.receivers q).confirms =
              ((s.receivers q).confirms body).toList ++ bodies.filterMap (s.receivers q).confirms := by
            cases hx : (s.receivers q).confirms body <;> simp [hx]
          rw [hq, if_pos rfl, hcons, List.map_append, Register.settles_append]
          exact hrest
        · have hrest := ih hproper (g := g) (by rw [hr, Function.update_of_ne (Ne.symm hqr)]; exact h) hd
          rw [hcur, hq, if_neg fun hx => hqr (Option.some.inj hx)] at hrest
          rw [hq, if_neg fun hx => hqr (Option.some.inj hx)]
          exact hrest

end Session

namespace World

variable {w w' : World} {l : Label} {g : Books}

/-- A step that notes no write, forgets none and receives nothing. -/
theorem booked_of_sheds (hb : ∀ r, Booked (w.session.receivers r) (g r)) (hn : w.notes l = none)
    (hr : ∀ bytes, l ≠ .receive bytes) (hl : ∀ r, l ≠ .client r .forget_transmit)
    (hs : w.session.Sheds w'.session) (r : ReceiverRef) :
    Booked (w'.session.receivers r) (w.book l w' g r) := by
  rw [book_of_other hn hr hl]
  exact (hb r).sheds (hs r)

/-- What a step does to the receivers, the books have. -/
theorem booked_step (hs : ∀ r, (w.session.receivers r).Proper)
    (hb : ∀ r, Booked (w.session.receivers r) (g r)) (h : w.step l = some w') (r : ReceiverRef) :
    Booked (w'.session.receivers r) (w.book l w' g r) := by
  obtain ⟨c, cmd, now, rfl, -, rfl⟩ | ⟨c, a, call, s, call', rfl, hc, ht, rfl⟩ |
    ⟨k, a, s, p, rfl, hk, rfl⟩ | ⟨s, hl, he, rfl⟩ := step_cases h
  · have hnotes : w.notes (.enter c cmd now) = none := rfl
    exact booked_of_sheds hb hnotes (fun _ => Label.noConfusion) (fun _ => Label.noConfusion) (.refl _) r
  · by_cases hn : a = .known → call.command.sequence_known = none
    · have hnotes : w.notes (.act c a) = none := by
        cases a with
        | known => rw [notes, hc, Option.bind_some, hn rfl]; rfl
        | _ => rfl
      exact booked_of_sheds hb hnotes (fun _ => Label.noConfusion) (fun _ => Label.noConfusion)
        (ht.sheds hn) r
    · obtain ⟨rfl, hsome⟩ := Classical.not_imp.mp hn
      obtain ⟨record, hrecord⟩ := Option.ne_none_iff_exists'.mp hsome
      have hnotes : w.notes (.act c .known) = some (record.receiver,
          { message := record.message, sequence := call.allocated, call := record.call }) := by
        rw [notes, hc, Option.bind_some, hrecord]
        rfl
      rw [book_of_notes hnotes]
      cases ht with
      | known hp =>
          rw [put_session, Call.known, hrecord]
          by_cases hr : record.receiver = r
          · subst hr
            rw [if_pos rfl]
            simp only [Session.update_receiver, Function.update_self]
            exact (hb _).note_transmit
              { message := record.message, sequence := call.allocated, call := record.call }
          · rw [if_neg hr]
            simp only [Session.update_receiver, Function.update_of_ne (Ne.symm hr)]
            exact hb r
  · have hnotes : w.notes (.close k a) = none := rfl
    exact booked_of_sheds hb hnotes (fun _ => Label.noConfusion) (fun _ => Label.noConfusion)
      (Session.sheds_close hk) r
  · have hnotes : w.notes l = none := by
      cases l with
      | act => cases hl
      | _ => rfl
    by_cases hr : ∀ bytes, l ≠ .receive bytes
    · by_cases hf : ∀ q, l ≠ .client q .forget_transmit
      · exact booked_of_sheds hb hnotes hr hf (Session.sheds_environment he hr hf) r
      · obtain ⟨q, rfl⟩ : ∃ q, l = .client q .forget_transmit := by simpa using hf
        cases he
        show Booked (Function.update w.session.receivers q _ r) (if q = r then (g r).retract else g r)
        by_cases hq : q = r
        · subst hq
          rw [if_pos rfl, Function.update_self]
          have hgone := (hb q).give_up (List.dropLast_sublist (g q).pending)
          rw [List.map_dropLast, ← (hb q).records] at hgone
          exact hgone
        · rw [if_neg hq, Function.update_of_ne (Ne.symm hq)]
          exact hb r
    · obtain ⟨bytes, rfl⟩ : ∃ bytes, l = .receive bytes := by simpa using hr
      obtain ⟨⟨bodies, decoder⟩, hfeed, hd⟩ := bind_ok (Session.receive_of_environment he)
      have hbooked := Session.booked_dispatches (s := { w.session with decoder := decoder }) hs (hb r) hd
      have hconfirmations : w.session.confirmations r bytes =
          bodies.filterMap (w.session.receivers r).confirms := by
        rw [Session.confirmations, hfeed]
      show Booked (s.receivers r) (if w.session.can_receiver = some r then
        (g r).settles ((w.session.confirmations r bytes).map Noted.hasSequence) else g r)
      rw [hconfirmations]
      exact hbooked

/-- A chunk adds to the count of a call what it credits to it. -/
theorem confirmed_receive (hs : ∀ r, (w.session.receivers r).Proper)
    (hb : ∀ r, Booked (w.session.receivers r) (g r)) {bytes : Bytes} (h : w.step (.receive bytes) = some w')
    (r : ReceiverRef) (c : TransmitCall) :
    (w'.session.receivers r).confirmed c =
      (w.session.receivers r).confirmed c + w.session.credits r c bytes := by
  have hbook : w.book (.receive bytes) w' g r = if w.session.can_receiver = some r then
      (g r).settles ((w.session.confirmations r bytes).map Noted.hasSequence) else g r := rfl
  rw [(booked_step hs hb h r).confirmed c, (hb r).confirmed c, hbook, Session.credits]
  split
  · rw [Register.settled_settles_eq, List.countP_append, (hb r).records, picks_map, List.countP_map]
    simp only [List.map_map]
    rfl
  · rfl

/-- **The books of a run.**  The records and the counts of every receiver are those of its
register. -/
theorem booked_run {protocol : ReceiverRef → UInt32} {ls : List Label}
    (h : Run.run (Run.recording step book) (opened protocol, fun _ => {}) ls = some (w, g)) (r : ReceiverRef) :
    Booked (w.session.receivers r) (g r) := by
  have hnil : Run.run step (opened protocol) [] = some (opened protocol) := rfl
  have hfresh : ∀ r, ((opened protocol).session.receivers r).Proper := proper_of_run hnil
  refine (Run.invariant (I := fun t : World × Books => (∀ r, (t.1.session.receivers r).Proper) ∧
    ∀ r, Booked (t.1.session.receivers r) (t.2 r)) ?_ ⟨hfresh, fun r => .fresh (protocol r)⟩ h).2 r
  rintro ⟨v, k⟩ l ⟨v', k'⟩ ⟨hs, hb⟩ hstep
  obtain ⟨ht, rfl⟩ := Run.recording_eq_some_iff.mp hstep
  exact ⟨fun q => CanReceiver.Touched.proper_many ((minds_of_step v.permits_trivial ht).touches q) (hs q),
    booked_step hs hb ht⟩

end World

end Mongoose
