import Mongoose.Can.Readers
import Mongoose.Lib.Register

/-!
# Mongoose.Can.Accounts

The writes a receiver has noted, and which of them were confirmed.

A register of everything noted is kept beside the run of a receiver and its readers.
`Booked` says that the pending records are the pending entries of the register, and that
the counts are those of its settled ones, so that confirmations are accounted for over
all runs.
-/

namespace Mongoose

open CanReceiver

/-! ## what is noted -/

/-- A write as `note_transmit` is called for it. -/
structure Noted where
  message : PASSTHRU_MSG
  sequence : Nat
  call : Option TransmitCall

/-- The record that is made of it. -/
def Noted.record (n : Noted) : PendingTransmit :=
  { sequence := n.sequence, flags := n.message.TxFlags
    message := n.message.Data.take (min n.message.DataSize.toNat (4 + 8 + 4096)), call := n.call }

/-- Is confirmed by a confirmation of this sequence, and belongs to this call. -/
def Noted.hasSequence (sequence : Nat) (n : Noted) : Bool := n.sequence = sequence

def Noted.ofCall (c : TransmitCall) (n : Noted) : Bool := n.call = some c

namespace Reception

/-- The register of a receiver's writes along a run. -/
def book (s : Reception) (l : Label) (_ : Reception) (g : Register Noted) : Register Noted :=
  match l with
  | .receive body =>
      match s.receiver.classify body with
      | .sent sequence _ => g.settle (Noted.hasSequence sequence)
      | _ => g
  | .note_transmit message sequence call =>
      (if s.receiver.pending_transmits.length = message_capacity then g.evict else g).enter
        { message := message, sequence := sequence, call := call }
  | .forget_transmit => g.retract
  | .forget_transmits => g.clear
  | .stop _ _ => g.clear
  | _ => g

end Reception

/-! ## what leaves the records alone -/

/-- The records and the counts of two receivers are the same. -/
structure SameRecords (r r' : CanReceiver) : Prop where
  protocol : r'.protocol = r.protocol
  pending : r'.pending_transmits = r.pending_transmits
  transmitted : r'.transmitted = r.transmitted
  confirmed : r'.confirmed = r.confirmed

namespace SameRecords

variable {r r' : CanReceiver}

theorem refl (r : CanReceiver) : SameRecords r r := ⟨rfl, rfl, rfl, rfl⟩

theorem trans {r'' : CanReceiver} (h : SameRecords r r') (h' : SameRecords r' r'') : SameRecords r r'' :=
  ⟨h'.protocol.trans h.protocol, h'.pending.trans h.pending, h'.transmitted.trans h.transmitted,
    h'.confirmed.trans h.confirmed⟩

/-- An announcement leaves the records. -/
theorem announce (r : CanReceiver) (sent : PendingTransmit) (timestamp : UInt32) :
    SameRecords r (r.announce sent timestamp) := by
  unfold CanReceiver.announce
  split <;> exact ⟨rfl, rfl, rfl, rfl⟩

/-- Only a confirmation is about the records. -/
theorem handle {x : Inbound} (hx : ∀ sequence timestamp, x ≠ .sent sequence timestamp) :
    SameRecords r (r.handle x) := by
  cases x with
  | other | loss | malformed => exact ⟨rfl, rfl, rfl, rfl⟩
  | sent sequence timestamp => exact absurd rfl (hx sequence timestamp)
  | data status timestamp frame =>
      simp only [CanReceiver.handle]
      split <;> exact ⟨rfl, rfl, rfl, rfl⟩

/-- So does a report. -/
theorem report (r : CanReceiver) : SameRecords r r.report.2 := by
  unfold CanReceiver.report
  split_ifs <;> exact ⟨rfl, rfl, rfl, rfl⟩

/-- And a pass of a read. -/
theorem pass (rd : Reader) (r : CanReceiver) : SameRecords r (rd.pass r).2 := by
  have htake : SameRecords r (r.take (rd.requested - rd.messages.length)).2 := ⟨rfl, rfl, rfl, rfl⟩
  unfold Reader.pass Reader.finish
  split_ifs
  · exact refl r
  · dsimp only
    split_ifs
    · exact htake.trans (report _)
    · exact htake
  · exact report r

/-- And every step of a reader. -/
theorem read {rd rd' : Reader} {a : ReadAction} (h : rd.step r a = some (rd', r')) : SameRecords r r' := by
  have hpass := pass rd r
  have hfinish := report r
  cases a with
  | lock | wake =>
      simp only [Reader.step, Option.ite_none_right_eq_some, Option.some.injEq] at h
      rwa [h.2] at hpass
  | expire now =>
      simp only [Reader.step, Reader.finish, Option.ite_none_right_eq_some, Option.some.injEq,
        Prod.mk.injEq] at h
      rwa [h.2.2] at hfinish

end SameRecords

/-! ## the books -/

/-- The records and the counts of a receiver are those of a register. -/
structure Booked (r : CanReceiver) (g : Register Noted) : Prop where
  records : r.pending_transmits = g.pending.map fun e => e.1.record
  sound : g.Sound
  length : r.pending_transmits.length ≤ message_capacity
  transmitted : r.transmitted = g.settled.length
  confirmed : ∀ c, r.confirmed c = g.settled.countP fun e => e.1.ofCall c

namespace Booked

variable {r r' : CanReceiver} {g : Register Noted}

/-- The books are about the records alone. -/
theorem congr (h : Booked r g) (hr : SameRecords r r') : Booked r' g :=
  ⟨hr.pending.trans h.records, h.sound, hr.pending ▸ h.length, hr.transmitted.trans h.transmitted,
    fun c => (congrFun hr.confirmed c).trans (h.confirmed c)⟩

/-- Records that go without a confirmation change no count. -/
theorem give_up (h : Booked r g) {q : List (Noted × Nat)} (hq : q.Sublist g.pending) :
    Booked { r with pending_transmits := q.map fun e => e.1.record } { g with pending := q } where
  records := rfl
  sound := h.sound.of_sublist hq
  length := by
    have hle := h.length
    rw [h.records, List.length_map] at hle
    rw [List.length_map]
    exact Nat.le_trans hq.length_le hle
  transmitted := h.transmitted
  confirmed := h.confirmed

/-- A new record is entered. -/
theorem enter (h : Booked r g) (n : Noted) (hlt : r.pending_transmits.length < message_capacity) :
    Booked { r with pending_transmits := r.pending_transmits ++ [n.record] } (g.enter n) where
  records := by simp [h.records, Register.enter]
  sound := h.sound.enter n
  length := by
    rw [List.length_append]
    exact hlt
  transmitted := h.transmitted
  confirmed := h.confirmed

/-- For which the oldest is evicted if there is no room. -/
theorem note_transmit (h : Booked r g) (n : Noted) :
    Booked (r.note_transmit n.message n.sequence n.call)
      ((if r.pending_transmits.length = message_capacity then g.evict else g).enter n) := by
  have hle := h.length
  unfold CanReceiver.note_transmit CanReceiver.make_room
  by_cases hfull : r.pending_transmits.length = message_capacity
  · rw [if_pos hfull, if_pos hfull]
    have hevict := h.give_up (List.tail_sublist g.pending)
    rw [List.map_tail, ← h.records] at hevict
    refine hevict.enter n ?_
    show r.pending_transmits.tail.length < message_capacity
    rw [List.length_tail, hfull]
    decide
  · rw [if_neg hfull, if_neg hfull]
    exact h.enter n (by omega)

/-- A confirmation that pairs is credited to the call of its record, and counted. -/
theorem pair (h : Booked r g) {sequence : Nat} {skipped rest : List (Noted × Nat)} {e : Noted × Nat}
    (hq : g.pending = skipped ++ e :: rest)
    (hkept : (r.pending_transmits.dropWhile fun p => p.sequence ≠ sequence).tail =
      rest.map fun e => e.1.record)
    (hsound : Register.Sound { g with pending := rest, settled := g.settled ++ [e] }) :
    Booked (r.pair sequence e.1.record) { g with pending := rest, settled := g.settled ++ [e] } where
  records := hkept
  sound := hsound
  length := by
    have hle := h.length
    rw [h.records, hq] at hle
    simp only [List.map_append, List.map_cons, List.length_append, List.length_cons, List.length_map] at hle
    show (r.pending_transmits.dropWhile fun p => p.sequence ≠ sequence).tail.length ≤ message_capacity
    rw [hkept, List.length_map]
    omega
  transmitted := by simp [CanReceiver.pair, h.transmitted]
  confirmed c := by
    rw [List.countP_append, ← h.confirmed c]
    show (r.credit e.1.call).confirmed c = _
    cases hcall : e.1.call with
    | none => simp [credit, Noted.ofCall, hcall]
    | some d =>
        by_cases hd : d = c
        · subst hd
          simp [credit, Noted.ofCall, hcall]
        · simp [credit, Noted.ofCall, hcall, hd, Function.update_of_ne (Ne.symm hd)]

/-- A confirmation settles the entry whose record it pairs with. -/
theorem sent (h : Booked r g) (sequence : Nat) (timestamp : UInt32) :
    Booked (r.handle (.sent sequence timestamp)) (g.settle (Noted.hasSequence sequence)) := by
  have hpick : (r.paired sequence).map (fun x => (x, (r.pending_transmits.dropWhile fun p =>
      p.sequence ≠ sequence).tail)) =
      (pick (fun e : Noted × Nat => e.1.hasSequence sequence) g.pending).map fun x =>
        (x.1.1.record, x.2.map fun e => e.1.record) := by
    have hmap := pick_map (fun e : Noted × Nat => e.1.record)
      (fun p : PendingTransmit => decide (p.sequence = sequence)) g.pending
    rw [← h.records, pick_eq_find?] at hmap
    simp only [paired, ne_eq, decide_not]
    exact hmap
  rw [CanReceiver.handle]
  obtain ⟨hs, hnone⟩ | ⟨skipped, e, rest, hq, he, hskipped, hs⟩ := g.settle_cases (Noted.hasSequence sequence)
  · rw [pick_eq_none.mpr hnone, Option.map_none, Option.map_eq_none_iff] at hpick
    rw [hs, hpick]
    exact h
  · rw [pick_eq_some.mpr ⟨skipped, hq, he, hskipped⟩, Option.map_some, Option.map_eq_some_iff] at hpick
    obtain ⟨sent, hsent, hrest⟩ := hpick
    obtain ⟨rfl, hkept⟩ := Prod.mk.inj hrest
    have hsound := h.sound.settle (Noted.hasSequence sequence)
    rw [hs] at hsound ⊢
    rw [hsent]
    exact congr (h.pair hq hkept hsound) (SameRecords.announce _ _ _)

/-- What a step notes, the register has. -/
theorem step {s s' : Reception} {l : Reception.Label} {k : Traffic} (ha : Accounted s k)
    (h : Booked s.receiver g) (ht : s.step l = some s') : Booked s'.receiver (s.book l s' g) := by
  cases l with
  | receive body =>
      rw [Reception.step, receive_classify ha.bounded] at ht
      cases ht
      simp only [Reception.book]
      cases hx : s.receiver.classify body with
      | sent sequence timestamp => exact h.sent sequence timestamp
      | other | loss | malformed | data => exact h.congr (.handle (by simp))
  | note_transmit message sequence call =>
      cases ht
      exact h.note_transmit { message := message, sequence := sequence, call := call }
  | forget_transmit =>
      cases ht
      have hgone := h.give_up (List.dropLast_sublist g.pending)
      rw [List.map_dropLast, ← h.records] at hgone
      exact hgone
  | forget_transmits =>
      cases ht
      exact h.give_up (List.nil_sublist _)
  | stop code reason =>
      rw [Reception.step, Option.ite_none_right_eq_some] at ht
      cases ht.2
      exact (h.give_up (List.nil_sublist _)).congr ⟨rfl, rfl, rfl, rfl⟩
  | set_loopback | flush_receive =>
      cases ht
      exact h.congr ⟨rfl, rfl, rfl, rfl⟩
  | read i requested timeout now =>
      rw [Reception.step, Option.ite_none_right_eq_some] at ht
      cases ht.2
      exact h
  | act i a =>
      rw [Reception.step, Option.bind_eq_some_iff] at ht
      obtain ⟨rd, -, ht⟩ := ht
      obtain ⟨⟨rd', r'⟩, hx, ht⟩ := Option.map_eq_some_iff.mp ht
      cases ht
      exact h.congr (.read hx)

/-- At first the books are empty. -/
theorem fresh (protocol : UInt32) : Booked (Reception.fresh protocol).receiver {} where
  records := rfl
  sound := Register.sound_empty
  length := Nat.zero_le _
  transmitted := rfl
  confirmed _ := rfl

/-- Every run is booked. -/
theorem run {protocol : UInt32} {ls : List Reception.Label} {s : Reception}
    (hrun : Run.run (Run.recording Reception.step Reception.book) (.fresh protocol, {}) ls = some (s, g)) :
    (∃ k, Accounted s k) ∧ Booked s.receiver g :=
  Run.invariant (I := fun t => (∃ k, Accounted t.1 k) ∧ Booked t.1.receiver t.2)
    (fun (t, k) l (t', k') ⟨⟨_, ha⟩, hb⟩ hstep => by
      obtain ⟨ht, rfl⟩ := Run.recording_eq_some_iff.mp hstep
      exact ⟨⟨_, ha.step ht⟩, hb.step ha ht⟩)
    ⟨⟨_, .fresh protocol⟩, .fresh protocol⟩ hrun

end Booked

/-! ## accounting -/

namespace Reception

variable {s s' : Reception} {g g' : Register Noted}

/-- A confirmation pairs with the first record of its sequence and gives up those before
it, or changes nothing. -/
theorem step_sent (ha : ∃ k, Accounted s k) (hb : Booked s.receiver g) {body : Bytes} {sequence : Nat}
    {timestamp : UInt32} (hx : s.receiver.classify body = .sent sequence timestamp) :
    ∃ s' g', Run.recording step book (s, g) (.receive body) = some (s', g') ∧ g'.entries = g.entries ∧
      (((∀ p ∈ s.receiver.pending_transmits, p.sequence ≠ sequence) ∧ s' = s ∧ g' = g) ∨
        ∃ skipped e, g.pending = skipped ++ e :: g'.pending ∧ e.1.sequence = sequence ∧
          (∀ x ∈ skipped, x.1.sequence ≠ sequence) ∧ g'.settled = g.settled ++ [e]) := by
  obtain ⟨k, ha⟩ := ha
  refine ⟨{ s with receiver := s.receiver.handle (.sent sequence timestamp) },
    g.settle (Noted.hasSequence sequence), ?_, Register.entries_settle, ?_⟩
  · refine Run.recording_eq_some_iff.mpr ⟨?_, ?_⟩
    · rw [step, receive_classify ha.bounded, hx]
      rfl
    · rw [book]
      simp only [hx]
  · obtain ⟨hs, hnone⟩ | ⟨skipped, e, rest, hq, he, hskipped, hs⟩ :=
      g.settle_cases (Noted.hasSequence sequence)
    · have hne : ∀ p ∈ s.receiver.pending_transmits, p.sequence ≠ sequence := by
        rw [hb.records]
        intro p hp
        obtain ⟨e, he, rfl⟩ := List.mem_map.mp hp
        show e.1.sequence ≠ sequence
        simpa [Noted.hasSequence] using hnone e he
      have hpaired : s.receiver.paired sequence = none :=
        List.find?_eq_none.mpr fun p hp => by simpa using hne p hp
      refine .inl ⟨hne, ?_, hs⟩
      rw [handle, hpaired]
    · refine .inr ⟨skipped, e, by rw [hs]; exact hq, by simpa [Noted.hasSequence] using he, fun x hx => ?_,
        by rw [hs]⟩
      simpa [Noted.hasSequence] using hskipped x hx

/-- What is not a confirmation pairs nothing. -/
theorem settled_of_other {l : Label}
    (hl : ∀ body, l = .receive body → ∀ sequence timestamp,
      s.receiver.classify body ≠ .sent sequence timestamp) :
    (s.book l s' g).settled = g.settled := by
  cases l with
  | receive body =>
      simp only [book]
      cases hx : s.receiver.classify body with
      | sent sequence timestamp => exact absurd hx (hl body rfl sequence timestamp)
      | other | loss | malformed | data => rfl
  | note_transmit message sequence call =>
      simp only [book]
      split <;> rfl
  | _ => rfl

/-- **Confirmations are accounted for.**  The pending records are the noted ones in order,
without some; each is paired once at most, and pairing takes it and those before it; an
unknown confirmation changes nothing; and the counts are the numbers of pairings, in all
and for each call. -/
theorem confirmations_accounted {protocol : UInt32} {ls : List Label}
    (hrun : Run.run (Run.recording step book) (fresh protocol, {}) ls = some (s, g)) :
    s.receiver.pending_transmits = g.pending.map (fun e => e.1.record) ∧
    s.receiver.pending_transmits.Sublist (g.entries.map Noted.record) ∧
    s.receiver.pending_transmits.length ≤ 256 ∧
    ((g.settled ++ g.pending).map Prod.snd).Pairwise (· < ·) ∧
    s.receiver.transmitted = g.settled.length ∧
    (∀ c, s.receiver.confirmed c = g.settled.countP (fun e => e.1.ofCall c) ∧
      s.receiver.confirmed c ≤ g.entries.countP (Noted.ofCall c)) ∧
    (∀ body sequence timestamp, s.receiver.classify body = .sent sequence timestamp →
      ∃ s' g', Run.recording step book (s, g) (.receive body) = some (s', g') ∧ g'.entries = g.entries ∧
        (((∀ p ∈ s.receiver.pending_transmits, p.sequence ≠ sequence) ∧ s' = s ∧ g' = g) ∨
          ∃ skipped e, g.pending = skipped ++ e :: g'.pending ∧ e.1.sequence = sequence ∧
            (∀ x ∈ skipped, x.1.sequence ≠ sequence) ∧ g'.settled = g.settled ++ [e])) ∧
    (∀ l s' g', Run.recording step book (s, g) l = some (s', g') →
      (∀ body, l = .receive body → ∀ sequence timestamp,
        s.receiver.classify body ≠ .sent sequence timestamp) → g'.settled = g.settled) ∧
    ∀ s' g', Run.recording step book (s, g) .flush_receive = some (s', g') →
      g' = g ∧ SameRecords s.receiver s'.receiver := by
  obtain ⟨ha, hb⟩ := Booked.run hrun
  refine ⟨hb.records, ?_, hb.length, hb.sound.ordered, hb.transmitted, fun c => ?_,
    fun body sequence timestamp hx => step_sent ha hb hx, fun l s' g' hstep hl => ?_, fun s' g' hstep => ?_⟩
  · rw [hb.records]
    have hsub := hb.sound.pending_sublist.map Noted.record
    rwa [List.map_map] at hsub
  · rw [hb.confirmed c]
    exact ⟨rfl, hb.sound.countP_settled_le (Noted.ofCall c)⟩
  · obtain ⟨-, rfl⟩ := Run.recording_eq_some_iff.mp hstep
    exact settled_of_other hl
  · obtain ⟨ht, rfl⟩ := Run.recording_eq_some_iff.mp hstep
    cases ht
    exact ⟨rfl, ⟨rfl, rfl, rfl, rfl⟩⟩

/-- Two writes of one call, of which the second is confirmed: the first is given up. -/
def skipped : List Label :=
  [.note_transmit { ProtocolID := CAN, DataSize := 4 } 5 (some 0),
    .note_transmit { ProtocolID := CAN, DataSize := 4 } 6 (some 0),
    .receive ([0, 0, 1, 5, 10, 0, 6, 0, 0, 0, 0, 0] ++ [6, 1, 0, 0] ++ [0, 0, 0, 0])]

theorem confirmations_accounted_skipped :
    ∃ s g, Run.run (Run.recording step book) (fresh CAN, {}) skipped = some (s, g) ∧
      s.receiver.transmitted = 1 ∧ s.receiver.confirmed 0 ≤ 2 := by
  have hrun : Run.run (Run.recording step book) (fresh CAN, {}) skipped = some (_, _) := rfl
  have h := confirmations_accounted hrun
  exact ⟨_, _, hrun, h.2.2.2.2.1, (h.2.2.2.2.2.1 0).2⟩

end Reception

end Mongoose
