import Mongoose.Can.Accounts

/-!
# Mongoose.Can.Refusal

A write that is noted, refused, and forgotten again.

Confirmations may come between, and a command that fails stops the receiver first.  The
records should be found as if the write had never been noted.  With 256 records pending the
note drops the oldest, which forgetting the write does not bring back, and a stop drops them
all; `refused_write_iff` says when that shows.
-/

namespace Mongoose

open CanReceiver

namespace Reception

/-- Neither notes nor forgets a write: what needs the lifecycle lock that the writer holds. -/
def Label.Quiet : Label → Prop
  | .note_transmit .. | .forget_transmit | .forget_transmits => False
  | _ => True

instance (l : Label) : Decidable l.Quiet := by
  unfold Label.Quiet
  split <;> infer_instance

/-- Stops the receiver. -/
def Label.stops : Label → Bool
  | .stop .. => true
  | _ => false

/-- The sequences that labels confirm before the receiver is stopped. -/
def confirmed (r : CanReceiver) (ls : List Label) : List Nat :=
  (ls.takeWhile fun l => !l.stops).filterMap fun
    | .receive body =>
        match r.classify body with
        | .sent sequence _ => some sequence
        | _ => none
    | _ => none

variable {s s' : Reception} {g g' : Register Noted} {l : Label} {ls : List Label}

/-- Until the receiver is stopped what it receives is read as before. -/
theorem classify_of_quiet (ha : ∃ k, Accounted s k) (hl : l.Quiet) (hgo : l.stops = false)
    (ht : s.step l = some s') :
    s'.receiver.classify = s.receiver.classify := by
  obtain ⟨k, ha⟩ := ha
  have hclassify {r r' : CanReceiver} (hp : r'.protocol = r.protocol) (hs : r'.stopped = r.stopped) :
      r'.classify = r.classify := by
    funext body
    rw [classify, classify, hp, hs]
  cases l with
  | receive body =>
      rw [step, receive_classify ha.bounded] at ht
      cases ht
      have hr := received_handle ha.bounded (s.receiver.classify body)
      exact hclassify hr.protocol hr.stopped
  | set_loopback | flush_receive =>
      cases ht
      rfl
  | read i requested timeout now =>
      rw [step, Option.ite_none_right_eq_some] at ht
      cases ht.2
      rfl
  | act i a =>
      rw [step, Option.bind_eq_some_iff] at ht
      obtain ⟨rd, -, ht⟩ := ht
      obtain ⟨⟨rd', r'⟩, hx, ht⟩ := Option.map_eq_some_iff.mp ht
      cases ht
      exact hclassify (SameRecords.read hx).protocol (Reader.passed_step ha.bounded hx).stopped
  | stop => cases hgo
  | note_transmit | forget_transmit | forget_transmits => exact hl.elim

/-- Where nothing is pending quiet steps settle nothing. -/
theorem book_of_nil (hg : g.pending = []) (hl : l.Quiet) : s.book l s' g = g := by
  have hsettle (p : Noted → Bool) : g.settle p = g := by rw [Register.settle, hg, pick]
  have hclear : g.clear = g := by rw [Register.clear, ← hg]
  cases l with
  | receive body =>
      rw [book]
      split
      · exact hsettle _
      · rfl
  | stop => exact hclear
  | note_transmit | forget_transmit | forget_transmits => exact hl.elim
  | _ => rfl

theorem book_run_of_nil (hg : g.pending = []) (hls : ∀ l ∈ ls, l.Quiet)
    (hrun : Run.run (Run.recording step book) (s, g) ls = some (s', g')) : g' = g := by
  induction ls generalizing s with
  | nil =>
      cases hrun
      rfl
  | cons l ls ih =>
      obtain ⟨⟨t, i⟩, hstep, hrun⟩ := Run.run_cons_iff.mp hrun
      obtain ⟨-, rfl⟩ := Run.recording_eq_some_iff.mp hstep
      rw [book_of_nil hg (hls l List.mem_cons_self)] at hrun
      exact ih (fun x hx => hls x (List.mem_cons_of_mem l hx)) hrun

/-- Quiet steps settle what they confirm, and a stop gives up what is left. -/
theorem book_quiet (ha : ∃ k, Accounted s k) (hls : ∀ l ∈ ls, l.Quiet)
    (hrun : Run.run (Run.recording step book) (s, g) ls = some (s', g')) :
    g' = if ls.any Label.stops then (g.settles ((confirmed s.receiver ls).map Noted.hasSequence)).clear
      else g.settles ((confirmed s.receiver ls).map Noted.hasSequence) := by
  induction ls generalizing s g with
  | nil =>
      cases hrun
      rfl
  | cons l ls ih =>
      obtain ⟨⟨t, i⟩, hstep, hrun⟩ := Run.run_cons_iff.mp hrun
      obtain ⟨ht, rfl⟩ := Run.recording_eq_some_iff.mp hstep
      have hl := hls l List.mem_cons_self
      have hrest : ∀ x ∈ ls, x.Quiet := fun x hx => hls x (List.mem_cons_of_mem l hx)
      cases hgo : l.stops with
      | true =>
          -- the records are cleared, and stay so
          cases l with
          | stop code reason =>
              rw [book_run_of_nil rfl hrest hrun]
              simp [confirmed, book, Label.stops, Register.settles]
          | _ => cases hgo
      | false =>
          have hclassify := classify_of_quiet ha hl hgo ht
          have hsame : confirmed t.receiver ls = confirmed s.receiver ls := by
            simp only [confirmed, hclassify]
          rw [ih (ha.elim fun _ ha => ⟨_, ha.step ht⟩) hrest hrun, hsame, List.any_cons, hgo, Bool.false_or]
          cases l with
          | receive body =>
              cases hx : s.receiver.classify body <;>
                simp [confirmed, book, hx, Register.settles, Label.stops]
          | set_loopback | flush_receive | read | act => simp [confirmed, book, Label.stops]
          | stop => cases hgo
          | note_transmit | forget_transmit | forget_transmits => exact hl.elim

/-! ## refusals -/

/-- A write noted, other steps, and the write forgotten. -/
def refusal (n : Noted) (ls : List Label) : List Label :=
  .note_transmit n.message n.sequence n.call :: ls ++ [.forget_transmit]

/-- The register a refused write should leave: the write was never one that made room, and
is no longer pending. -/
def refused (g : Register Noted) (n : Noted) (sequences : List Nat) : Register Noted :=
  ((g.enter n).settles (sequences.map Noted.hasSequence)).withdraw g.entries.length

/-- The records are those that were pending before the write, without those that the
confirmations paired or skipped, and the confirmations paired what they would have. -/
def Undone (g : Register Noted) (n : Noted) (sequences : List Nat) (s' : Reception) (g' : Register Noted) :
    Prop :=
  s'.receiver.pending_transmits = (refused g n sequences).pending.map (fun e => e.1.record) ∧
    g'.settled = (refused g n sequences).settled

/-- Every record that was pending before the write has been paired or skipped. -/
def Spent (g : Register Noted) (n : Noted) (sequences : List Nat) : Prop :=
  ∀ e ∈ g.pending, e ∉ ((g.enter n).settles (sequences.map Noted.hasSequence)).pending

/-- The register when the write is noted and the confirmations have come. -/
def settled_note (s : Reception) (g : Register Noted) (n : Noted) (sequences : List Nat) : Register Noted :=
  ((if s.receiver.pending_transmits.length = message_capacity then g.evict else g).enter n).settles
    (sequences.map Noted.hasSequence)

/-- What the records are once the write is forgotten. -/
theorem book_refusal (ha : ∃ k, Accounted s k) {n : Noted} (hls : ∀ l ∈ ls, l.Quiet)
    (hrun : Run.run (Run.recording step book) (s, g) (refusal n ls) = some (s', g')) :
    g' = (if ls.any Label.stops then (settled_note s g n (confirmed s.receiver ls)).clear
      else settled_note s g n (confirmed s.receiver ls)).retract := by
  obtain ⟨⟨t, i⟩, hnote, hrun⟩ := Run.run_cons_iff.mp hrun
  obtain ⟨⟨u, j⟩, hquiet, hforget⟩ := Run.run_append_iff.mp hrun
  obtain ⟨ht, rfl⟩ := Run.recording_eq_some_iff.mp hnote
  have hclassify : t.receiver.classify = s.receiver.classify := by
    cases ht
    simp only [note_transmit, make_room]
    split <;> rfl
  have hconfirmed : confirmed t.receiver ls = confirmed s.receiver ls := by
    simp only [confirmed, hclassify]
  have hj := book_quiet (ha.elim fun _ ha => ⟨_, ha.step ht⟩) hls hquiet
  rw [Run.run_singleton] at hforget
  obtain ⟨-, rfl⟩ := Run.recording_eq_some_iff.mp hforget
  rw [book, hj, hconfirmed]
  rfl

/-- The write made no room, or that does not show: the first confirmation that has a record
names another than the oldest. -/
def Unseen (s : Reception) (g : Register Noted) (n : Noted) (sequences : List Nat) : Prop :=
  s.receiver.pending_transmits.length < message_capacity ∨
    ∃ e, Register.named (sequences.map Noted.hasSequence) (g.enter n).pending = some e ∧ g.pending.head? ≠ some e

section unseen

variable {n : Noted} {sequences : List Nat}

/-- Then the confirmations settle what they would have without the room that was made. -/
theorem settled_note_of_unseen (hb : Booked s.receiver g) (h : Unseen s g n sequences) :
    settled_note s g n sequences = (g.enter n).settles (sequences.map Noted.hasSequence) := by
  rw [settled_note]
  by_cases hfull : s.receiver.pending_transmits.length = message_capacity
  · obtain hlt | ⟨e, he, hne⟩ := h
    · omega
    · obtain ⟨o, q, hq⟩ : ∃ o q, g.pending = o :: q :=
        List.exists_cons_of_ne_nil fun hnil => by simp [hb.records, hnil, message_capacity] at hfull
      have hpending : (g.enter n).pending = o :: (q ++ [(n, g.entries.length)]) := by
        simp [Register.enter, hq]
      rw [if_pos hfull, Register.evict_enter hq]
      refine Register.settles_evict hpending (hpending ▸ he) fun heo => hne ?_
      rw [hq, heo]
      rfl
  · rw [if_neg hfull]

/-- Otherwise the oldest is not settled where it should be, or is missing from the records. -/
theorem settled_note_of_seen (hb : Booked s.receiver g) (h : ¬ Unseen s g n sequences) :
    (settled_note s g n sequences).settled ≠ (refused g n sequences).settled ∨
      (settled_note s g n sequences).retract.pending.length < (refused g n sequences).pending.length := by
  rw [Unseen, not_or] at h
  obtain ⟨hfull, hnone⟩ := h
  have hle := hb.length
  have hfull : s.receiver.pending_transmits.length = message_capacity := by omega
  obtain ⟨o, q, hq⟩ : ∃ o q, g.pending = o :: q :=
    List.exists_cons_of_ne_nil fun hnil => by simp [hb.records, hnil, message_capacity] at hfull
  have hpending : (g.enter n).pending = o :: (q ++ [(n, g.entries.length)]) := by
    simp [Register.enter, hq]
  have hnamed : ∀ e, Register.named (sequences.map Noted.hasSequence) (g.enter n).pending = some e → e = o := by
    intro e he
    by_contra hne
    exact hnone ⟨e, he, fun ho => hne (by rw [hq] at ho; exact (Option.some.inj ho).symm)⟩
  rw [settled_note, if_pos hfull, Register.evict_enter hq, refused]
  obtain ⟨hmem, hnot⟩ | ⟨hs, hs'⟩ :=
    Register.settles_evict_ne (hb.sound.enter n) hpending (hpending ▸ hnamed)
  · exact .inl fun heq => hnot (heq ▸ hmem)
  · right
    rw [← Register.enter_retract hb.sound, hs, hs']
    simp [Register.retract, Register.evict, Register.enter, hq]

end unseen

/-- **A refused write leaves the records as they were exactly when it made no room, or the
first confirmation that comes between and has a record names another than the oldest; and a
receiver that is stopped between had, by its confirmations, no record of before left.** -/
theorem refused_write_iff {protocol : UInt32} {ks : List Label} {n : Noted}
    (hrun : Run.run (Run.recording step book) (fresh protocol, {}) ks = some (s, g))
    (hls : ∀ l ∈ ls, l.Quiet)
    (hwrite : Run.run (Run.recording step book) (s, g) (refusal n ls) = some (s', g')) :
    Undone g n (confirmed s.receiver ls) s' g' ↔
      Unseen s g n (confirmed s.receiver ls) ∧
        ((∃ l ∈ ls, l.stops) → Spent g n (confirmed s.receiver ls)) := by
  obtain ⟨ha, hb⟩ := Booked.run hrun
  have hb' := (Booked.run (Run.run_append hrun hwrite)).2
  have hg := book_refusal ha hls hwrite
  rw [Undone, hb'.records, ← List.any_eq_true]
  generalize confirmed s.receiver ls = sequences at hg ⊢
  by_cases hunseen : Unseen s g n sequences
  · rw [settled_note_of_unseen hb hunseen] at hg
    cases hstop : ls.any Label.stops with
    | true =>
        rw [hstop, if_pos rfl] at hg
        rw [hg, Spent, ← Register.pending_withdraw_eq_nil_iff hb.sound, refused]
        simp [Register.clear, Register.retract, Register.withdraw, hunseen]
    | false =>
        rw [hstop, if_neg Bool.false_ne_true, Register.enter_retract hb.sound] at hg
        rw [hg]
        exact iff_of_true ⟨rfl, rfl⟩ ⟨hunseen, fun h => absurd h Bool.false_ne_true⟩
  · refine iff_of_false ?_ fun h => hunseen h.1
    rintro ⟨hrecords, hsettled⟩
    have hcount := congrArg List.length hrecords
    rw [List.length_map, List.length_map, hg] at hcount
    rw [hg] at hsettled
    obtain hne | hlt := settled_note_of_seen hb hunseen
    · refine hne (Eq.trans ?_ hsettled)
      split <;> rfl
    · split at hcount
      · simp [Register.clear, Register.retract] at hcount
        omega
      · omega

/-- A write fails after the one before it was confirmed: the receiver is stopped, and no
record is left that should be. -/
theorem refused_write_iff_confirmed :
    ∃ s g s' g',
      Run.run (Run.recording step book) (fresh CAN, {})
        [.note_transmit { ProtocolID := CAN, DataSize := 4 } 5 none] = some (s, g) ∧
      Run.run (Run.recording step book) (s, g)
        (refusal { message := { ProtocolID := CAN, DataSize := 4 }, sequence := 6, call := none }
          [.receive ([0, 0, 1, 5, 10, 0, 5, 0, 0, 0, 0, 0] ++ [6, 1, 0, 0] ++ [0, 0, 0, 0]),
            .stop ERR_DEVICE_NOT_CONNECTED "write failed; reopen before retrying"]) = some (s', g') ∧
      Undone g { message := { ProtocolID := CAN, DataSize := 4 }, sequence := 6, call := none } [5] s' g' := by
  have hrun : Run.run (Run.recording step book) (fresh CAN, {})
      [.note_transmit { ProtocolID := CAN, DataSize := 4 } 5 none] = some (_, _) := rfl
  refine ⟨_, _, _, _, hrun, rfl, ?_⟩
  refine (@refused_write_iff _ _ _ _ [.receive ([0, 0, 1, 5, 10, 0, 5, 0, 0, 0, 0, 0] ++ [6, 1, 0, 0] ++
      [0, 0, 0, 0]), .stop ERR_DEVICE_NOT_CONNECTED "write failed; reopen before retrying"] _ _
    { message := { ProtocolID := CAN, DataSize := 4 }, sequence := 6, call := none }
    hrun (by decide) rfl).mpr ⟨.inl (by decide), fun _ e he => ?_⟩
  rw [List.mem_singleton.mp he]
  exact fun hmem => absurd (List.mem_singleton.mp hmem) (by simp)

/-- Writes noted on a new receiver are all pending while there is room. -/
theorem run_notes (protocol : UInt32) (ns : List Noted) (h : ns.length ≤ message_capacity) :
    ∃ s g, Run.run (Run.recording step book) (fresh protocol, {})
        (ns.map fun n => .note_transmit n.message n.sequence n.call) = some (s, g) ∧
      s.receiver.pending_transmits.length = ns.length := by
  induction ns using List.reverseRecOn with
  | nil => exact ⟨_, _, rfl, rfl⟩
  | append_singleton ns n ih =>
      rw [List.length_append, List.length_singleton] at h
      obtain ⟨s, g, hrun, hlen⟩ := ih (by omega)
      have hroom : ¬ s.receiver.pending_transmits.length = message_capacity := by omega
      have hkept : s.receiver.make_room = s.receiver := if_neg hroom
      rw [List.map_append]
      refine ⟨_, _, Run.run_concat hrun rfl, ?_⟩
      simp [note_transmit, hkept, hlen]

/-- With the records full, a write refused at once takes the oldest with it. -/
theorem length_of_full (n : Noted) (h : s.receiver.pending_transmits.length = message_capacity) :
    (s.receiver.note_transmit n.message n.sequence n.call).forget_transmit.pending_transmits.length =
      message_capacity - 1 := by
  have hroom : s.receiver.make_room.pending_transmits = s.receiver.pending_transmits.tail := by
    rw [make_room, if_pos h]
  simp only [forget_transmit, note_transmit, hroom, List.dropLast_concat, List.length_tail, h]

/-- A refused write should leave as many records as there were. -/
theorem length_refused (hb : Booked s.receiver g) (n : Noted) :
    (refused g n []).pending.length = s.receiver.pending_transmits.length := by
  have hkeep : g.pending.filter (fun e => decide (e.2 ≠ g.entries.length)) = g.pending :=
    List.filter_eq_self.mpr fun e he =>
      decide_eq_true (Nat.ne_of_lt (hb.sound.lt_length (List.mem_append_right _ he)))
  rw [hb.records, List.length_map]
  show ((g.pending ++ [(n, g.entries.length)]).filter fun e => decide (e.2 ≠ g.entries.length)).length = _
  rw [List.filter_append, hkeep]
  simp

/-- A bus that confirms nothing: 256 writes are pending, and refusing one more drops the
oldest of them. -/
theorem refused_write_full :
    ∃ ns : List Noted, ∃ n s g s' g',
      Run.run (Run.recording step book) (fresh CAN, {})
        (ns.map fun n => .note_transmit n.message n.sequence n.call) = some (s, g) ∧
      Run.run (Run.recording step book) (s, g) (refusal n []) = some (s', g') ∧
      ¬ Undone g n (confirmed s.receiver []) s' g' := by
  obtain ⟨s, g, hrun, hlen⟩ := run_notes CAN ((List.range 256).map fun i =>
    { message := { ProtocolID := CAN, DataSize := 4 }, sequence := i % 255 + 1, call := none })
    (by simp [message_capacity])
  have hfull : s.receiver.pending_transmits.length = message_capacity := by
    rw [hlen]
    simp [message_capacity]
  refine ⟨_, { message := { ProtocolID := CAN, DataSize := 4 }, sequence := 2, call := none }, s, g,
    { s with receiver := (s.receiver.note_transmit _ _ _).forget_transmit }, _, hrun, rfl, fun hundone => ?_⟩
  have hcount := congrArg List.length hundone.1
  rw [List.length_map, show confirmed s.receiver [] = [] from rfl, length_refused (Booked.run hrun).2,
    hfull] at hcount
  rw [length_of_full _ hfull] at hcount
  cases hcount

end Reception

end Mongoose
