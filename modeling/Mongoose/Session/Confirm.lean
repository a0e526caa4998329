import Mongoose.Session.Exchange
import Mathlib.Order.Interval.Finset.Nat

/-!
# Mongoose.Session.Confirm

Which write a transmit confirmation is credited to.

A confirmation carries a sequence number and pairs with the first record that
has it.  Sequence numbers repeat every 255 allocations, and a record stays until
it is confirmed, so the pairing is unambiguous only while no write is noted whole
cycles after a record that is still there.  `Notes` keeps the allocation behind each
record beside the run, and `unambiguous_iff` says that this is exactly the
condition; `repeated_sequence` is a run that breaks it.
-/

namespace Mongoose

namespace World

/-- The number the `n`-th allocation gives, counting from 1. -/
def sequenceOf (n : Nat) : Nat := (n - 1) % 255 + 1

/-- The next allocation takes the next number of the cycle. -/
theorem sequenceOf_succ {n q : Nat} (h : q = if n = 0 then 0 else sequenceOf n) :
    q % 255 + 1 = sequenceOf (n + 1) := by
  unfold sequenceOf at *
  split at h <;> omega

/-- Two allocations give one number when they are whole cycles apart. -/
theorem sequenceOf_eq_iff {m n : Nat} (hm : 1 ≤ m) (hmn : m ≤ n) :
    sequenceOf m = sequenceOf n ↔ 255 ∣ n - m := by
  unfold sequenceOf
  omega

/-! ## the notes -/

/-- What a run keeps track of for the pairing of confirmations. -/
structure Notes where
  /-- How many sequence numbers have been allocated. -/
  taken : Nat := 0
  /-- The allocation behind each pending record of a receiver, in their order. -/
  marks : ReceiverRef → List Nat := fun _ => []
  /-- The allocation of the last write noted with a sequence number. -/
  latest : ReceiverRef → Nat → Nat := fun _ _ => 0

namespace Notes

/-- The oldest mark goes with the oldest record. -/
def room (marks : List Nat) : List Nat :=
  if marks.length = CanReceiver.message_capacity then marks.tail else marks

/-- The marks of the records that are left when some at the front are gone. -/
def kept (marks : List Nat) (n : Nat) : List Nat := marks.drop (marks.length - n)

/-- A write noted with the number of the last allocation. -/
def noted (h : Notes) (r : ReceiverRef) (sequence : Nat) : Notes :=
  { h with
    marks := Function.update h.marks r (room (h.marks r) ++ [h.taken])
    latest := Function.update h.latest r (Function.update (h.latest r) sequence h.taken) }

/-- The newest record of a receiver forgotten. -/
def forgotten (h : Notes) (r : ReceiverRef) : Notes :=
  { h with marks := Function.update h.marks r (h.marks r).dropLast }

/-- The counter read again, and the marks of the records that are left. -/
def advanced (h : Notes) (w w' : World) : Notes :=
  { h with
    taken := if w'.session.sequence = w.session.sequence then h.taken else h.taken + 1
    marks := fun r => kept (h.marks r) (w'.session.receivers r).pending_transmits.length }

def note (w : World) (l : Label) (w' : World) (h : Notes) : Notes :=
  match w.noting l with
  | some (r, sequence) => h.noted r sequence
  | none =>
      match l with
      | .client r .forget_transmit => h.forgotten r
      | _ => h.advanced w w'

section note

variable {w w' : World} {l : Label} {h : Notes}

/-- A step that notes a write notes the number it has. -/
theorem note_of_noting {r : ReceiverRef} {sequence : Nat} (hn : w.noting l = some (r, sequence)) :
    note w l w' h = h.noted r sequence := by
  unfold note
  rw [hn]

theorem note_forget_transmit (r : ReceiverRef) :
    note w (.client r .forget_transmit) w' h = h.forgotten r := rfl

/-- Any other step only lets records go. -/
theorem note_of_other (hn : w.noting l = none) (hl : ∀ r, l ≠ .client r .forget_transmit) :
    note w l w' h = h.advanced w w' := by
  unfold note
  rw [hn]
  dsimp only
  split
  · next r => exact absurd rfl (hl r)
  · rfl

/-- A noted write joins at the end, and the oldest goes if there is no room. -/
@[simp] theorem noted_marks_self (r : ReceiverRef) (sequence : Nat) :
    (h.noted r sequence).marks r = room (h.marks r) ++ [h.taken] :=
  Function.update_self ..

/-- On its own receiver alone. -/
theorem noted_marks_of_ne {r r' : ReceiverRef} (sequence : Nat) (hr : r' ≠ r) :
    (h.noted r sequence).marks r' = h.marks r' :=
  Function.update_of_ne hr ..

/-- It is the latest with its number. -/
theorem noted_latest_self (r : ReceiverRef) (sequence : Nat) :
    (h.noted r sequence).latest r = Function.update (h.latest r) sequence h.taken :=
  Function.update_self ..

/-- On its own receiver alone, too. -/
theorem noted_latest_of_ne {r r' : ReceiverRef} (sequence : Nat) (hr : r' ≠ r) :
    (h.noted r sequence).latest r' = h.latest r' :=
  Function.update_of_ne hr ..

@[simp] theorem forgotten_marks_self (r : ReceiverRef) :
    (h.forgotten r).marks r = (h.marks r).dropLast :=
  Function.update_self ..

/-- A write is forgotten on its own receiver alone. -/
theorem forgotten_marks_of_ne {r r' : ReceiverRef} (hr : r' ≠ r) :
    (h.forgotten r).marks r' = h.marks r' :=
  Function.update_of_ne hr ..

end note

end Notes

/-- No two records of a receiver share a sequence number, and the record a
confirmation pairs with is that of the last write noted with its number. -/
structure Unambiguous (w : World) (h : Notes) : Prop where
  nodup : ∀ r, ((w.session.receivers r).pending_transmits.map (·.sequence)).Nodup
  latest : ∀ r sequence sent, (w.session.receivers r).paired sequence = some sent →
    ∃ i : Nat, (w.session.receivers r).pending_transmits[i]? = some sent ∧
      (h.marks r)[i]? = some (h.latest r sequence)

/-- A step notes a write only when no record is left, on its receiver, from
whole cycles of the sequence numbers before. -/
def Fresh (w : World) (l : Label) (h : Notes) : Prop :=
  ∀ r sequence, w.noting l = some (r, sequence) → ∀ m ∈ h.marks r, ¬ 255 ∣ h.taken - m

instance (w : World) (l : Label) (h : Notes) : Decidable (Fresh w l h) :=
  match hn : w.noting l with
  | none => isTrue fun r sequence hr => by rw [hn] at hr; cases hr
  | some (r, _) =>
      decidable_of_iff (∀ m ∈ h.marks r, ¬ 255 ∣ h.taken - m)
        ⟨fun hm r' _ hr => by rw [hn] at hr; cases hr; exact hm, fun hf => hf r _ hn⟩

/-! ## what the notes say -/

/-- The counter and the records agree with the notes. -/
structure Tracked (w : World) (h : Notes) : Prop where
  sequence : w.session.sequence = if h.taken = 0 then 0 else sequenceOf h.taken
  records : ∀ r, (w.session.receivers r).pending_transmits.map (·.sequence) =
    (h.marks r).map sequenceOf
  bound : ∀ r, ∀ m ∈ h.marks r, 1 ≤ m ∧ m ≤ h.taken

/-- The marks of a receiver have numbers of their own, each the last of its kind. -/
def Clear (h : Notes) : Prop :=
  ∀ r, ((h.marks r).map sequenceOf).Nodup ∧ ∀ m ∈ h.marks r, h.latest r (sequenceOf m) = m

section notes

variable {w w' : World} {h : Notes} {l : Label}

/-- Every pending record has its mark. -/
theorem Tracked.length (ht : Tracked w h) (r : ReceiverRef) :
    (w.session.receivers r).pending_transmits.length = (h.marks r).length := by
  simpa using congrArg List.length (ht.records r)

/-- There is a number once one was taken. -/
theorem Tracked.taken_ne_zero (ht : Tracked w h) (hpos : 1 ≤ w.session.sequence) : h.taken ≠ 0 := by
  intro h0
  have := ht.sequence
  rw [if_pos h0] at this
  omega

/-- Which is that of the last allocation. -/
theorem Tracked.sequence_of_pos (ht : Tracked w h) (hpos : 1 ≤ w.session.sequence) :
    w.session.sequence = sequenceOf h.taken := by
  rw [ht.sequence, if_neg (ht.taken_ne_zero hpos)]

/-- Making room only lets go. -/
theorem room_sublist (marks : List Nat) : (Notes.room marks).Sublist marks := by
  rw [Notes.room]
  split
  · exact List.tail_sublist _
  · exact List.Sublist.refl _

/-- Making room keeps records and marks together. -/
theorem Tracked.room (ht : Tracked w h) (r : ReceiverRef) :
    (w.session.receivers r).make_room.pending_transmits.map (·.sequence) =
      (Notes.room (h.marks r)).map sequenceOf := by
  rw [CanReceiver.make_room, Notes.room, ht.length r]
  split
  · rw [List.map_tail, List.map_tail, ht.records r]
  · exact ht.records r

/-- Dropping records from the front keeps records and marks together. -/
theorem Tracked.kept (ht : Tracked w h) (hd : Session.Drops w.session w'.session)
    (r : ReceiverRef) :
    (w'.session.receivers r).pending_transmits.map (·.sequence) =
      (Notes.kept (h.marks r) (w'.session.receivers r).pending_transmits.length).map sequenceOf := by
  rw [Notes.kept, List.map_drop, ← ht.records r, ← List.map_drop, ← ht.length r,
    ← List.suffix_iff_eq_drop.mp (hd r)]

/-- At first there is nothing to track. -/
theorem tracked_opened (protocol : ReceiverRef → UInt32) : Tracked (opened protocol) {} where
  sequence := rfl
  records := fun _ => rfl
  bound := fun _ _ hm => absurd hm List.not_mem_nil

/-- Every step keeps the notes true. -/
theorem Tracked.step (ht : Tracked w h) (hw : w.Sound) (hs : w.step l = some w') :
    Tracked w' (Notes.note w l w' h) := by
  obtain ⟨r, hn, hpos, hq, hother, hrec⟩ | ⟨r, rfl, hq, hother, hrec⟩ | ⟨hn, hl, hq, hd⟩ :=
    records_of_step hw hs
  · have htaken := ht.taken_ne_zero hpos
    rw [Notes.note_of_noting hn]
    refine ⟨hq.trans ht.sequence, fun r' => ?_, fun r' m hm => ?_⟩
    · by_cases hr : r' = r
      · subst hr
        rw [hrec, ht.room r', ht.sequence, if_neg htaken, Notes.noted_marks_self, List.map_append]
        rfl
      · rw [hother r' hr, Notes.noted_marks_of_ne _ hr]
        exact ht.records r'
    · by_cases hr : r' = r
      · subst hr
        rw [Notes.noted_marks_self, List.mem_append, List.mem_singleton] at hm
        obtain hm | rfl := hm
        · exact ht.bound r' m ((room_sublist _).subset hm)
        · exact ⟨Nat.one_le_iff_ne_zero.mpr htaken, Nat.le_refl _⟩
      · rw [Notes.noted_marks_of_ne _ hr] at hm
        exact ht.bound r' m hm
  · rw [Notes.note_forget_transmit]
    refine ⟨hq.trans ht.sequence, fun r' => ?_, fun r' m hm => ?_⟩
    · by_cases hr : r' = r
      · subst hr
        rw [hrec, List.map_dropLast, ht.records r', ← List.map_dropLast, Notes.forgotten_marks_self]
      · rw [hother r' hr, Notes.forgotten_marks_of_ne hr]
        exact ht.records r'
    · by_cases hr : r' = r
      · subst hr
        rw [Notes.forgotten_marks_self] at hm
        exact ht.bound r' m (List.dropLast_subset _ hm)
      · rw [Notes.forgotten_marks_of_ne hr] at hm
        exact ht.bound r' m hm
  · rw [Notes.note_of_other hn hl]
    have hle : h.taken ≤ (h.advanced w w').taken := by
      rw [Notes.advanced]
      dsimp only
      split <;> omega
    refine ⟨?_, ht.kept hd, fun r m hm => ?_⟩
    · rw [Notes.advanced]
      dsimp only
      by_cases heq : w'.session.sequence = w.session.sequence
      · rw [if_pos heq, heq]
        exact ht.sequence
      · rw [if_neg heq, if_neg (Nat.succ_ne_zero _), hq.resolve_left heq]
        exact sequenceOf_succ ht.sequence
    · obtain ⟨h1, h2⟩ := ht.bound r m (List.drop_subset _ _ hm)
      exact ⟨h1, h2.trans hle⟩

/-- Marks that are clear give records that are unambiguous. -/
theorem Clear.unambiguous (hc : Clear h) (ht : Tracked w h) : Unambiguous w h where
  nodup := fun r => (ht.records r).symm ▸ (hc r).1
  latest := by
    intro r sequence sent hp
    obtain ⟨hsent, i, hi, hget, -⟩ := List.find?_eq_some_iff_getElem.mp hp
    have hi' : i < (h.marks r).length := by rw [← ht.length r]; exact hi
    have hmark : sequenceOf (h.marks r)[i] = sequence := by
      have := congrArg (fun l => l[i]?) (ht.records r)
      simp only [List.getElem?_map, List.getElem?_eq_getElem hi, List.getElem?_eq_getElem hi',
        Option.map_some, Option.some.injEq, hget] at this
      rw [← this]
      simpa using hsent
    refine ⟨i, by rw [List.getElem?_eq_getElem hi, hget], ?_⟩
    rw [List.getElem?_eq_getElem hi', ← hmark, (hc r).2 _ (List.getElem_mem hi')]

/-- With no record from whole cycles before, noting a write keeps the marks clear. -/
theorem Clear.step (hc : Clear h) (ht : Tracked w h) (hw : w.Sound) (hs : w.step l = some w')
    (hf : Fresh w l h) : Clear (Notes.note w l w' h) := by
  have hsub {r : ReceiverRef} {marks : List Nat} (hm : marks.Sublist (h.marks r)) :
      (marks.map sequenceOf).Nodup ∧ ∀ m ∈ marks, h.latest r (sequenceOf m) = m :=
    ⟨(hm.map _).nodup (hc r).1, fun m hmem => (hc r).2 m (hm.subset hmem)⟩
  obtain ⟨r, hn, hpos, -⟩ | ⟨r, rfl, -⟩ | ⟨hn, hl, -⟩ := records_of_step hw hs
  · have hq : w.session.sequence = sequenceOf h.taken := ht.sequence_of_pos hpos
    rw [Notes.note_of_noting hn]
    intro r'
    by_cases hr : r' = r
    · subst hr
      have hne : ∀ m ∈ Notes.room (h.marks r'), sequenceOf m ≠ w.session.sequence := by
        intro m hm
        have hm := (room_sublist _).subset hm
        obtain ⟨h1, h2⟩ := ht.bound r' m hm
        rw [hq, ne_eq, sequenceOf_eq_iff h1 h2]
        exact hf r' _ hn m hm
      obtain ⟨hnodup, hlatest⟩ := hsub (room_sublist (h.marks r'))
      rw [Notes.noted_marks_self]
      constructor
      · rw [List.map_append, List.nodup_append']
        refine ⟨hnodup, List.nodup_singleton _, fun q hmem hq' => ?_⟩
        obtain ⟨m, hm, rfl⟩ := List.mem_map.mp hmem
        exact hne m hm ((by simpa using hq' : sequenceOf m = sequenceOf h.taken).trans hq.symm)
      · intro m hm
        rw [Notes.noted_latest_self]
        obtain hm | hm := List.mem_append.mp hm
        · rw [Function.update_of_ne (hne m hm)]
          exact hlatest m hm
        · rw [List.mem_singleton.mp hm, ← hq, Function.update_self]
    · rw [Notes.noted_marks_of_ne _ hr, Notes.noted_latest_of_ne _ hr]
      exact hc r'
  · rw [Notes.note_forget_transmit]
    intro r'
    by_cases hr : r' = r
    · subst hr
      rw [Notes.forgotten_marks_self]
      exact hsub (List.dropLast_sublist _)
    · rw [Notes.forgotten_marks_of_ne hr]
      exact hc r'
  · rw [Notes.note_of_other hn hl]
    exact fun r => hsub (List.drop_sublist _ _)

/-- At most 255 records have numbers of their own, so none is ever evicted. -/
theorem Unambiguous.length_le (hu : Unambiguous w h) (ht : Tracked w h) (r : ReceiverRef) :
    (w.session.receivers r).pending_transmits.length ≤ 255 := by
  have hsub : ((w.session.receivers r).pending_transmits.map (·.sequence)).toFinset ⊆
      Finset.Icc 1 255 := by
    intro q hq
    rw [List.mem_toFinset, ht.records r, List.mem_map] at hq
    obtain ⟨m, -, rfl⟩ := hq
    rw [Finset.mem_Icc, sequenceOf]
    omega
  have hcard := Finset.card_le_card hsub
  rw [List.toFinset_card_of_nodup (hu.nodup r), List.length_map, Nat.card_Icc] at hcard
  exact hcard

/-- A write noted over a record from whole cycles before repeats its number. -/
theorem Unambiguous.fresh_of_step (hu : Unambiguous w h) (ht : Tracked w h) (hw : w.Sound)
    (hs : w.step l = some w') (hu' : Unambiguous w' (Notes.note w l w' h)) : Fresh w l h := by
  intro r sequence hn m hm hdvd
  obtain ⟨r₁, hn₁, hpos, -, -, hrec⟩ | ⟨r₁, rfl, -⟩ | ⟨hn₁, -⟩ := records_of_step hw hs
  · cases hn₁.symm.trans hn
    have hroom : (w.session.receivers r).make_room = w.session.receivers r := by
      refine if_neg fun hfull => ?_
      have := hu.length_le ht r
      rw [hfull] at this
      exact absurd this (by decide)
    have hnodup := hu'.nodup r
    rw [hrec, hroom, ht.records r, List.nodup_append'] at hnodup
    obtain ⟨h1, h2⟩ := ht.bound r m hm
    have heq : sequenceOf m = w.session.sequence := by
      rw [ht.sequence_of_pos hpos]
      exact (sequenceOf_eq_iff h1 h2).mpr hdvd
    exact hnodup.2.2 (List.mem_map_of_mem hm) (by rw [heq]; exact List.mem_singleton_self _)
  · cases hn
  · rw [hn₁] at hn
    cases hn

/-- **When confirmations are unambiguous.** Every state of a run pairs each
confirmation with the last write that used its number, and has no number twice,
exactly when no write of the run is noted while its receiver still holds a
record from a whole number of cycles of 255 allocations before. -/
theorem unambiguous_iff {protocol : ReceiverRef → UInt32} {ls : List Label}
    (hr : Run.run (Run.recording step Notes.note) (opened protocol, {}) ls = some (w, h)) :
    Run.Along (Run.recording step Notes.note) (fun _ _ t => Unambiguous t.1 t.2)
        (opened protocol, {}) ls ↔
      Run.Along (Run.recording step Notes.note) (fun s l _ => Fresh s.1 l s.2)
        (opened protocol, {}) ls := by
  have hrun := Run.run_induction
    (P := fun ls (s : World × Notes) => s.1.Sound ∧ Tracked s.1 s.2 ∧
      (Run.Along (Run.recording step Notes.note) (fun _ _ t => Unambiguous t.1 t.2)
          (opened protocol, {}) ls ↔
        Run.Along (Run.recording step Notes.note) (fun s l _ => Fresh s.1 l s.2)
          (opened protocol, {}) ls) ∧
      (Run.Along (Run.recording step Notes.note) (fun s l _ => Fresh s.1 l s.2)
          (opened protocol, {}) ls → Clear s.2))
    ⟨sound_opened protocol, tracked_opened protocol, Iff.rfl, fun _ r => ⟨by simp, by simp⟩⟩
    (fun ls m l t hm ⟨hw, ht, hiff, hclear⟩ hs => ?_) hr
  · exact hrun.2.2.1
  obtain ⟨m, h⟩ := m
  obtain ⟨t, k⟩ := t
  obtain ⟨hstep, rfl⟩ := Run.recording_eq_some_iff.mp hs
  have ht' := ht.step hw hstep
  refine ⟨hw.step hstep, ht', ?_, ?_⟩
  · rw [Run.along_concat_iff hm hs, Run.along_concat_iff hm hs, hiff]
    refine and_congr_right fun hfresh => ?_
    have hc := hclear hfresh
    exact ⟨(hc.unambiguous ht).fresh_of_step ht hw hstep,
      fun hf => (hc.step ht hw hstep hf).unambiguous ht'⟩
  · rw [Run.along_concat_iff hm hs]
    exact fun ⟨hfresh, hf⟩ => (hclear hfresh).step ht hw hstep hf

end notes

/-! ## a record that outlives its number -/

/-- A general response: status zero, from a node, to a sequence. -/
def response (node sequence : Nat) : Bytes :=
  bytes16 0 ++ bytes16 node ++ bytes16 0x8003 ++ bytes16 sequence ++ List.replicate 12 0

def responseFrame (node sequence : Nat) : Bytes := header 20 ++ response node sequence

/-- A response is framed as it is. -/
theorem encode_response (node sequence : Nat) :
    encode (response node sequence) = .ok (responseFrame node sequence) :=
  encode_of_le (by simp [response, bytes16]) (by simp [response, bytes16, max_body])

/-- It answers the command with its number. -/
theorem answers_response {node sequence : Nat} (hn : node < 65536) (hs : sequence < 65536)
    (cmd : Command) : Answers node sequence cmd.minimum (response node sequence) := by
  have hmin : cmd.minimum ≤ 20 := by unfold Command.minimum; split <;> omega
  -- the four fields one after the other, as the reader finds them
  have hskip (v : Nat) (e : Bytes) (o : Nat) : le16At (bytes16 v ++ e) (o + 2) = le16At e o := by
    rw [le16At_append_right (by simp [bytes16])]
    simp [bytes16]
  have hop : le16At (response node sequence) 4 = 0x8003 := by
    rw [response, List.append_assoc, List.append_assoc, List.append_assoc, hskip 0 _ 2,
      hskip node _ 0, le16At_bytes16 _ (by omega)]
  have hsource : le16At (response node sequence) 2 = node := by
    rw [response, List.append_assoc, List.append_assoc, List.append_assoc, hskip 0 _ 0,
      le16At_bytes16 _ hn]
  have hsequence : le16At (response node sequence) 6 = sequence := by
    rw [response, List.append_assoc, List.append_assoc, List.append_assoc, hskip 0 _ 4,
      hskip node _ 2, hskip 0x8003 _ 0, le16At_bytes16 _ hs]
  have hdest : le16At (response node sequence) 0 = 0 := by
    rw [response, List.append_assoc, List.append_assoc, List.append_assoc,
      le16At_bytes16 _ (by omega)]
  exact ⟨by simpa [response, bytes16] using hmin, by rw [hop]; decide, hdest, hsource, hsequence⟩

/-- A command whose payload fits is encoded. -/
theorem exists_wire {cmd : Command} {q : Nat} (hp : cmd.payload.length ≤ 6132) (hq : 1 ≤ q)
    (hq' : q ≤ 255) (hd : cmd.destination ≠ 0) :
    ∃ wire, request cmd.opcode q cmd.payload cmd.destination cmd.chan >>= encode = .ok wire := by
  rw [request_of_le (by unfold max_body; omega) hq hq' hd]
  refine ⟨_, encode_of_le ?_ ?_⟩
  · simp [messageHeader, bytes16]
  · simp [messageHeader, bytes16, max_body]
    omega

/-- A command that gets a general response at once. -/
theorem exchange_response {w : World} {c : CallId} {q : Nat} (cmd : Command) (hw : w.Idle)
    (hc : w.calls c = none) (hpos : 0 < cmd.timeout) (hmax : cmd.timeout ≤ 60000)
    (hp : cmd.payload.length ≤ 6132) (hd : cmd.destination ≠ 0) (hd' : cmd.destination < 65536)
    (hq : q = w.session.sequence % 255 + 1) :
    ∃ w', Run.run step w (exchange c cmd 0 (responseFrame cmd.destination q)) = some w' ∧ w'.Idle ∧
      w'.session.sequence = q ∧ w'.session.can_receiver = w.session.can_receiver ∧
      w'.session.receivers = ({ command := cmd, deadline := 0, allocated := q : Call }.known
        w.session).receivers ∧
      (∀ d, d ≠ c → w'.calls d = w.calls d) := by
  obtain ⟨wire, hwire⟩ := exists_wire hp (show 1 ≤ q by omega) (by omega) hd
  exact exchange_run hw hc hpos hmax hq hwire (answers_response hd' (by omega) cmd)
    (encode_response cmd.destination q)

/-- `READ_VBATT`. -/
def battery : Command := { opcode := 0xc, payload := [3, 0, 0, 0] }

/-- So many of them, one after the other, from call `c` and sequence `q` on. -/
def batteries (c : CallId) (q : Nat) : Nat → List Label
  | 0 => []
  | n + 1 => exchange c battery 0 (responseFrame board_node (q + 1)) ++ batteries (c + 1) (q + 1) n

/-- Some battery readings in a row take a number each and note nothing. -/
theorem batteries_run {w : World} {c q n : Nat} (hw : w.Idle)
    (hc : ∀ d : Nat, c ≤ d → w.calls d = none) (hq : w.session.sequence = q) (hn : q + n ≤ 255) :
    ∃ w', Run.run step w (batteries c q n) = some w' ∧ w'.Idle ∧ w'.session.sequence = q + n ∧
      w'.session.can_receiver = w.session.can_receiver ∧ w'.session.receivers = w.session.receivers ∧
      ∀ d : Nat, c + n ≤ d → w'.calls d = none := by
  induction n generalizing w c q with
  | zero => exact ⟨w, rfl, hw, hq, rfl, rfl, hc⟩
  | succ n ih =>
      obtain ⟨u, hrun, hidle, hseq, hcan, hrec, hcalls⟩ := exchange_response (q := q + 1) battery
        hw (hc c (Nat.le_refl c)) (by decide) (by decide) (by decide) (by decide) (by decide)
        (by rw [hq]; omega)
      have hfree (d : Nat) (hd : c + 1 ≤ d) : u.calls d = none :=
        (hcalls d (show d ≠ c by omega)).trans (hc d (by omega))
      have hle : q + 1 + n ≤ 255 := by omega
      obtain ⟨w', hrun', hidle', hseq', hcan', hrec', hcalls'⟩ := ih hidle hfree hseq hle
      refine ⟨w', Run.run_append hrun hrun', hidle', by omega, hcan'.trans hcan, hrec'.trans hrec,
        fun d hd => ?_⟩
      exact hcalls' d (by omega)

/-- A raw CAN frame of one data byte. -/
def frame (value : UInt8) : PASSTHRU_MSG :=
  { ProtocolID := CAN, DataSize := 5, Data := padData [0, 0, 7, 0xe0, value]
    length_Data := length_padData (by simp [dataCapacity]) }

/-- The data command of a `WriteMsgs` call for it. -/
def write (call : TransmitCall) (value : UInt8) : Command :=
  { opcode := 8, payload := [0, 0, 0, 0, 0, 0, 0, 0, 5, 0, 0, 0, 0, 0, 7, 0xe0, value]
    timeout := 1000, destination := channel_node CAN.toNat, chan := 1
    sequence_known := some { receiver := 0, message := frame value, call := some call } }

/-- A write that is answered takes a number and notes a record. -/
theorem write_run {w : World} {c : CallId} (call : TransmitCall) (value : UInt8) (hw : w.Idle)
    (hc : w.calls c = none) (hq : 1 = w.session.sequence % 255 + 1) :
    ∃ w', Run.run step w (exchange c (write call value) 0
        (responseFrame (channel_node CAN.toNat) 1)) = some w' ∧ w'.Idle ∧
      w'.session.sequence = 1 ∧ w'.session.can_receiver = w.session.can_receiver ∧
      w'.session.receivers 0 = (w.session.receivers 0).note_transmit (frame value) 1 (some call) ∧
      ∀ d, d ≠ c → w'.calls d = w.calls d := by
  have hd : (write call value).destination = channel_node CAN.toNat := rfl
  obtain ⟨w', hrun, hidle, hseq, hcan, hrec, hcalls⟩ := exchange_response (write call value) hw hc
    (by simp [write]) (by simp [write]) (by simp [write]) (by rw [hd]; decide) (by rw [hd]; decide) hq
  refine ⟨w', hrun, hidle, hseq, hcan, ?_, hcalls⟩
  simp [hrec, Call.known, write, Session.update_receiver]

/-- A write the bus never confirms, 254 battery readings, and a second write. -/
def outlived : List Label :=
  .set_can_receiver (some 0) ::
    (exchange 0 (write 0 1) 0 (responseFrame (channel_node CAN.toNat) 1) ++
      (batteries 1 1 254 ++
        exchange 255 (write 1 2) 0 (responseFrame (channel_node CAN.toNat) 1)))

/-- The second write takes the number of the first, and a confirmation of it
goes to the first. -/
theorem repeated_sequence :
    ∃ w h, Run.run (Run.recording step Notes.note) (opened fun _ => CAN, {}) outlived = some (w, h) ∧
      ¬ Unambiguous w h ∧
      ((w.session.receivers 0).pending_transmits.map fun p => (p.sequence, p.call)) =
        [(1, some 0), (1, some 1)] ∧
      ((w.session.receivers 0).paired 1).map (·.call) = some (some 0) := by
  let w₀ : World := { opened (fun _ => CAN) with
    session := (opened fun _ => CAN).session.set_can_receiver (some 0) }
  have h₀ : w₀.Idle := ⟨rfl, ⟨rfl, rfl⟩, fun _ => rfl, rfl⟩
  obtain ⟨w₁, hrun₁, h₁, hseq₁, -, hrec₁, hcalls₁⟩ := write_run (c := 0) 0 1 h₀ rfl rfl
  have hfree (d : Nat) (hd : 1 ≤ d) : w₁.calls d = none := hcalls₁ d (show d ≠ 0 by omega)
  obtain ⟨w₂, hrun₂, h₂, hseq₂, -, hrec₂, hcalls₂⟩ := batteries_run h₁ hfree hseq₁
    (show 1 + 254 ≤ 255 by decide)
  obtain ⟨w₃, hrun₃, h₃, hseq₃, -, hrec₃, hcalls₃⟩ := write_run (c := 255) 1 2 h₂
    (hcalls₂ 255 (Nat.le_refl 255)) (by rw [hseq₂])
  have hrun : Run.run step (opened fun _ => CAN) outlived = some w₃ :=
    Run.run_cons_iff.mpr ⟨w₀, rfl, Run.run_append hrun₁ (Run.run_append hrun₂ hrun₃)⟩
  obtain ⟨h, hrun⟩ := Run.exists_recording Notes.note hrun {}
  have hpending : (w₃.session.receivers 0).pending_transmits =
      [⟨1, 0, [0, 0, 7, 0xe0, 1], some 0⟩, ⟨1, 0, [0, 0, 7, 0xe0, 2], some 1⟩] := by
    rw [hrec₃, hrec₂, hrec₁]
    rfl
  refine ⟨w₃, h, hrun, fun hu => ?_, by rw [hpending]; rfl, ?_⟩
  · have := hu.nodup 0
    rw [hpending] at this
    exact absurd this (by decide)
  · rw [CanReceiver.paired, hpending]
    rfl

/-- The confirmation of a write, in its frame. -/
def confirmed (q : Nat) : Label :=
  .receive (header 20 ++ (bytes16 0 ++ bytes16 (channel_node CAN.toNat) ++ bytes16 10 ++ bytes16 q ++
    List.replicate 4 0 ++ bytes32 0x106 ++ List.replicate 4 0))

/-- Three writes with a battery reading in between; the bus confirms the first and the last. -/
def confirmed_writes : List Label :=
  .set_can_receiver (some 0) ::
    (exchange 0 (write 0 1) 0 (responseFrame (channel_node CAN.toNat) 1) ++ confirmed 1 ::
      (exchange 1 battery 0 (responseFrame board_node 2) ++
        (exchange 2 (write 1 2) 0 (responseFrame (channel_node CAN.toNat) 3) ++
          (exchange 3 (write 2 3) 0 (responseFrame (channel_node CAN.toNat) 4) ++ [confirmed 4]))))

/-- No number repeats, so each confirmation is credited to its own write. -/
theorem unambiguous_iff_confirmed_writes :
    ∃ w h, Run.run (Run.recording step Notes.note) (opened fun _ => CAN, {}) confirmed_writes = some (w, h) ∧
      Run.Along (Run.recording step Notes.note) (fun _ _ t => Unambiguous t.1 t.2)
        (opened fun _ => CAN, {}) confirmed_writes ∧
      [0, 1, 2].map (w.session.receivers 0).confirmed = [1, 0, 1] := by
  have hcounts : (Run.run (Run.recording step Notes.note) (opened fun _ => CAN, {}) confirmed_writes).map
      (fun x => [0, 1, 2].map (x.1.session.receivers 0).confirmed) = some [1, 0, 1] := by
    decide +kernel
  obtain ⟨⟨w, h⟩, hrun, hcount⟩ := Option.map_eq_some_iff.mp hcounts
  exact ⟨w, h, hrun, (unambiguous_iff hrun).mpr (by decide +kernel), hcount⟩

end World

end Mongoose
