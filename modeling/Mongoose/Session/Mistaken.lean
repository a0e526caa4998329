import Mongoose.Session.Confirm
import Mongoose.Session.Touched

/-!
# Mongoose.Session.Mistaken

Whether the confirmation of a periodic frame is mistaken for that of a write.

The adapter confirms a periodic frame under the sequence number of the command that added
its entry.  The entry lives on while the numbers wrap, so a write can be recorded under that
number again.  `unmistaken_iff` says that a confirmation is mistaken exactly when it meets a
record from a whole number of cycles away; `mistaken_after_wrap` is a run in which it does.
-/

namespace Mongoose

open CanReceiver

/-- A command that adds an entry to the adapter's periodic table. -/
def Command.AddsPeriodic (cmd : Command) : Prop :=
  cmd.opcode = 0x0d ∧ cmd.payload.head? = some table_periodic

instance (cmd : Command) : Decidable cmd.AddsPeriodic := inferInstanceAs (Decidable (_ ∧ _))

/-! ## what a confirmation does -/

namespace CanReceiver

/-- A receiver counts nothing, drops no record and queues nothing. -/
structure Spared (r r' : CanReceiver) : Prop where
  transmitted : r'.transmitted = r.transmitted
  confirmed : r'.confirmed = r.confirmed
  pending_transmits : r'.pending_transmits = r.pending_transmits
  messages : r'.messages = r.messages
  frames : r'.frames = r.frames

variable {r : CanReceiver} {sequence : Nat} {timestamp : UInt32}

/-- A receiver that stays as it is was spared. -/
theorem Spared.refl (r : CanReceiver) : Spared r r := ⟨rfl, rfl, rfl, rfl, rfl⟩

/-- A confirmation that pairs is counted. -/
theorem spared_handle_iff : r.Spared (r.handle (.sent sequence timestamp)) ↔ r.paired sequence = none := by
  rw [handle]
  cases hp : r.paired sequence with
  | none => exact iff_of_true (.refl r) rfl
  | some sent =>
      refine iff_of_false (fun h => ?_) (by simp)
      have hcount : ((r.pair sequence sent).announce sent timestamp).transmitted = r.transmitted + 1 := by
        rw [announce_count, pair]
      have := h.transmitted
      dsimp only at this
      omega

end CanReceiver

namespace World

/-! ## periodic entries -/

/-- A step, and for each body that it brings the entry whose frame the body confirms, if it
confirms one.  An entry is named by the allocation of the command that added it. -/
abbrev Caused := Label × List (Option Nat)

def caused (w : World) (l : Caused) : Option World := w.step l.1

/-- A step of a command that adds a periodic entry, when its sequence is known. -/
def adds (w : World) : Label → Bool
  | .act c .known => (w.calls c).any fun call => call.command.AddsPeriodic
  | _ => false

/-- What a run keeps track of for periodic frames. -/
structure Table where
  notes : Notes := {}
  /-- The entries added so far. -/
  entries : List Nat := []

def Table.note (w : World) (l : Caused) (w' : World) (g : Table) : Table :=
  { notes := Notes.note w l.1 w' g.notes
    entries := if w.adds l.1 then g.notes.taken :: g.entries else g.entries }

/-- A step brings, to a session with receiver `r`, the confirmation of a frame of entry `n`. -/
structure Confirms (w : World) (g : Table) (l : Caused) (n : Nat) (body : Bytes) (s : Session)
    (r : ReceiverRef) : Prop where
  arrives : ∃ bytes before after decoder, l.1 = .receive bytes ∧
    w.session.decoder.feed bytes = .ok (before ++ body :: after, decoder) ∧
    before.foldlM Session.dispatch { w.session with decoder := decoder } = .ok s ∧
    l.2[before.length]? = some (some n)
  entry : n ∈ g.entries
  receiver : s.can_receiver = some r
  /-- The adapter echoes the sequence number of the command that added the entry. -/
  echoes : ∃ timestamp, inbound (channel_node (s.receivers r).protocol.toNat) body =
    .sent (sequenceOf n) timestamp

/-- No confirmation of a periodic frame counts as one of a write. -/
def Unmistaken (w : World) (g : Table) (l : Caused) : Prop :=
  ∀ n body s s' r, Confirms w g l n body s r → s.dispatch body = .ok s' →
    ∀ q, (s.receivers q).Spared (s'.receivers q)

/-- The confirmation of a periodic frame meets no record that was allocated a whole number
of cycles before or after the entry, unless its receiver is stopped. -/
def Apart (w : World) (g : Table) (l : Caused) : Prop :=
  ∀ n body s r, Confirms w g l n body s r → (s.receivers r).stopped = 0 →
    ∀ m ∈ Notes.kept (g.notes.marks r) (s.receivers r).pending_transmits.length, m % 255 ≠ n % 255

/-- What a run keeps. -/
structure Table.Kept (w : World) (g : Table) : Prop where
  sound : w.Sound
  proper : ∀ r, (w.session.receivers r).Proper
  tracked : Tracked w g.notes
  entries : ∀ n ∈ g.entries, 1 ≤ n

section entries

variable {w w' : World} {g : Table} {l : Caused} {n : Nat} {body : Bytes} {s s' : Session} {r : ReceiverRef}

/-- While an entry is added a sequence is allocated. -/
theorem sequence_pos_of_adds (hw : w.Sound) (hs : w.step l.1 = some w') (ha : w.adds l.1 = true) :
    1 ≤ w.session.sequence := by
  obtain ⟨c, hl⟩ : ∃ c, l.1 = .act c .known := by
    unfold adds at ha
    split at ha
    · next c hl => exact ⟨c, hl⟩
    · cases ha
  rw [hl] at hs
  obtain ⟨call, s, call', hc, hcall, -⟩ := step_act hs
  obtain ⟨hp, -⟩ := Option.ite_none_right_eq_some.mp hcall
  have hown : call.Owns w.session := hw.owns hc (by rw [hp]; trivial)
  exact hown.sequence ▸ hown.pos

/-- At first there are no entries. -/
theorem Table.kept_opened (protocol : ReceiverRef → UInt32) : Table.Kept (opened protocol) {} where
  sound := sound_opened protocol
  proper :=
    have hnil : Run.run World.step (opened protocol) [] = some (opened protocol) := rfl
    proper_of_run hnil
  tracked := tracked_opened protocol
  entries := by simp

/-- Every step keeps the table. -/
theorem Table.Kept.step (h : g.Kept w) (hs : w.caused l = some w') : (Table.note w l w' g).Kept w' where
  sound := h.sound.step hs
  proper r := Touched.proper_many ((minds_of_step w.permits_trivial hs).touches r) (h.proper r)
  tracked := h.tracked.step h.sound hs
  entries := by
    intro n hn
    rw [note] at hn
    split at hn
    · next ha =>
        have hpos := h.tracked.taken_ne_zero (sequence_pos_of_adds h.sound hs ha)
        obtain rfl | hn := List.mem_cons.mp hn
        · exact Nat.one_le_iff_ne_zero.mpr hpos
        · exact h.entries n hn
    · exact h.entries n hn

/-- So does every run. -/
theorem kept_run {protocol : ReceiverRef → UInt32} {ls : List Caused}
    (h : Run.run (Run.recording caused Table.note) (opened protocol, {}) ls = some (w, g)) : g.Kept w := by
  refine Run.invariant (I := fun x : World × Table => x.2.Kept x.1) ?_ (Table.kept_opened protocol) h
  intro ⟨m, g⟩ l ⟨t, k⟩ hkept hs
  obtain ⟨hstep, rfl⟩ := Run.recording_eq_some_iff.mp hs
  exact hkept.step hstep

/-- Some bodies in a row drop records at the front alone. -/
theorem drops_dispatches {bodies : List Bytes} (h : bodies.foldlM Session.dispatch s = .ok s') :
    Session.Drops s s' := by
  induction bodies generalizing s with
  | nil =>
      obtain rfl := Except.ok.inj h
      exact (Session.Sheds.refl s).drops
  | cons body bodies ih =>
      obtain ⟨t, ht, h⟩ := bind_ok h
      exact fun r => (ih h r).trans (Session.drops_dispatch ht r)

/-- Numbers repeat with the cycle. -/
theorem sequenceOf_eq_iff_mod {m n : Nat} (hm : 1 ≤ m) (hn : 1 ≤ n) :
    sequenceOf m = sequenceOf n ↔ m % 255 = n % 255 := by
  unfold sequenceOf
  omega

/-- What a confirmation meets, by the notes. -/
theorem Confirms.paired_none_iff (h : Confirms w g l n body s r) (hg : g.Kept w) :
    (s.receivers r).paired (sequenceOf n) = none ↔
      ∀ m ∈ Notes.kept (g.notes.marks r) (s.receivers r).pending_transmits.length, m % 255 ≠ n % 255 := by
  obtain ⟨bytes, before, after, decoder, -, -, hbefore, -⟩ := h.arrives
  let u : World := { w with session := s }
  have hdrops : Session.Drops w.session u.session := fun q => drops_dispatches hbefore q
  have hrecords : (s.receivers r).pending_transmits.map (·.sequence) =
      (Notes.kept (g.notes.marks r) (s.receivers r).pending_transmits.length).map sequenceOf :=
    hg.tracked.kept hdrops r
  have hbound (m) (hm : m ∈ Notes.kept (g.notes.marks r) (s.receivers r).pending_transmits.length) :
      1 ≤ m := (hg.tracked.bound r m (List.drop_subset _ _ hm)).1
  have hnone : (s.receivers r).paired (sequenceOf n) = none ↔
      sequenceOf n ∉ (s.receivers r).pending_transmits.map (·.sequence) := by
    simp [paired]
  rw [hnone, hrecords]
  simp only [List.mem_map, not_exists, not_and]
  refine forall₂_congr fun m hm => not_congr ?_
  exact sequenceOf_eq_iff_mod (hbound m hm) (hg.entries n h.entry)

/-- The step goes through, so the body is dispatched. -/
theorem Confirms.dispatched (h : Confirms w g l n body s r) (hs : w.caused l = some w') :
    ∃ s', s.dispatch body = .ok s' := by
  obtain ⟨bytes, before, after, decoder, hl, hfeed, hbefore, -⟩ := h.arrives
  rw [caused, hl] at hs
  obtain ⟨t, ht, -⟩ := Option.map_eq_some_iff.mp hs
  obtain ⟨x, hx, ht⟩ := bind_ok (Session.receive_of_environment ht)
  obtain rfl := Except.ok.inj (hfeed.symm.trans hx)
  dsimp only at ht
  rw [List.foldlM_append] at ht
  obtain ⟨u, hu, ht⟩ := bind_ok ht
  obtain rfl := Except.ok.inj (hbefore.symm.trans hu)
  obtain ⟨s', hs', -⟩ := bind_ok ht
  exact ⟨s', hs'⟩

/-- A receiver that gets the confirmation of a periodic frame is spared when it is stopped
or has no record with its number. -/
theorem Confirms.spared_iff (h : Confirms w g l n body s r) (hg : g.Kept w) (hs : s.dispatch body = .ok s') :
    (∀ q, (s.receivers q).Spared (s'.receivers q)) ↔
      ((s.receivers r).stopped = 0 → (s.receivers r).paired (sequenceOf n) = none) := by
  obtain ⟨bytes, before, after, decoder, -, -, hbefore, -⟩ := h.arrives
  obtain ⟨timestamp, hsent⟩ := h.echoes
  have hproper : (s.receivers r).Proper :=
    Touched.proper_many (Session.touches_dispatches (P := fun _ => True) hbefore r) (hg.proper r)
  obtain ⟨hnone, -⟩ | ⟨q, receiver, hq, hreceive, hrec⟩ := Session.receivers_of_dispatch hs
  · rw [h.receiver] at hnone
    cases hnone
  obtain rfl : r = q := Option.some.inj (h.receiver.symm.trans hq)
  rw [CanReceiver.receive_eq hproper.bounded, hsent] at hreceive
  have hspared : (∀ q, (s.receivers q).Spared (s'.receivers q)) ↔ (s.receivers r).Spared receiver := by
    rw [hrec]
    constructor
    · intro hall
      simpa using hall r
    · intro hr q
      by_cases hqr : q = r
      · subst hqr
        simpa using hr
      · rw [Function.update_of_ne hqr]
        exact .refl _
  obtain rfl := Except.ok.inj hreceive
  rw [hspared]
  by_cases hstopped : (s.receivers r).stopped = 0
  · rw [if_neg (not_not_intro hstopped), spared_handle_iff]
    simp [hstopped]
  · rw [if_pos hstopped]
    exact iff_of_true (.refl _) fun h0 => absurd h0 hstopped

/-- One step mistakes no confirmation exactly when each meets only records apart from its entry. -/
theorem unmistaken_iff_apart (hg : g.Kept w) (hs : w.caused l = some w') :
    Unmistaken w g l ↔ Apart w g l := by
  constructor
  · intro hu n body s r hc hstopped
    obtain ⟨s', hs'⟩ := hc.dispatched hs
    exact (hc.paired_none_iff hg).mp ((hc.spared_iff hg hs').mp (hu n body s s' r hc hs') hstopped)
  · intro ha n body s s' r hc hs'
    exact (hc.spared_iff hg hs').mpr fun h0 => (hc.paired_none_iff hg).mpr (ha n body s r hc h0)

/-- A step that brings nothing of a periodic entry. -/
theorem apart_uncaused (hl : l.2 = []) : Apart w g l := by
  intro n body s r hc
  obtain ⟨bytes, before, after, decoder, -, -, -, hcause⟩ := hc.arrives
  rw [hl] at hcause
  cases hcause

end entries

/-- **When no confirmation of a periodic frame is mistaken for that of a write**: in every run,
exactly when each meets, on the receiver it comes to, only records whose allocation is not a
whole number of cycles of 255 away from that of the entry. -/
theorem unmistaken_iff {protocol : ReceiverRef → UInt32} {ls : List Caused} {w : World} {g : Table}
    (hr : Run.run (Run.recording caused Table.note) (opened protocol, {}) ls = some (w, g)) :
    Run.Along (Run.recording caused Table.note) (fun x l _ => Unmistaken x.1 x.2 l) (opened protocol, {}) ls ↔
      Run.Along (Run.recording caused Table.note) (fun x l _ => Apart x.1 x.2 l) (opened protocol, {}) ls := by
  refine Run.run_induction (P := fun ls _ =>
    Run.Along (Run.recording caused Table.note) (fun x l _ => Unmistaken x.1 x.2 l) (opened protocol, {}) ls ↔
      Run.Along (Run.recording caused Table.note) (fun x l _ => Apart x.1 x.2 l) (opened protocol, {}) ls)
    Iff.rfl ?_ hr
  intro ls ⟨m, g⟩ l ⟨t, k⟩ hm hiff hs
  obtain ⟨hstep, -⟩ := Run.recording_eq_some_iff.mp hs
  rw [Run.along_concat_iff hm hs, Run.along_concat_iff hm hs, hiff, unmistaken_iff_apart (kept_run hm) hstep]

/-! ## an entry that outlives its number -/

/-- A step that brings nothing of a periodic entry. -/
def uncaused (l : Label) : Caused := (l, [])

/-- Without entries a run is one of the session. -/
theorem run_uncaused {w w' : World} {ls : List Label} (h : Run.run step w ls = some w') :
    Run.run caused w (ls.map uncaused) = some w' := by
  induction ls generalizing w with
  | nil => exact h
  | cons l ls ih =>
      obtain ⟨m, hm, h⟩ := Run.run_cons_iff.mp h
      exact Run.run_cons_iff.mpr ⟨m, hm, ih h⟩

/-- An entry stays in the table of a run. -/
theorem entries_of_run {w w' : World} {g g' : Table} {n : Nat} {ls : List Caused}
    (h : Run.run (Run.recording caused Table.note) (w, g) ls = some (w', g')) (hn : n ∈ g.entries) :
    n ∈ g'.entries := by
  refine Run.invariant (I := fun x : World × Table => n ∈ x.2.entries) ?_ hn h
  intro ⟨m, g⟩ l ⟨t, k⟩ hn hs
  obtain ⟨-, rfl⟩ := Run.recording_eq_some_iff.mp hs
  simp only [Table.note]
  split
  · exact List.mem_cons_of_mem _ hn
  · exact hn

/-- A frame every second, for the adapter's periodic table. -/
def periodic : Command :=
  { opcode := 0x0d, payload := [4, 0, 0, 0] ++ bytes32 1000 ++ bytes32 0 ++ [5] ++ [0, 0, 7, 0xe0, 1]
    destination := channel_node CAN.toNat }

/-- The adapter adds it, under handle 7. -/
def added : Bytes := response (channel_node CAN.toNat) 1 ++ bytes32 7

/-- One frame was sent by the command with sequence 1. -/
def confirmation : Bytes :=
  bytes16 0 ++ bytes16 (channel_node CAN.toNat) ++ bytes16 10 ++ bytes16 1 ++ List.replicate 4 0 ++
    bytes32 0x106 ++ bytes32 0

/-- A channel whose first command starts a periodic message. -/
def beginning : List Label :=
  .set_can_receiver (some 0) :: exchange 0 periodic 0 (header 24 ++ added)

/-- A confirmation of the first frame of the entry. -/
def confirming : Caused := (.receive (header 20 ++ confirmation), [some 1])

/-- The command that adds the entry takes the first number. -/
theorem entries_beginning :
    (Run.run (Run.recording caused Table.note) (opened fun _ => CAN, {}) (beginning.map uncaused)).map
      (fun x => x.2.entries) = some [1] := by
  decide +kernel

/-- The confirmation is read as one. -/
theorem inbound_confirmation : inbound (channel_node CAN.toNat) confirmation = .sent (sequenceOf 1) 0 := by
  decide +kernel

/-- It is framed as it is. -/
theorem encode_confirmation : encode confirmation = .ok (header 20 ++ confirmation) :=
  encode_of_le (by simp [confirmation, bytes16, bytes32]) (by simp [confirmation, bytes16, bytes32, max_body])

/-- A confirmation is nothing to a waiting command. -/
theorem accepts_confirmation (s : Session) : s.accepts confirmation = .ok false := by
  rw [Session.accepts]
  split
  · rfl
  · have hopcode : le16 confirmation 4 = .ok 10 := by decide +kernel
    rw [hopcode]
    rfl

/-- It can be dispatched in every session. -/
theorem dispatch_confirmation {s : Session} (hs : ∀ r, (s.receivers r).Proper) :
    ∃ s', s.dispatch confirmation = .ok s' := by
  rw [Session.dispatch, Session.deliver]
  cases s.can_receiver with
  | none => exact ⟨s, by simp [accepts_confirmation, bind, Except.bind, pure, Except.pure]⟩
  | some r =>
      simp only [CanReceiver.receive_eq (hs r).bounded, accepts_confirmation, bind, Except.bind]
      exact ⟨_, rfl⟩

/-- What the channel's first command leaves behind. -/
theorem beginning_run :
    ∃ w, Run.run step (opened fun _ => CAN) beginning = some w ∧ w.Idle ∧ w.session.sequence = 1 ∧
      w.session.can_receiver = some 0 ∧ w.session.receivers = (opened fun _ => CAN).session.receivers ∧
      ∀ d : Nat, 1 ≤ d → w.calls d = none := by
  let w₀ : World := { opened (fun _ => CAN) with
    session := (opened fun _ => CAN).session.set_can_receiver (some 0) }
  have h₀ : w₀.Idle := ⟨rfl, ⟨rfl, rfl⟩, fun _ => rfl, rfl⟩
  have hans : Answers periodic.destination 1 periodic.minimum added := by decide +kernel
  have hbytes : encode added = .ok (header 24 ++ added) :=
    encode_of_le (by simp [added, response, bytes16, bytes32])
      (by simp [added, response, bytes16, bytes32, max_body])
  have hlength : periodic.payload.length ≤ 6132 := by decide
  obtain ⟨wire, hwire⟩ := exists_wire (q := 1) hlength (by decide) (by decide) (by decide)
  obtain ⟨w, hrun, hidle, hseq, hcan, hrec, hcalls⟩ : ∃ w,
      Run.run step w₀ (exchange 0 periodic 0 (header 24 ++ added)) = some w ∧ w.Idle ∧
        w.session.sequence = 1 ∧ w.session.can_receiver = some 0 ∧
        w.session.receivers = w₀.session.receivers ∧ ∀ d, d ≠ 0 → w.calls d = w₀.calls d :=
    exchange_run h₀ rfl (by decide) (by decide) rfl hwire hans hbytes
  exact ⟨w, Run.run_cons_iff.mpr ⟨w₀, rfl, hrun⟩, hidle, hseq, hcan, hrec,
    fun d hd => hcalls d (show d ≠ 0 by omega)⟩

/-- A run from the beginning on knows the entry. -/
theorem entry_of_run {w : World} {g : Table} {ls : List Caused}
    (h : Run.run (Run.recording caused Table.note) (opened fun _ => CAN, {})
      (beginning.map uncaused ++ ls) = some (w, g)) : 1 ∈ g.entries := by
  obtain ⟨⟨m, k⟩, hm, h⟩ := Run.run_append_iff.mp h
  have hentries := entries_beginning
  rw [hm, Option.map_some, Option.some.injEq] at hentries
  exact entries_of_run h (hentries.symm ▸ List.mem_singleton_self 1)

/-- Where the confirmation of the entry's frame arrives. -/
theorem confirms_confirming {w : World} {g : Table} (hw : w.Idle) (hcan : w.session.can_receiver = some 0)
    (hcan' : (w.session.receivers 0).protocol = CAN) (hn : 1 ∈ g.entries) :
    Confirms w g confirming 1 confirmation w.session 0 where
  arrives := ⟨_, [], [], w.session.decoder, rfl, Decoder.feed_encode hw.buffer encode_confirmation, rfl, rfl⟩
  entry := hn
  receiver := hcan
  echoes := ⟨0, by rw [hcan']; exact inbound_confirmation⟩

/-- So it can arrive. -/
theorem step_confirming {w : World} (hw : w.Idle) (hs : ∀ r, (w.session.receivers r).Proper) :
    ∃ w', w.caused confirming = some w' := by
  obtain ⟨s', hs'⟩ := dispatch_confirmation hs
  have hreceive : w.session.receive (header 20 ++ confirmation) = .ok s' := by
    rw [Session.receive, Decoder.feed_encode hw.buffer encode_confirmation]
    change [confirmation].foldlM Session.dispatch w.session = _
    rw [List.foldlM_cons, hs']
    rfl
  refine ⟨{ w with session := s' }, ?_⟩
  change (environment w.session (.receive (header 20 ++ confirmation))).map _ = _
  rw [environment, hreceive]
  rfl

/-- The periodic message, 254 battery readings, and a write that is not confirmed. -/
def wrapped : List Label :=
  beginning ++ (batteries 1 1 254 ++ exchange 255 (write 0 1) 0 (responseFrame (channel_node CAN.toNat) 1))

/-- **The write takes the number of the entry, and the confirmation of the entry's next frame is
mistaken for that of the write.** -/
theorem mistaken_after_wrap :
    ∃ w g, Run.run (Run.recording caused Table.note) (opened fun _ => CAN, {})
        (wrapped.map uncaused ++ [confirming]) = some (w, g) ∧
      ¬ Run.Along (Run.recording caused Table.note) (fun x l _ => Unmistaken x.1 x.2 l)
        (opened fun _ => CAN, {}) (wrapped.map uncaused ++ [confirming]) := by
  obtain ⟨w₁, hrun₁, h₁, hseq₁, hcan₁, hrec₁, hcalls₁⟩ := beginning_run
  obtain ⟨w₂, hrun₂, h₂, hseq₂, hcan₂, hrec₂, hcalls₂⟩ := batteries_run h₁ hcalls₁ hseq₁
    (show 1 + 254 ≤ 255 by decide)
  obtain ⟨w₃, hrun₃, h₃, -, hcan₃, hrec₃, -⟩ := write_run (c := 255) 0 1 h₂
    (hcalls₂ 255 (Nat.le_refl 255)) (by rw [hseq₂])
  have hrun : Run.run step (opened fun _ => CAN) wrapped = some w₃ :=
    Run.run_append hrun₁ (Run.run_append hrun₂ hrun₃)
  obtain ⟨w₄, hrun₄⟩ := step_confirming h₃ (proper_of_run hrun)
  obtain ⟨g, hnoted⟩ := Run.exists_recording Table.note (run_uncaused hrun) {}
  have hlast : Run.recording caused Table.note (w₃, g) confirming = some (w₄, Table.note w₃ confirming w₄ g) :=
    Run.recording_eq_some_iff.mpr ⟨hrun₄, rfl⟩
  refine ⟨w₄, _, Run.run_concat hnoted hlast, fun halong => ?_⟩
  have hreceiver : w₃.session.receivers 0 =
      CanReceiver.note_transmit { protocol := CAN } (frame 1) 1 (some 0) := by
    rw [hrec₃, hrec₂, hrec₁]
    rfl
  have hnoted' := hnoted
  rw [wrapped, List.map_append] at hnoted'
  have hconfirms : Confirms w₃ g confirming 1 confirmation w₃.session 0 := by
    refine confirms_confirming h₃ (hcan₃.trans (hcan₂.trans hcan₁)) ?_ (entry_of_run hnoted')
    rw [hreceiver]
    rfl
  obtain ⟨s', hs'⟩ := hconfirms.dispatched hrun₄
  have hunmistaken := ((Run.along_concat_iff hnoted hlast).mp halong).2
  have hpaired := (hconfirms.spared_iff (kept_run hnoted) hs').mp (hunmistaken _ _ _ _ _ hconfirms hs')
  rw [hreceiver] at hpaired
  exact absurd (hpaired rfl) (by simp [paired, note_transmit, make_room, message_capacity, sequenceOf])

/-- The periodic message, and a write that is not confirmed. -/
def written : List Label :=
  beginning ++ exchange 1 (write 0 1) 0 (responseFrame (channel_node CAN.toNat) 2)

/-- The confirmation of the entry's frame is not mistaken for that of the write, which stays pending. -/
theorem unmistaken_iff_written :
    ∃ w g, Run.run (Run.recording caused Table.note) (opened fun _ => CAN, {})
        (written.map uncaused ++ [confirming]) = some (w, g) ∧
      Run.Along (Run.recording caused Table.note) (fun x l _ => Unmistaken x.1 x.2 l)
        (opened fun _ => CAN, {}) (written.map uncaused ++ [confirming]) ∧
      (w.session.receivers 0).pending_transmits.map (·.call) = [some 0] := by
  have heval : (Run.run (Run.recording caused Table.note) (opened fun _ => CAN, {}) (written.map uncaused)).bind
      (fun x => (Run.recording caused Table.note x confirming).map fun y =>
        ((x.1.session.decoder.buffer, x.1.session.can_receiver),
          Notes.kept (x.2.notes.marks 0) (x.1.session.receivers 0).pending_transmits.length,
          (y.1.session.receivers 0).pending_transmits.map (·.call))) =
      some (([], some 0), [2], [some 0]) := by
    decide +kernel
  obtain ⟨⟨w₁, g₁⟩, hnoted, heval⟩ := Option.bind_eq_some_iff.mp heval
  obtain ⟨⟨w₂, g₂⟩, hlast, heval⟩ := Option.map_eq_some_iff.mp heval
  simp only [Prod.mk.injEq] at heval
  obtain ⟨⟨hbuffer, hcan⟩, hkept, hpending⟩ := heval
  have hrun := Run.run_concat hnoted hlast
  refine ⟨w₂, g₂, hrun, (unmistaken_iff hrun).mpr ?_, hpending⟩
  rw [Run.along_concat_iff hnoted hlast]
  refine ⟨Run.along_of_mem fun l hl m t _ => apart_uncaused ?_, ?_⟩
  · obtain ⟨k, -, rfl⟩ := List.mem_map.mp hl
    rfl
  · intro n body s r hc _ m hm
    obtain ⟨bytes, before, after, decoder, hbytes, hfeed, hbefore, hentry⟩ := hc.arrives
    cases hbytes
    rw [Decoder.feed_encode hbuffer encode_confirmation] at hfeed
    obtain ⟨rfl, hsame⟩ : before = [] ∧ w₁.session.decoder = decoder := by
      obtain ⟨hbodies, hdecoder⟩ := Prod.mk.inj (Except.ok.inj hfeed)
      cases before with
      | nil => exact ⟨rfl, hdecoder⟩
      | cons b before => simp at hbodies
    obtain rfl := Except.ok.inj hbefore
    obtain rfl : 0 = r := Option.some.inj (hcan.symm.trans hc.receiver)
    obtain rfl : 1 = n := Option.some.inj (Option.some.inj hentry)
    change m ∈ Notes.kept (g₁.notes.marks 0) (w₁.session.receivers 0).pending_transmits.length at hm
    rw [hkept] at hm
    obtain rfl := List.mem_singleton.mp hm
    decide

end World

end Mongoose
