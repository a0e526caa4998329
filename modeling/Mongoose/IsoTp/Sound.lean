import Mathlib.Data.List.Induction
import Mongoose.IsoTp.Conversation

/-!
# Mongoose.IsoTp.Sound

No stitched messages: a reassembled message is exactly what one accepted first
frame and all consecutive frames since then carried.

The invariant (`History`) ties every conversation in progress to the frames fed
so far: the latest accepted first frame of its ID, what has arrived since, and
the assembly those amount to (`assembled`).  It is kept by every frame of every
type, from any ID, and by evictions, which only end conversations.
-/

namespace Mongoose

open IsoTpReassembler

/-! ## what frames amount to -/

/-- The payload of a first frame. -/
def firstPayload (f : Bytes) : Bytes := f.drop (identifier + 2)

/-- The payload of a consecutive frame. -/
def consecutivePayload (f : Bytes) : Bytes := f.drop (identifier + 1)

/-- The consecutive frames of `x`, in arrival order. -/
def consecutivesOf (x : UInt32) (frames : List Bytes) : List Bytes :=
  frames.filter fun f => frameId f = some x ∧ IsConsecutive f

/-- Everything a first frame and consecutive frames carried. -/
def collected (start : Bytes) (conts : List Bytes) : Bytes :=
  firstPayload start ++ conts.flatMap consecutivePayload

/-- The assembly a first frame and consecutive frames amount to. -/
def assembled (start : Bytes) (conts : List Bytes) : Assembly :=
  { id := source_id start
    message := with_identifier start ++ (collected start conts).take (announced start)
    expected := announced start
    sequence := (conts.length + 1) % 16 }

/-- Taking more than there is takes what there is. -/
theorem take_min_length (d : Bytes) (n : Nat) : d.take (min d.length n) = d.take n := by
  rw [List.take_eq_take_iff]; omega

theorem opened_eq_assembled (start : Bytes) : opened start = assembled start [] := by
  rw [opened, assembled, collected, List.flatMap_nil, List.append_nil, firstPayload, take_min_length]
  rfl

theorem collected_concat (start : Bytes) (conts : List Bytes) (f : Bytes) :
    collected start (conts ++ [f]) = collected start conts ++ consecutivePayload f := by
  simp [collected]

theorem received_assembled {start : Bytes} (h : AcceptedFirst start) (conts : List Bytes) :
    (assembled start conts).received = min (announced start) (collected start conts).length := by
  have := h.1
  simp only [Assembly.received, assembled, with_identifier, List.length_append, List.length_take]
  omega

/-- Growing by a frame is amounting to one more frame. -/
theorem grow_assembled {start : Bytes} (h : AcceptedFirst start) (conts : List Bytes) (f : Bytes) :
    (assembled start conts).grow f = assembled start (conts ++ [f]) := by
  have hrest : (consecutivePayload f).take
      (min (consecutivePayload f).length (announced start - (assembled start conts).received)) =
      (consecutivePayload f).take (announced start - (collected start conts).length) := by
    rw [received_assembled h, take_min_length,
      show announced start - min (announced start) (collected start conts).length =
        announced start - (collected start conts).length by omega]
  have hmessage : (assembled start conts).message ++ (consecutivePayload f).take
      (min (consecutivePayload f).length (announced start - (assembled start conts).received)) =
      (assembled start (conts ++ [f])).message := by
    rw [hrest, assembled, assembled, collected_concat, List.take_append, List.append_assoc]
  have hsequence : ((conts.length + 1) % 16 + 1) % 16 = ((conts ++ [f]).length + 1) % 16 := by
    rw [List.length_append, List.length_singleton]; omega
  unfold consecutivePayload at hmessage
  rw [Assembly.grow]
  simp only [assembled] at hmessage ⊢
  rw [hmessage, hsequence]

/-! ## the history of a conversation -/

/-- The frames fed so far contain the whole of a conversation of `x`: after
`before` came the first frame `start`, the latest accepted one of `x`; nothing of
`x` since was refused; its consecutive frames came in sequence and none but the
announced length was reached; and the conversation was there all along. -/
structure History (x : UInt32) (before : List Bytes) (start : Bytes) (after : List Bytes) :
    Prop where
  accepted : AcceptedFirst start
  id : frameId start = some x
  clean : ∀ g ∈ after, frameId g = some x → ¬ AcceptedFirst g ∧ ¬ BadSingle g ∧ ¬ RejectedFirst g
  in_sequence : ∀ i, (h : i < (consecutivesOf x after).length) →
    identifier + 2 ≤ (consecutivesOf x after)[i].length ∧
      pci (consecutivesOf x after)[i] % 16 = (i + 1) % 16
  incomplete : ∀ k, 1 ≤ k → k ≤ (consecutivesOf x after).length →
    (collected start ((consecutivesOf x after).take k)).length < announced start
  live : ∀ i ≤ after.length, (run {} (before ++ start :: after.take i)).assembling x = true

theorem run_concat (frames : List Bytes) (f : Bytes) :
    run {} (frames ++ [f]) = ((run {} frames).feed f).2 := by
  simp [run, trace, Demux.trace_append]

theorem consecutivesOf_concat {x : UInt32} {g : Bytes} (frames : List Bytes) (hid : frameId g = some x)
    (hcons : IsConsecutive g) : consecutivesOf x (frames ++ [g]) = consecutivesOf x frames ++ [g] := by
  rw [consecutivesOf, List.filter_append, List.filter_cons_of_pos (by simpa using ⟨hid, hcons⟩), List.filter_nil,
    consecutivesOf]

/-- A consecutive frame neither starts a conversation nor ends one. -/
theorem clean_of_consecutive {g : Bytes} (h : IsConsecutive g) :
    ¬ AcceptedFirst g ∧ ¬ BadSingle g ∧ ¬ RejectedFirst g := by
  have htype := h.2
  refine ⟨fun ha => ?_, fun hb => ?_, fun hr => ?_⟩
  · have := ha.2.1; omega
  · have := hb.2.1; omega
  · have := hr.2.1; omega

/-- Frames that are no part of a segmented message. -/
theorem clean_of_inert {g : Bytes}
    (h : g.length ≤ identifier ∨ GoodSingle g ∨ identifier < g.length ∧ 3 ≤ frameType g) :
    (¬ AcceptedFirst g ∧ ¬ BadSingle g ∧ ¬ RejectedFirst g) ∧ ¬ IsConsecutive g := by
  rcases h with hs | hg | ⟨-, h3⟩
  · refine ⟨⟨fun h => ?_, fun h => ?_, fun h => ?_⟩, fun h => ?_⟩ <;>
      have := h.1 <;> omega
  · have htype := hg.2.1
    refine ⟨⟨fun h => ?_, fun h => h.2.2 hg, fun h => ?_⟩, fun h => ?_⟩
    · have := h.2.1; omega
    · have := h.2.1; omega
    · have := h.2; omega
  · refine ⟨⟨fun h => ?_, fun h => ?_, fun h => ?_⟩, fun h => ?_⟩
    · have := h.2.1; omega
    · have := h.2.1; omega
    · have := h.2.1; omega
    · have := h.2; omega

namespace History

variable {x : UInt32} {before : List Bytes} {start g : Bytes} {after : List Bytes}

theorem clean_concat (h : History x before start after)
    (hclean : frameId g = some x → ¬ AcceptedFirst g ∧ ¬ BadSingle g ∧ ¬ RejectedFirst g) :
    ∀ f ∈ after ++ [g], frameId f = some x → ¬ AcceptedFirst f ∧ ¬ BadSingle f ∧ ¬ RejectedFirst f := by
  intro f hf
  rcases List.mem_append.mp hf with hf | hf
  · exact h.clean f hf
  · rw [List.mem_singleton] at hf
    subst hf
    exact hclean

theorem live_concat (h : History x before start after)
    (hlive : (run {} (before ++ start :: after ++ [g])).assembling x = true) :
    ∀ i ≤ (after ++ [g]).length, (run {} (before ++ start :: (after ++ [g]).take i)).assembling x = true := by
  intro i hi
  rw [List.length_append, List.length_singleton] at hi
  by_cases hi' : i ≤ after.length
  · rw [List.take_append_of_le_length hi']
    exact h.live i hi'
  · rw [List.take_of_length_le (by rw [List.length_append, List.length_singleton]; omega)]
    simpa using hlive

/-- The frame a conversation was waiting for comes in its place. -/
theorem in_sequence_concat (h : History x before start after) (hid : frameId g = some x)
    (hcons : IsConsecutive g) (htakes : (assembled start (consecutivesOf x after)).Takes g) :
    ∀ i, (h : i < (consecutivesOf x (after ++ [g])).length) →
      identifier + 2 ≤ (consecutivesOf x (after ++ [g]))[i].length ∧
        pci (consecutivesOf x (after ++ [g]))[i] % 16 = (i + 1) % 16 := by
  simp only [consecutivesOf_concat after hid hcons, List.length_append, List.length_singleton]
  intro i hi
  by_cases hi' : i < (consecutivesOf x after).length
  · rw [List.getElem_append_left hi']
    exact h.in_sequence i hi'
  · have hlast : i = (consecutivesOf x after).length := by omega
    subst hlast
    rw [List.getElem_concat_length rfl]
    exact htakes

/-- An accepted first frame begins a history. -/
theorem begin (hid : frameId g = some x) (hacc : AcceptedFirst g)
    (hlive : (run {} (before ++ [g])).assembling x = true) : History x before g [] := by
  refine ⟨hacc, hid, by simp, ?_, ?_, ?_⟩
  · intro i hi
    exact absurd hi (Nat.not_lt_zero i)
  · intro k hk hk'
    have : k ≤ 0 := hk'
    omega
  · intro i hi
    simpa using hlive

/-- A frame that is no consecutive frame of `x`, and that nothing of `x` refuses,
extends a history. -/
theorem skip (h : History x before start after)
    (hclean : frameId g = some x → ¬ AcceptedFirst g ∧ ¬ BadSingle g ∧ ¬ RejectedFirst g)
    (hcons : frameId g = some x → ¬ IsConsecutive g)
    (hlive : (run {} (before ++ start :: after ++ [g])).assembling x = true) :
    History x before start (after ++ [g]) ∧
      consecutivesOf x (after ++ [g]) = consecutivesOf x after := by
  have hsame : consecutivesOf x (after ++ [g]) = consecutivesOf x after := by
    rw [consecutivesOf, List.filter_append, List.filter_cons_of_neg, List.filter_nil,
      List.append_nil, consecutivesOf]
    simpa using hcons
  refine ⟨⟨h.accepted, h.id, h.clean_concat hclean, ?_, ?_, h.live_concat hlive⟩, hsame⟩
  · rw [hsame]; exact h.in_sequence
  · rw [hsame]; exact h.incomplete

/-- A consecutive frame that leaves the message incomplete extends a history. -/
theorem extend (h : History x before start after) (hid : frameId g = some x)
    (hcons : IsConsecutive g) (htakes : (assembled start (consecutivesOf x after)).Takes g)
    (hmore : ((assembled start (consecutivesOf x after)).grow g).received < announced start)
    (hlive : (run {} (before ++ start :: after ++ [g])).assembling x = true) :
    History x before start (after ++ [g]) ∧
      consecutivesOf x (after ++ [g]) = consecutivesOf x after ++ [g] := by
  have hsame := consecutivesOf_concat after hid hcons
  refine ⟨⟨h.accepted, h.id, h.clean_concat fun _ => clean_of_consecutive hcons,
    h.in_sequence_concat hid hcons htakes, ?_, h.live_concat hlive⟩, hsame⟩
  rw [hsame, List.length_append, List.length_singleton]
  intro k hk hk'
  by_cases hlt : k ≤ (consecutivesOf x after).length
  · rw [List.take_append_of_le_length hlt]
    exact h.incomplete k hk hlt
  · rw [List.take_of_length_le (by rw [List.length_append, List.length_singleton]; omega)]
    rw [grow_assembled h.accepted, received_assembled h.accepted] at hmore
    omega

end History

/-- **Every conversation in progress has its history**, whatever was fed. -/
theorem exists_history (frames : List Bytes) (x : UInt32) (a : Assembly)
    (ha : (run {} frames).find x = some a) :
    ∃ before start after, frames = before ++ start :: after ∧ History x before start after ∧
      a = assembled start (consecutivesOf x after) := by
  induction frames using List.reverseRecOn generalizing a with
  | nil => cases ha
  | append_singleton frames g ih =>
      have hv : (run {} frames).Valid := valid_run valid_empty frames
      have hlive : (run {} (frames ++ [g])).assembling x = true := by
        rw [assembling, ha]; rfl
      rw [run_concat] at ha
      -- a frame that leaves the conversation as it was and contributes nothing to it
      have hskip (hsame : (run {} frames).find x = some a)
          (hclean : frameId g = some x → ¬ AcceptedFirst g ∧ ¬ BadSingle g ∧ ¬ RejectedFirst g)
          (hcons : frameId g = some x → ¬ IsConsecutive g) :
          ∃ before start after, frames ++ [g] = before ++ start :: after ∧
            History x before start after ∧ a = assembled start (consecutivesOf x after) := by
        obtain ⟨before, start, after, rfl, hh, rfl⟩ := ih a hsame
        obtain ⟨hh', he⟩ := hh.skip hclean hcons hlive
        exact ⟨before, start, after ++ [g], by simp, hh', by rw [he]⟩
      by_cases hid : frameId g = some x
      · have hown := (feed_own hv g).2
        rw [hid] at hown
        change ((run {} frames).feed g).2.find x = (converse ((run {} frames).find x) g).2 at hown
        rw [ha] at hown
        have hinert (hsame : (converse ((run {} frames).find x) g).2 = (run {} frames).find x)
            (h : g.length ≤ identifier ∨ GoodSingle g ∨ identifier < g.length ∧ 3 ≤ frameType g) :=
          hskip (hown.trans hsame).symm (fun _ => (clean_of_inert h).1) fun _ => (clean_of_inert h).2
        rcases feed_cases (run {} frames) g with ⟨hs, -⟩ | ⟨hg, -⟩ | ⟨hb, -⟩ | ⟨hacc, -⟩ | ⟨hr, -⟩ |
            ⟨hc, -⟩ | ⟨hl, h3, -⟩
        · exact hinert (by rw [converse_of_short _ hs]) (.inl hs)
        · exact hinert (by rw [converse_of_good _ hg]) (.inr (.inl hg))
        · rw [converse_of_bad _ hb] at hown
          cases hown
        · rw [converse_of_accepted _ hacc] at hown
          exact ⟨frames, g, [], rfl, History.begin hid hacc hlive,
            (Option.some.inj hown).trans (opened_eq_assembled g)⟩
        · rw [converse_of_rejected _ hr] at hown
          cases hown
        · cases hf : (run {} frames).find x with
          | none =>
              rw [hf, converse_none_of_consecutive hc] at hown
              cases hown
          | some b =>
              obtain ⟨before, start, after, rfl, hh, rfl⟩ := ih b hf
              rw [hf, converse_some_of_consecutive _ hc, continued] at hown
              split at hown
              · cases hown
              · rename_i htakes
                split at hown
                · rename_i hmore
                  obtain ⟨hh', he⟩ := hh.extend hid hc (not_not.mp htakes) hmore hlive
                  refine ⟨before, start, after ++ [g], by simp, hh', ?_⟩
                  rw [he, ← grow_assembled hh.accepted]
                  exact Option.some.inj hown
                · cases hown
        · exact hinert (by rw [converse_of_other _ hl h3]) (.inr (.inr ⟨hl, h3⟩))
      · rcases find_feed_of_ne hv hid with hsame | ⟨-, -, hnone⟩
        · exact hskip (hsame.symm.trans ha) (fun h => absurd h hid) (fun h => absurd h hid)
        · rw [hnone] at ha
          cases ha

/-! ## soundness -/

/-- Frames that are no part of a segmented message change nothing: well-formed
single frames, flow control and unknown types. -/
theorem feed_inert (r : IsoTpReassembler) {g : Bytes}
    (h : GoodSingle g ∨ identifier < g.length ∧ 3 ≤ frameType g) : (r.feed g).2 = r := by
  obtain ⟨⟨hacc, hbad, hrej⟩, hcons⟩ := clean_of_inert (.inr h)
  rcases feed_cases r g with ⟨-, he⟩ | ⟨-, he⟩ | ⟨hb, -⟩ | ⟨ha, -⟩ | ⟨hr, -⟩ | ⟨hc, -⟩ | ⟨-, -, he⟩
  · rw [he]
  · rw [he]
  · exact absurd hb hbad
  · exact absurd ha hacc
  · exact absurd hr hrej
  · exact absurd hc hcons
  · rw [he]

/-- **No stitched messages.**  Whatever was fed before, a message that a
consecutive frame of `x` completes is the ID followed by the announced length of
what the latest accepted first frame of `x` and *all* consecutive frames of `x`
since then carried.  Those came in sequence and none was short; no frame of `x`
between them was refused; the conversation was live throughout; the message
comes at the first consecutive frame at which all its bytes are there, and
leaves no conversation.  Inert frames change nothing. -/
theorem no_stitched_messages (frames : List Bytes) (f : Bytes) (x : UInt32) (o : Output)
    (hid : frameId f = some x) (hcons : IsConsecutive f)
    (ho : o ∈ ((run {} frames).feed f).1) :
    (∃ before start after, frames = before ++ start :: after ∧
      AcceptedFirst start ∧ frameId start = some x ∧
      8 ≤ announced start ∧ announced start ≤ 4095 ∧
      o.rx_status = 0 ∧
      o.data = idBytes x ++
        (collected start (consecutivesOf x (after ++ [f]))).take (announced start) ∧
      (∀ i, (h : i < (consecutivesOf x (after ++ [f])).length) →
        6 ≤ (consecutivesOf x (after ++ [f]))[i].length ∧
          pci (consecutivesOf x (after ++ [f]))[i] % 16 = (i + 1) % 16) ∧
      (∀ g ∈ after, frameId g = some x →
        ¬ AcceptedFirst g ∧ ¬ BadSingle g ∧ ¬ RejectedFirst g) ∧
      (∀ i ≤ after.length, (run {} (before ++ start :: after.take i)).assembling x = true) ∧
      announced start ≤ (collected start (consecutivesOf x (after ++ [f]))).length ∧
      (∀ k, 1 ≤ k → k < (consecutivesOf x (after ++ [f])).length →
        (collected start ((consecutivesOf x (after ++ [f])).take k)).length < announced start)) ∧
    ((run {} frames).feed f).2.assembling x = false ∧
    ∀ (r : IsoTpReassembler) (g : Bytes),
      GoodSingle g ∨ identifier < g.length ∧ 3 ≤ frameType g → (r.feed g).2 = r := by
  have hv : (run {} frames).Valid := valid_run valid_empty frames
  obtain ⟨hout, hnext⟩ := feed_own hv f
  rw [hid] at hout hnext
  change ((run {} frames).feed f).1 = (converse ((run {} frames).find x) f).1 at hout
  change ((run {} frames).feed f).2.find x = (converse ((run {} frames).find x) f).2 at hnext
  rw [hout] at ho
  cases hf : (run {} frames).find x with
  | none =>
      rw [hf, converse_none_of_consecutive hcons] at ho
      cases ho
  | some a =>
      obtain ⟨before, start, after, hsplit, hh, rfl⟩ := exists_history frames x a hf
      rw [hf, converse_some_of_consecutive _ hcons, continued] at ho hnext
      split at ho
      · cases ho
      · rename_i htakes
        rw [if_neg htakes] at hnext
        split at ho
        · cases ho
        · rename_i hdone
          rw [if_neg hdone] at hnext
          rw [List.mem_singleton] at ho
          subst ho
          have hall := consecutivesOf_concat after hid hcons
          have hstart : with_identifier start = idBytes x := frameId_eq_some.mp hh.id
          refine ⟨⟨before, start, after, hsplit, hh.accepted, hh.id, hh.accepted.2.2.1,
            hh.accepted.2.2.2, rfl, ?_, hh.in_sequence_concat hid hcons (not_not.mp htakes), hh.clean, hh.live,
            ?_, ?_⟩, ?_, fun r g => feed_inert r⟩
          · rw [hall, grow_assembled hh.accepted, assembled, hstart]
          · rw [hall]
            rw [grow_assembled hh.accepted, received_assembled hh.accepted] at hdone
            change ¬ _ < announced start at hdone
            omega
          · rw [hall, List.length_append, List.length_singleton]
            intro k hk hk'
            rw [List.take_append_of_le_length (by omega)]
            exact hh.incomplete k hk (by omega)
          · rw [assembling, hnext]
            rfl

/-- A message completed across a single frame and a flow-control frame of its ID. -/
theorem no_stitched_messages_across :
    ((run {} [[0, 0, 7, 0xe8, 0x10, 8, 1, 2, 3, 4, 5, 6], [0, 0, 7, 0xe8, 0x01, 9],
      [0, 0, 7, 0xe8, 0x30, 0, 0]]).feed [0, 0, 7, 0xe8, 0x21, 7, 8]).2.assembling 0x7e8 = false :=
  (no_stitched_messages _ _ 0x7e8 { data := [0, 0, 7, 0xe8, 1, 2, 3, 4, 5, 6, 7, 8] }
    (by decide) (by decide) (by decide)).2.1

end Mongoose
