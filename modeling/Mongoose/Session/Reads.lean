import Mongoose.IsoTp.RoundTrip
import Mongoose.Session.Alone

/-!
# Mongoose.Session.Reads

What the readers of an ISO15765 channel get of the bus.

The frames of several ECUs come in bodies among others, and are reassembled, queued and
handed out in between.  While nobody flushes or stops the receiver its queue accepts what
the reassembler makes of the frames, each output with the timestamp of its frame, so the
round trip of the reassembler is one of the whole session.
-/

namespace Mongoose

open CanReceiver Fifo

/-! ## frames in bodies -/

/-- The timestamp and the frame of a data body. -/
def CanReceiver.Inbound.frame : Inbound → Option (UInt32 × Bytes)
  | .data _ timestamp frame => some (timestamp, frame)
  | _ => none

/-- The frames that bodies bring a channel. -/
def framesIn (node : Nat) (bodies : List Bytes) : List (UInt32 × Bytes) :=
  bodies.filterMap fun body => (inbound node body).frame

/-- A body that brings the channel a frame, or nothing. -/
def Plain (node : Nat) (body : Bytes) : Prop :=
  inbound node body = .other ∨ ∃ status timestamp frame, inbound node body = .data status timestamp frame

namespace IsoTpReassembler

/-- The messages that a reader gets of some frames. -/
def arriving (q : IsoTpReassembler) : List (UInt32 × Bytes) → List PASSTHRU_MSG
  | [] => []
  | (timestamp, frame) :: fs =>
      (q.feed frame).1.map (fun o => (Message.ofOutput timestamp o).toMsg) ++ arriving (q.feed frame).2 fs

variable {q : IsoTpReassembler} {fs gs : List (UInt32 × Bytes)}

theorem arriving_append :
    q.arriving (fs ++ gs) = q.arriving fs ++ (q.run (fs.map Prod.snd)).arriving gs := by
  induction fs generalizing q with
  | nil => rfl
  | cons f fs ih => simp [arriving, ih, run, trace]

theorem run_append_one (q : IsoTpReassembler) (fs : List Bytes) (f : Bytes) :
    q.run (fs ++ [f]) = ((q.run fs).feed f).2 := by
  simp [run, trace, Demux.trace_append]

/-- A message is an output with a timestamp. -/
def Stamped (o : Output) (m : PASSTHRU_MSG) : Prop :=
  4 ≤ o.data.length ∧ ∃ timestamp, m = (Message.ofOutput timestamp o).toMsg

theorem forall_arriving (q : IsoTpReassembler) (fs : List (UInt32 × Bytes))
    (h : ∀ o ∈ (q.trace (fs.map Prod.snd)).1.flatMap Prod.snd, 4 ≤ o.data.length) :
    List.Forall₂ Stamped ((q.trace (fs.map Prod.snd)).1.flatMap Prod.snd) (q.arriving fs) := by
  induction fs generalizing q with
  | nil => exact .nil
  | cons f fs ih =>
      obtain ⟨timestamp, frame⟩ := f
      simp only [List.map_cons, trace, Demux.trace_cons, List.flatMap_cons, List.mem_append] at h
      rw [arriving]
      refine List.rel_append ?_ (ih _ fun o ho => h o (.inr ho))
      rw [List.forall₂_map_right_iff]
      exact List.forall₂_same.mpr fun o ho => ⟨h o (.inl ho), timestamp, rfl⟩

end IsoTpReassembler

/-! ## one receiver -/

/-- A reader takes what is queued, and leaves the conversations alone. -/
theorem Reader.reassembler_step {rd rd' : Reader} {r r' : CanReceiver} {a : ReadAction}
    (h : rd.step r a = some (rd', r')) : r'.reassembler = r.reassembler := by
  have hreport (r : CanReceiver) : r.report.2.reassembler = r.reassembler := by
    unfold CanReceiver.report
    split_ifs <;> rfl
  have hpass : (rd.pass r).2.reassembler = r.reassembler := by
    unfold Reader.pass Reader.finish
    split_ifs
    · rfl
    · dsimp only
      split_ifs
      · exact hreport _
      · rfl
    · exact hreport r
  cases a with
  | lock | wake =>
      simp only [Reader.step, Option.ite_none_right_eq_some, Option.some.injEq] at h
      rwa [h.2] at hpass
  | expire now =>
      simp only [Reader.step, Reader.finish, Option.ite_none_right_eq_some, Option.some.injEq, Prod.mk.injEq] at h
      rw [← h.2.2]
      exact hreport r

namespace Reception

variable {protocol : UInt32} {ks : List Label} {t : Reception} {h : Traffic} {bodies : List Bytes}

/-- A receiver has made of the bodies it saw what the reassembler makes of their frames. -/
structure Heard (protocol : UInt32) (bodies : List Bytes) (t : Reception) (h : Traffic) : Prop where
  reassembler : t.receiver.reassembler =
    IsoTpReassembler.run {} ((framesIn (channel_node protocol.toNat) bodies).map Prod.snd)
  accepted : h.ledger.accepted = IsoTpReassembler.arriving {} (framesIn (channel_node protocol.toNat) bodies)
  handed : ∀ g ∈ h.ledger.gone, g.1 ≠ none

/-- A step that is no body, no flush and no stop. -/
theorem Heard.quiet {t' : Reception} {h' : Traffic} (hh : Heard protocol bodies t h)
    (hr : t'.receiver.reassembler = t.receiver.reassembler) (ha : h'.ledger.accepted = h.ledger.accepted)
    (hg : ∀ g ∈ h'.ledger.gone, g ∈ h.ledger.gone ∨ g.1 ≠ none) : Heard protocol bodies t' h' :=
  ⟨hr.trans hh.reassembler, ha.trans hh.accepted, fun g hmem => (hg g hmem).elim (hh.handed g) id⟩

/-- A body brings a frame for which there is room, or nothing. -/
theorem Heard.receive {body : Bytes} (hh : Heard protocol bodies t h) (hs : Accounted t h)
    (hchannel : t.receiver.protocol = protocol) (hiso : protocol = ISO15765) (hstopped : t.receiver.stopped = 0)
    (hplain : Plain (channel_node protocol.toNat) body)
    (hroom : (IsoTpReassembler.arriving {} (framesIn (channel_node protocol.toNat) (bodies ++ [body]))).length ≤
      message_capacity) :
    Heard protocol (bodies ++ [body]) { t with receiver := t.receiver.handle (t.receiver.classify body) }
      { ledger := h.ledger.accept (t.receiver.admits body), events := h.events ++ t.receiver.events body } := by
  have hclassify : t.receiver.classify body = inbound (channel_node protocol.toNat) body := by
    rw [CanReceiver.classify, if_neg (not_not_intro hstopped), hchannel]
  have hsplit : framesIn (channel_node protocol.toNat) (bodies ++ [body]) =
      framesIn (channel_node protocol.toNat) bodies ++ (inbound (channel_node protocol.toNat) body).frame.toList := by
    rw [framesIn, List.filterMap_append, framesIn]
    cases hf : (inbound (channel_node protocol.toNat) body).frame <;> simp [hf]
  obtain hother | ⟨status, timestamp, frame, hdata⟩ := hplain
  · have hnone : (inbound (channel_node protocol.toNat) body).frame = none := by rw [hother]; rfl
    have hadmits : t.receiver.admits body = [] := by
      rw [CanReceiver.admits, hclassify, hother]
      exact List.take_nil
    rw [hnone, Option.toList_none, List.append_nil] at hsplit
    refine ⟨?_, ?_, hh.handed⟩
    · rw [hsplit, hclassify, hother]
      exact hh.reassembler
    · rw [hsplit, hadmits]
      exact (List.append_nil _).trans hh.accepted
  · have hsome : (inbound (channel_node protocol.toNat) body).frame = some (timestamp, frame) := by rw [hdata]; rfl
    rw [hsome, Option.toList_some] at hsplit
    have hnew : IsoTpReassembler.arriving {} (framesIn (channel_node protocol.toNat) (bodies ++ [body])) =
        h.ledger.accepted ++ t.receiver.offers (.data status timestamp frame) := by
      rw [hsplit, IsoTpReassembler.arriving_append, ← hh.accepted, ← hh.reassembler, CanReceiver.offers,
        if_pos (hchannel.trans hiso)]
      simp [IsoTpReassembler.arriving]
    have hlimit : t.receiver.limit = message_capacity := if_pos (hchannel.trans hiso)
    have hadmits : t.receiver.admits body = t.receiver.offers (.data status timestamp frame) := by
      rw [CanReceiver.admits, hclassify, hdata, hlimit]
      refine List.take_of_length_le ?_
      have hbalanced := congrArg List.length hs.balanced
      rw [hnew] at hroom
      simp only [List.length_append, List.length_map] at hbalanced hroom
      omega
    refine ⟨?_, ?_, hh.handed⟩
    · rw [hsplit, List.map_append, List.map_singleton, IsoTpReassembler.run_append_one, ← hh.reassembler, hclassify,
        hdata, CanReceiver.handle, if_pos (hchannel.trans hiso)]
      rfl
    · rw [hnew, hadmits]
      rfl

/-- A receiver that is not stopped was not stopped before, and only a stop or a body concerns it otherwise. -/
theorem heard_step {l : Label} {t' : Reception} (hs : Accounted t h) (ht : t.step l = some t')
    (hstopped : t'.receiver.stopped = 0) :
    t.receiver.stopped = 0 ∧ ((∃ body, l = .receive body) ∨ l = .flush_receive ∨
      l.sight = none ∧ t'.receiver.reassembler = t.receiver.reassembler ∧
        (Traffic.note t l t' h).ledger.accepted = h.ledger.accepted ∧
        ∀ g ∈ (Traffic.note t l t' h).ledger.gone, g ∈ h.ledger.gone ∨ g.1 ≠ none) := by
  cases l with
  | receive body =>
      rw [step, CanReceiver.receive_classify hs.bounded] at ht
      cases ht
      exact ⟨(received_handle hs.bounded _).stopped.symm.trans hstopped, .inl ⟨body, rfl⟩⟩
  | flush_receive =>
      cases ht
      exact ⟨hstopped, .inr (.inl rfl)⟩
  | stop code reason =>
      obtain ⟨hcode, ht⟩ := Option.ite_none_right_eq_some.mp ht
      cases ht
      refine absurd hstopped (stopped_stop _ reason ?_)
      obtain rfl | rfl := hcode <;> decide
  | note_transmit message sequence call =>
      cases ht
      simp only [CanReceiver.note_transmit, CanReceiver.make_room] at hstopped ⊢
      split at hstopped <;> exact ⟨hstopped, .inr (.inr ⟨rfl, by split <;> rfl, rfl, fun g => .inl⟩)⟩
  | forget_transmit | forget_transmits | set_loopback =>
      cases ht
      exact ⟨hstopped, .inr (.inr ⟨rfl, rfl, rfl, fun g => .inl⟩)⟩
  | read =>
      obtain ⟨-, ht⟩ := Option.ite_none_right_eq_some.mp ht
      cases ht
      exact ⟨hstopped, .inr (.inr ⟨rfl, rfl, rfl, fun g => .inl⟩)⟩
  | act i a =>
      obtain ⟨rd, hi, ht⟩ := Option.bind_eq_some_iff.mp ht
      obtain ⟨⟨rd', r'⟩, hx, ht⟩ := Option.map_eq_some_iff.mp ht
      cases ht
      have hsame := (Reader.passed_step hs.bounded hx).stopped
      refine ⟨hsame.symm.trans hstopped, .inr (.inr ⟨rfl, Reader.reassembler_step hx, ?_, ?_⟩)⟩
      · simp [Traffic.note, hi, Traffic.read, Ledger.leave]
      · intro g hg
        simp only [Traffic.note, hi, Function.update_self, Traffic.read, Ledger.leave, List.mem_append,
          List.mem_map] at hg
        obtain hg | ⟨m, -, rfl⟩ := hg
        · exact .inl hg
        · exact .inr (by simp)

/-- **Nothing that comes of the frames is lost**, while nobody flushes or stops the receiver. -/
theorem heard_run (hiso : protocol = ISO15765)
    (hrun : Run.run (Run.recording step Traffic.note) (fresh protocol, {}) ks = some (t, h))
    (hks : ks.filterMap Label.sight = bodies.map Sight.body)
    (hplain : ∀ body ∈ bodies, Plain (channel_node protocol.toNat) body)
    (hroom : (IsoTpReassembler.arriving {} (framesIn (channel_node protocol.toNat) bodies)).length ≤
      message_capacity) (hstopped : t.receiver.stopped = 0) : Heard protocol bodies t h := by
  refine (Run.run_induction (P := fun ks (x : Reception × Traffic) =>
    (Accounted x.1 x.2 ∧ x.1.receiver.protocol = protocol) ∧ ∀ bodies, ks.filterMap Label.sight = bodies.map Sight.body →
      (∀ body ∈ bodies, Plain (channel_node protocol.toNat) body) →
      (IsoTpReassembler.arriving {} (framesIn (channel_node protocol.toNat) bodies)).length ≤
        message_capacity → x.1.receiver.stopped = 0 → Heard protocol bodies x.1 x.2) ?_ ?_ hrun).2
    bodies hks hplain hroom hstopped
  · refine ⟨⟨.fresh protocol, rfl⟩, fun bodies hks _ _ _ => ?_⟩
    obtain rfl := List.map_eq_nil_iff.mp hks.symm
    exact ⟨rfl, rfl, nofun⟩
  · rintro ks ⟨t, h⟩ l ⟨t', h'⟩ - ⟨⟨hs, hchannel⟩, ih⟩ hstep
    obtain ⟨ht, rfl⟩ := Run.recording_eq_some_iff.mp hstep
    refine ⟨⟨hs.step ht, (Echoed.protocol_step (j := { traffic := h }) hs ht).trans hchannel⟩, ?_⟩
    intro bodies hks hplain hroom hstopped
    rw [List.filterMap_append] at hks
    obtain ⟨hbefore, ⟨body, rfl⟩ | rfl | ⟨hnone, hr, ha, hg⟩⟩ := heard_step hs ht hstopped
    · obtain rfl | ⟨bodies, last, rfl⟩ := List.eq_nil_or_concat' bodies
      · simp [Label.sight] at hks
      · obtain ⟨hsights, rfl⟩ : ks.filterMap Label.sight = bodies.map Sight.body ∧ body = last := by
          simpa [Label.sight] using hks
        have hless : (IsoTpReassembler.arriving {} (framesIn (channel_node protocol.toNat) bodies)).length ≤
            message_capacity := by
          rw [framesIn, List.filterMap_append, IsoTpReassembler.arriving_append, List.length_append] at hroom
          exact Nat.le_trans (Nat.le_add_right ..) hroom
        have hh := ih bodies hsights (fun b hb => hplain b (List.mem_append_left _ hb)) hless hbefore
        rw [step, CanReceiver.receive_classify hs.bounded] at ht
        cases ht
        exact hh.receive hs hchannel hiso hbefore (hplain body (by simp)) hroom
    · have hmem : Sight.flushed ∈ bodies.map Sight.body := hks ▸ List.mem_append_right _ (by simp [Label.sight])
      simp at hmem
    · rw [List.filterMap_cons_none hnone, List.filterMap_nil, List.append_nil] at hks
      exact (ih bodies hks hplain hroom hbefore).quiet hr ha hg

end Reception

/-! ## several ECUs -/

/-- The ID in front of a message. -/
def PASSTHRU_MSG.hasId (x : UInt32) (m : PASSTHRU_MSG) : Prop := m.Data.take 4 = idBytes x

instance (x : UInt32) (m : PASSTHRU_MSG) : Decidable (m.hasId x) := inferInstanceAs (Decidable (_ = _))

theorem hasId_toMsg {x timestamp : UInt32} {o : IsoTpReassembler.Output} (h : 4 ≤ o.data.length) :
    (Message.ofOutput timestamp o).toMsg.hasId x ↔ o.data.take 4 = idBytes x := by
  have hdata : (Message.ofOutput timestamp o).toMsg.Data.take 4 = o.data.take 4 := by
    show (dataField o.data).take 4 = _
    have hcap : 4 ≤ dataCapacity := by decide
    rw [dataField, padData, List.take_append_of_le_length (by rw [List.length_take]; omega), List.take_take,
      Nat.min_eq_left hcap]
  rw [PASSTHRU_MSG.hasId, hdata]

theorem idBytes_inj {x y : UInt32} (h : idBytes x = idBytes y) : x = y := by
  rw [← source_id_idBytes x [], ← source_id_idBytes y [], h]

section interleaved

variable {ids : Finset UInt32} {payload : UInt32 → Bytes} {mixed : List Bytes}

/-- The frames of several ECUs: each segments its payload, and they come in any order that keeps each one's. -/
structure Interleaved (ids : Finset UInt32) (payload : UInt32 → Bytes) (mixed : List Bytes) : Prop where
  card : ids.card ≤ 32
  length : ∀ x ∈ ids, 8 ≤ (payload x).length ∧ (payload x).length ≤ 4095
  member : ∀ f ∈ mixed, ∃ x ∈ ids, frameId f = some x
  segmented : ∀ x ∈ ids, Segmentation x (payload x) (mixed.filter fun f => frameId f = some x)

namespace Interleaved

open IsoTpReassembler

variable (h : Interleaved ids payload mixed)
include h

/-- What comes out for each ECU. -/
theorem trace_of {x : UInt32} (hx : x ∈ ids) :
    ∃ (head : Bytes) (middle : List Bytes) (last : Bytes),
      (trace {} mixed).1.filter (fun p => frameId p.1 = some x) =
      (head, [{ rx_status := START_OF_MESSAGE, data := idBytes x }]) ::
        middle.map (·, []) ++ [(last, [{ data := idBytes x ++ payload x }])] := by
  obtain ⟨head, middle, last, -, htrace⟩ :=
    trace_segmentation (h.length x hx).1 (h.length x hx).2 (h.segmented x hx)
  have hproj := (Demux.filter_trace (allRouted_of_card_le h.card h.member) (some x)).1
  exact ⟨head, middle, last, hproj.trans (congrArg Prod.fst htrace)⟩

theorem outputs_of {x : UInt32} (hx : x ∈ ids) :
    ((trace {} mixed).1.filter fun p => frameId p.1 = some x).flatMap Prod.snd =
      [{ rx_status := START_OF_MESSAGE, data := idBytes x }, { data := idBytes x ++ payload x }] := by
  obtain ⟨head, middle, last, hx⟩ := h.trace_of hx
  rw [hx]
  have hmiddle : (middle.map fun f => (f, ([] : List Output))).flatMap Prod.snd = [] := by
    induction middle <;> simp_all
  simp [hmiddle]

/-- An output is for the ECU whose frame brought it. -/
theorem own {p : Bytes × List Output} (hp : p ∈ (trace {} mixed).1) {o : Output} (ho : o ∈ p.2) :
    4 ≤ o.data.length ∧ ∀ x, o.data.take 4 = idBytes x ↔ frameId p.1 = some x := by
  have hmixed : p.1 ∈ mixed := by
    have hmap := List.mem_map_of_mem (f := Prod.fst) hp
    rwa [trace, Demux.map_fst_trace] at hmap
  obtain ⟨y, hy, hid⟩ := h.member p.1 hmixed
  have hmem : o ∈ ((trace {} mixed).1.filter fun p => frameId p.1 = some y).flatMap Prod.snd :=
    List.mem_flatMap.mpr ⟨p, List.mem_filter.mpr ⟨hp, by simpa using hid⟩, ho⟩
  have hdata : 4 ≤ o.data.length ∧ o.data.take 4 = idBytes y := by
    rw [h.outputs_of hy, List.mem_pair] at hmem
    obtain rfl | rfl := hmem
    · exact ⟨Nat.le_refl 4, rfl⟩
    · exact ⟨by simp, List.take_left' (length_idBytes y)⟩
  refine ⟨hdata.1, fun x => ?_⟩
  rw [hdata.2, hid]
  exact ⟨fun hxy => congrArg some (idBytes_inj hxy), fun hxy => congrArg idBytes (Option.some.inj hxy)⟩

/-- Two messages for each ECU, and no others. -/
theorem length_outputs : ((trace {} mixed).1.flatMap Prod.snd).length = 2 * ids.card := by
  rw [Demux.length_flatMap_keys frameId ids]
  · rw [Finset.sum_congr rfl fun x hx => congrArg List.length (h.outputs_of hx)]
    simp [Nat.mul_comm]
  · intro p hp
    refine h.member p.1 ?_
    have hmap := List.mem_map_of_mem (f := Prod.fst) hp
    rwa [trace, Demux.map_fst_trace] at hmap

end Interleaved

end interleaved

/-! ## the readers -/

namespace Station

variable {protocol : ReceiverRef → UInt32} {ls : List Label} {s : Station} {r : ReceiverRef} {bodies : List Bytes}
  {ids : Finset UInt32} {payload : UInt32 → Bytes}

/-- **From the bus to the readers.**  Up to 32 ECUs send a payload each, their frames mixed in any order and among
bodies that are not the channel's.  Whoever reads the channel, and whatever else the session does meanwhile short
of flushing or stopping it, what its readers got in order and what is still queued holds for each ECU exactly
the indication that its message starts and then the message, and nothing of anybody else. -/
theorem bus_to_readers (hl : ∀ l ∈ ls, l.Direct) (hiso : protocol r = ISO15765)
    (hplain : ∀ body ∈ bodies, Plain (channel_node (protocol r).toNat) body)
    (hmixed : Interleaved ids payload ((framesIn (channel_node (protocol r).toNat) bodies).map Prod.snd))
    (h : Run.run (watching r) (opened protocol, []) ls = some (s, bodies.map Sight.body))
    (hopen : (s.receivers r).stopped = 0) :
    ∃ gone : List (Option ReaderId × PASSTHRU_MSG),
      (∀ g ∈ gone, g.1 ≠ none) ∧
      (∀ i rd, s.readers i = some (r, rd) →
        rd.messages = gone.filterMap fun g => if g.1 = some i then some g.2 else none) ∧
      (gone.map Prod.snd ++ (s.receivers r).backlog).length = 2 * ids.card ∧
      ∀ x ∈ ids, ∃ t t', (gone.map Prod.snd ++ (s.receivers r).backlog).filter (fun m => m.hasId x) =
        [(Message.ofOutput t { rx_status := START_OF_MESSAGE, data := idBytes x }).toMsg,
          (Message.ofOutput t' { data := idBytes x ++ payload x }).toMsg] := by
  obtain ⟨ks, hrun, hsights⟩ := reception_run hl h
  obtain ⟨traffic, htraffic⟩ := Run.exists_recording Traffic.note hrun {}
  have hs := Accounted.run htraffic
  have hstamped : List.Forall₂ IsoTpReassembler.Stamped _ _ :=
    IsoTpReassembler.forall_arriving {} (framesIn (channel_node (protocol r).toNat) bodies) fun o ho => by
      obtain ⟨p, hp, ho⟩ := List.mem_flatMap.mp ho
      exact (hmixed.own hp ho).1
  have hlength := hstamped.length_eq.symm.trans hmixed.length_outputs
  have hroom : (IsoTpReassembler.arriving {} (framesIn (channel_node (protocol r).toNat) bodies)).length ≤
      message_capacity := by
    have hcard := hmixed.card
    have hcap : 64 ≤ message_capacity := by decide
    omega
  have hh := Reception.heard_run hiso htraffic hsights hplain hroom hopen
  have hall : traffic.ledger.gone.map Prod.snd ++ (s.receivers r).backlog =
      IsoTpReassembler.arriving {} (framesIn (channel_node (protocol r).toNat) bodies) := by
    rw [← hh.accepted]
    exact hs.balanced.symm
  refine ⟨traffic.ledger.gone, hh.handed, fun i rd hi => ?_, hall ▸ hlength, fun x hx => ?_⟩
  · have hview : (s.reception r).readers i = some rd := by simp [reception, hi]
    have hhanded := hs.handed i
    rw [hview] at hhanded
    exact hhanded.symm
  · have hpicked := List.rel_filter (p := fun o : IsoTpReassembler.Output => o.data.take 4 = idBytes x)
      (q := fun m : PASSTHRU_MSG => m.hasId x) (fun o m hm => by
        obtain ⟨hlong, t, rfl⟩ := hm
        simp [hasId_toMsg hlong]) hstamped
    rw [Demux.filter_flatMap_own frameId x fun p hp o ho => (hmixed.own hp ho).2 x,
      hmixed.outputs_of hx] at hpicked
    rw [hall]
    generalize List.filter _ (IsoTpReassembler.arriving _ _) = ms at hpicked ⊢
    obtain _ | ⟨⟨-, t, rfl⟩, _ | ⟨⟨-, t', rfl⟩, ⟨⟩⟩⟩ := hpicked
    exact ⟨t, t', rfl⟩

/-- A frame of the channel's ECUs, in its indication. -/
def heard (x : UInt8) (data : Bytes) : Bytes :=
  [0, 0, 1, 6, 9, 0] ++ List.replicate 16 0 ++ bytes16 (4 + data.length) ++ [0, 0, 7, x] ++ data

/-- The payloads of two ECUs. -/
def heardPayload (x : UInt32) : Bytes :=
  if x = 0x7e8 then [1, 2, 3, 4, 5, 6, 7, 8] else [11, 12, 13, 14, 15, 16, 17, 18, 19]

/-- Two payloads in two frames each, which overlap, and a response between them. -/
def heardBodies : List Bytes :=
  [heard 0xe8 [0x10, 8, 1, 2, 3, 4, 5, 6],
    [0, 0, 1, 0, 3, 0x80, 1] ++ List.replicate 13 0,
    heard 0xe9 [0x10, 9, 11, 12, 13, 14, 15, 16],
    heard 0xe8 [0x21, 7, 8],
    heard 0xe9 [0x21, 17, 18, 19]]

/-- They are framed one after the other. -/
def heardStream : Bytes :=
  heardBodies.flatMap fun body => header body.length ++ body

/-- A channel is opened, and its reader waits for four messages while the stream comes in chunks. -/
def heardLabels : List Label :=
  [.world (.set_can_receiver (some 0)), .read 0 0 4 100 0, .act 0 .lock, .world (.receive (heardStream.take 39)),
    .world (.receive ((heardStream.drop 39).take 30)), .act 0 .wake, .world (.receive (heardStream.drop 69)), .act 0 .wake]

theorem plain_heardBodies : ∀ body ∈ heardBodies, Plain (channel_node ISO15765.toNat) body := by
  have hcases : ∀ body ∈ heardBodies, inbound (channel_node ISO15765.toNat) body = .other ∨
      inbound (channel_node ISO15765.toNat) body = .data 0 0 (body.drop 24) := by
    decide +kernel
  exact fun body hbody => (hcases body hbody).imp_right fun h => ⟨_, _, _, h⟩

theorem interleaved_heardBodies : Interleaved {0x7e8, 0x7e9} heardPayload
    ((framesIn (channel_node ISO15765.toNat) heardBodies).map Prod.snd) := by
  have hframes : (framesIn (channel_node ISO15765.toNat) heardBodies).map Prod.snd =
      [[0, 0, 7, 0xe8, 0x10, 8, 1, 2, 3, 4, 5, 6], [0, 0, 7, 0xe9, 0x10, 9, 11, 12, 13, 14, 15, 16],
        [0, 0, 7, 0xe8, 0x21, 7, 8], [0, 0, 7, 0xe9, 0x21, 17, 18, 19]] := by
    decide +kernel
  rw [hframes]
  refine ⟨by decide, fun x hx => ?_, by decide, fun x hx => ?_⟩
  · obtain rfl | rfl : x = 0x7e8 ∨ x = 0x7e9 := by simpa using hx
    all_goals decide
  · obtain rfl | rfl : x = 0x7e8 ∨ x = 0x7e9 := by simpa using hx
    · exact ⟨[], [7, 8], [], by decide, by decide, by decide⟩
    · exact ⟨[], [17, 18, 19], [], by decide, by decide, by decide⟩

/-- Both messages of both ECUs were handed to the reader. -/
theorem bus_to_readers_heard :
    ∃ s rd, ∃ gone : List (Option ReaderId × PASSTHRU_MSG), Run.run (watching 0) (opened fun _ => ISO15765, []) heardLabels =
        some (s, heardBodies.map Sight.body) ∧
      s.readers 0 = some (0, rd) ∧ rd.messages.length = 4 ∧
      rd.messages = (gone.filterMap fun g => if g.1 = some 0 then some g.2 else none) ∧
      ∀ x ∈ ({0x7e8, 0x7e9} : Finset UInt32), ∃ t t', (gone.map Prod.snd).filter (fun m => m.hasId x) =
        [(Message.ofOutput t { rx_status := START_OF_MESSAGE, data := idBytes x }).toMsg,
          (Message.ofOutput t' { data := idBytes x ++ heardPayload x }).toMsg] := by
  have hdone : (Run.run (watching 0) (opened fun _ => ISO15765, []) heardLabels).map
      (fun x => (x.2, (x.1.receivers 0).stopped, (x.1.receivers 0).backlog.length,
        (x.1.readers 0).map fun rd => (rd.1, rd.2.messages.length))) =
          some (heardBodies.map Sight.body, 0, 0, some (0, 4)) := by
    decide +kernel
  obtain ⟨⟨s, sights⟩, hrun, hs⟩ := Option.map_eq_some_iff.mp hdone
  obtain ⟨rfl, hs⟩ := Prod.mk.inj hs
  obtain ⟨hopen, hs⟩ := Prod.mk.inj hs
  obtain ⟨hbacklog, hs⟩ := Prod.mk.inj hs
  obtain ⟨⟨q, rd⟩, hrd, hlen⟩ := Option.map_eq_some_iff.mp hs
  obtain ⟨rfl, hlen⟩ := Prod.mk.inj hlen
  obtain ⟨gone, -, hreaders, -, hids⟩ := @bus_to_readers (fun _ => ISO15765) heardLabels s 0 heardBodies
    {0x7e8, 0x7e9} heardPayload (by decide) rfl plain_heardBodies interleaved_heardBodies hrun hopen
  rw [List.length_eq_zero_iff.mp hbacklog, List.append_nil] at hids
  exact ⟨s, rd, gone, hrun, hrd, hlen, hreaders 0 rd hrd, hids⟩

end Station

end Mongoose
