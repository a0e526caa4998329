import Mongoose.Tools.Bridge.Ledger

/-!
# Mongoose.Tools.Bridge.Accounts

What the bridge forwards.

`Outbound` follows a frame of the interface until it is in a batch or refused, `Inbound` a
message of the vehicle until it is written.  Each says where everything is that came in: in
the hands of the thread that forwards it, or where it goes and in one of the counters.
-/

namespace Mongoose

namespace SocketCan

/-! ## what the options allow -/

/-- What a number of an option leaves to the following conditions is of the words that were there. -/
theorem take_number_words (name : String) (maximum : Nat) (word : Bytes) (rest : List Bytes) :
    (take_number name maximum word rest).2.1 ∈ word :: rest ∧ (take_number name maximum word rest).2.2 ⊆ rest := by
  unfold take_number
  split
  · split_ifs <;> simp
  · simp

/-- Only its own word lets the bridge transmit. -/
theorem parse_words_transmit {n : ℕ} {words : List Bytes} {o o' : options} (hword : ascii "--transmit" ∉ words)
    (h : parse_words n words o = some o') : o'.transmit = o.transmit := by
  induction n generalizing words o with
  | zero =>
      cases words with
      | nil =>
          rw [parse_words] at h
          split_ifs at h
          obtain rfl := Option.some.inj h
          rfl
      | cons word rest => simp [parse_words] at h
  | succ n ih =>
      cases words with
      | nil =>
          rw [parse_words] at h
          split_ifs at h
          obtain rfl := Option.some.inj h
          rfl
      | cons word rest =>
          have hbit := take_number_words "--bitrate" 1000000 word rest
          have hrest : ascii "--transmit" ∉ rest := fun hr => hword (List.mem_cons_of_mem _ hr)
          rw [parse_words] at h
          split at h
          · exact ih (o := { o with device := rest.head? }) (fun hr => hrest (List.mem_of_mem_tail hr)) h
          · split at h
            · next value w r heq =>
                rw [heq] at hbit
                exact ih (o := { o with bitrate := value + 1 }) (fun hr => hrest (hbit.2 hr)) h
            · next w r _ heq =>
                rw [heq] at hbit
                have hw : w ≠ ascii "--transmit" := fun he => hword (he ▸ hbit.1)
                have hr : ascii "--transmit" ∉ r := fun hr => hrest (hbit.2 hr)
                split at h
                · exact ih (o := { o with connect_flags := CAN_29BIT_ID }) hr h
                · have hstats := take_number_words "--stats" 86400 w r
                  split at h
                  · next value w' r' heq' =>
                      rw [heq'] at hstats
                      exact ih (o := { o with stats_seconds := value }) (fun hm => hr (hstats.2 hm)) h
                  · next w' r' heq' =>
                      rw [heq'] at hstats
                      split at h
                      · exact ih (o := { o with interface := some w' }) (fun hm => hr (hstats.2 hm)) h
                      · cases h

/-! ## what the threads have in hand -/

/-- The messages that are in the batch. -/
def HostPhase.batched : HostPhase → List PASSTHRU_MSG
  | .receiving messages | .refusing messages | .writing messages => messages
  | _ => []

/-- The messages that were written and are not counted yet. -/
def HostPhase.submitted : HostPhase → ℕ
  | .sent count _ _ => count
  | _ => 0

/-- The frames that were received and are in no counter yet. -/
def HostPhase.uncounted : HostPhase → ℕ
  | .receiving messages | .writing messages => messages.length
  | .refusing messages => messages.length + 1
  | .sent count _ _ | .rest count _ => count
  | _ => 0

/-- The batch has room while frames are received, is not empty when it is written, and no more of it is sent than it
holds. -/
def HostPhase.Fits : HostPhase → Prop
  | .receiving messages | .refusing messages => messages.length < batch
  | .writing messages => messages ≠ [] ∧ messages.length ≤ batch
  | .sent count submitted _ => submitted ≤ count
  | _ => True

/-- The phase of the loop that forwards from the interface; before and after it is as between two passes. -/
def MainPhase.loop : MainPhase → HostPhase
  | .host p => p
  | _ => .testing

/-- The frames that are still to be written. -/
def ReaderPhase.pending : ReaderPhase → List can_frame
  | .overflowed messages => vehicle_to_host messages
  | .forwarding frame frames => frame :: frames
  | .counting _ frames => frames
  | _ => []

/-- The writes that were taken whole, those that were not, and the reads that ran over, until they are counted. -/
def ReaderPhase.whole : ReaderPhase → ℕ
  | .counting true _ => 1
  | _ => 0

def ReaderPhase.dropped : ReaderPhase → ℕ
  | .counting false _ => 1
  | _ => 0

def ReaderPhase.overflowing : ReaderPhase → ℕ
  | .overflowed _ => 1
  | _ => 0

namespace Bridge

/-- The phase of the reader; before it is created and once it was joined it is as at its end. -/
def reading (b : Bridge) : ReaderPhase := b.reader.getD .exited

variable {b b' : Bridge} {log : Log}

/-! ## from the interface to the vehicle -/

/-- What was received is in the batch. -/
@[simp] theorem received_batched (messages : List PASSTHRU_MSG) : (received messages).batched = messages := by
  unfold received
  split_ifs <;> rfl

/-- None of it was counted yet. -/
@[simp] theorem received_uncounted (messages : List PASSTHRU_MSG) : (received messages).uncounted = messages.length := by
  unfold received
  split_ifs <;> rfl

/-- Nor submitted. -/
@[simp] theorem received_submitted (messages : List PASSTHRU_MSG) : (received messages).submitted = 0 := by
  unfold received
  split_ifs <;> rfl

/-- A batch that is not empty and not too long fits. -/
theorem received_fits {messages : List PASSTHRU_MSG} (hne : messages ≠ []) (h : messages.length ≤ batch) :
    (received messages).Fits := by
  unfold received
  split_ifs with hmore
  · exact hmore
  · exact ⟨hne, h⟩

/-- Where the frames of the interface are. -/
structure Outbound (b : Bridge) (log : Log) : Prop where
  fits : b.main.loop.Fits
  batches : log.batches.flatten ++ b.main.loop.batched = log.taken.filterMap b.accepts
  bounded : ∀ messages ∈ log.batches, messages ≠ [] ∧ messages.length ≤ batch
  counted : b.to_bus + b.refused + b.main.loop.uncounted = log.taken.length
  sent : b.to_bus + b.main.loop.submitted ≤ log.batches.flatten.length

/-- A frame that comes in is in the batch or on its way to be counted as refused. -/
theorem Outbound.hosted {p : HostPhase} {c : MainStep} (h : Outbound b log) (hp : b.main = .host p)
    (hc : Hosted b p c b') : Outbound b' (Log.note b (.main c) b' log) := by
  obtain ⟨hfits, hbatches, hbounded, hcounted, hsent⟩ := h
  rw [hp] at hfits hbatches hcounted hsent
  simp only [MainPhase.loop] at hfits hbatches hcounted hsent
  cases hc with
  | nothing => exact ⟨trivial, hbatches, hbounded, hcounted, hsent⟩
  | gathered messages hne => exact ⟨⟨hne, Nat.le_of_lt hfits⟩, hbatches, hbounded, hcounted, hsent⟩
  | took messages frame message ha =>
      have hlen : messages.length < batch := hfits
      have hfits' : (received (messages ++ [message])).Fits :=
        received_fits (by simp) (by rw [List.length_append]; exact hlen)
      refine ⟨hfits', ?_, hbounded, ?_, ?_⟩
      · show log.batches.flatten ++ (received (messages ++ [message])).batched = (log.taken ++ [frame]).filterMap b.accepts
        rw [received_batched, List.filterMap_append, ← hbatches, ← List.append_assoc]
        simp [ha, HostPhase.batched]
      · show b.to_bus + b.refused + (received (messages ++ [message])).uncounted = (log.taken ++ [frame]).length
        rw [received_uncounted, List.length_append, List.length_append, ← hcounted]
        simp [HostPhase.uncounted]
        omega
      · show b.to_bus + (received (messages ++ [message])).submitted ≤ log.batches.flatten.length
        rw [received_submitted]
        exact hsent
  | refuses messages frame ha =>
      refine ⟨hfits, ?_, hbounded, ?_, hsent⟩
      · show log.batches.flatten ++ messages = (log.taken ++ [frame]).filterMap b.accepts
        rw [List.filterMap_append, ← hbatches]
        simp [ha, HostPhase.batched]
      · show b.to_bus + b.refused + (messages.length + 1) = (log.taken ++ [frame]).length
        rw [List.length_append, ← hcounted]
        rfl
  | refused messages =>
      refine ⟨hfits, hbatches, hbounded, ?_, hsent⟩
      show b.to_bus + (b.refused + 1) + messages.length = log.taken.length
      rw [← hcounted]
      simp only [HostPhase.uncounted]
      omega
  | wrote messages sent status hs =>
      obtain ⟨hne, hlen⟩ := hfits
      have hlog : Log.traffic b (.main (.PassThruWriteMsgs sent status)) log =
          { log with batches := log.batches ++ [messages] } := by
        rw [Log.traffic, hp]
      rw [Log.note, hlog]
      refine ⟨hs, ?_, fun batch hbatch => ?_, hcounted, ?_⟩
      · show (log.batches ++ [messages]).flatten ++ [] = log.taken.filterMap b.accepts
        rw [List.append_nil, List.flatten_concat]
        exact hbatches
      · obtain hold | hnew := List.mem_append.mp hbatch
        · exact hbounded batch hold
        · obtain rfl := List.mem_singleton.mp hnew
          exact ⟨hne, hlen⟩
      · show b.to_bus + messages.length ≤ (log.batches ++ [messages]).flatten.length
        rw [List.flatten_concat, List.length_append]
        exact Nat.add_le_add_right hsent _
  | short count sent status hs =>
      refine ⟨trivial, hbatches, hbounded, ?_, ?_⟩
      · show b.to_bus + sent + b.refused + (count - sent) = log.taken.length
        rw [← hcounted]
        simp only [HostPhase.uncounted]
        omega
      · show b.to_bus + sent + 0 ≤ log.batches.flatten.length
        simp only [HostPhase.submitted] at hsent
        omega
  | full count sent status q hs hq =>
      have hsent' : sent = count := Nat.le_antisymm hfits (Nat.le_of_not_lt hs)
      have hcounted' : b.to_bus + sent + b.refused + 0 = log.taken.length := by
        rw [← hcounted, hsent']
        simp only [HostPhase.uncounted]
        omega
      have hsent'' : b.to_bus + sent + 0 ≤ log.batches.flatten.length := hsent' ▸ hsent
      obtain rfl | rfl := hq <;> exact ⟨trivial, hbatches, hbounded, hcounted', hsent''⟩
  | rest count status q hq =>
      have hcounted' : b.to_bus + (b.refused + count) + 0 = log.taken.length := by
        rw [← hcounted]
        simp only [HostPhase.uncounted]
        omega
      obtain rfl | rfl := hq <;> exact ⟨trivial, hbatches, hbounded, hcounted', hsent⟩
  | _ => exact ⟨by simp [MainPhase.loop, HostPhase.Fits, batch], hbatches, hbounded, hcounted, hsent⟩

/-- A step of `main` outside its loop forwards nothing. -/
theorem Moved.quiet {c : MainStep} (hc : Moved b b.main c b') (log : Log) (hp : ∀ p, b.main ≠ .host p) :
    b.main.loop = .testing ∧ b'.main.loop = .testing ∧ b'.options = b.options ∧ b'.to_bus = b.to_bus ∧
      b'.refused = b.refused ∧ Log.traffic b (.main c) log = log := by
  generalize hq : b.main = q at hc hp
  cases hc with
  | host p _ _ h => exact absurd rfl (hp p)
  | created p hp' => obtain rfl | rfl := hp' <;> exact ⟨rfl, rfl, rfl, rfl, rfl, rfl⟩
  | _ => exact ⟨rfl, rfl, rfl, rfl, rfl, rfl⟩

/-- A step of the other threads leaves the account as it is. -/
theorem Outbound.congr {log' : Log} (h : Outbound b log) (hmain : b'.main.loop = b.main.loop) (ho : b'.options = b.options)
    (hbus : b'.to_bus = b.to_bus) (hrefused : b'.refused = b.refused) (htaken : log'.taken = log.taken)
    (hbatches : log'.batches = log.batches) : Outbound b' log' := by
  have haccepts : b'.accepts = b.accepts := by
    funext frame
    rw [accepts, accepts, ho]
  obtain ⟨h₁, h₂, h₃, h₄, h₅⟩ := h
  rw [← hmain] at h₁ h₂ h₄ h₅
  rw [← hbatches, ← htaken, ← haccepts] at h₂
  rw [← hbatches] at h₃ h₅
  rw [← hbus, ← hrefused, ← htaken] at h₄
  rw [← hbus] at h₅
  exact ⟨h₁, h₂, h₃, h₄, h₅⟩

/-- The reader takes no frames of the interface. -/
theorem traffic_reader (b : Bridge) (c : ReaderStep) (log : Log) :
    (Log.traffic b (.reader c) log).taken = log.taken ∧ (Log.traffic b (.reader c) log).batches = log.batches := by
  cases c with
  | write whole =>
      rw [Log.traffic]
      split <;> exact ⟨rfl, rfl⟩
  | _ => exact ⟨rfl, rfl⟩

/-- Every step keeps the account of the frames of the interface. -/
theorem Outbound.step {a : Label} (h : Outbound b log) (hs : b.step a = some b') : Outbound b' (Log.note b a b' log) := by
  obtain ⟨rfl, -, rfl⟩ | ⟨c, rfl, hm⟩ | ⟨c, p, rfl, -, hc⟩ | ⟨c, p, q, rfl, -, -, rfl⟩ := step_cases hs
  · exact h.congr rfl rfl rfl rfl rfl rfl
  · by_cases hp : ∃ p, b.main = .host p
    · obtain ⟨p, hp⟩ := hp
      rw [hp] at hm
      cases hm with
      | host _ _ _ hc => exact h.hosted hp hc
    · obtain ⟨hloop, hloop', ho, hbus, hrefused, hlog⟩ := hm.quiet log fun p hq => hp ⟨p, hq⟩
      exact h.congr (hloop'.trans hloop.symm) ho hbus hrefused (by rw [Log.note, hlog]) (by rw [Log.note, hlog])
  · have hb' : b'.main = b.main ∧ b'.options = b.options ∧ b'.to_bus = b.to_bus ∧ b'.refused = b.refused := by
      cases hc <;> exact ⟨rfl, rfl, rfl, rfl⟩
    obtain ⟨hmain, ho, hbus, hrefused⟩ := hb'
    have hlog := traffic_reader b c log
    exact h.congr (by rw [hmain]) ho hbus hrefused hlog.1 hlog.2
  · exact h.congr rfl rfl rfl rfl rfl rfl

/-! ## from the vehicle to the interface -/

/-- All frames are still to be written. -/
@[simp] theorem forward_pending (frames : List can_frame) : (forward frames).pending = frames := by
  cases frames <;> rfl

@[simp] theorem forward_whole (frames : List can_frame) : (forward frames).whole = 0 := by
  cases frames <;> rfl

@[simp] theorem forward_dropped (frames : List can_frame) : (forward frames).dropped = 0 := by
  cases frames <;> rfl

@[simp] theorem forward_overflowing (frames : List can_frame) : (forward frames).overflowing = 0 := by
  cases frames <;> rfl

/-- Where the messages of the vehicle are. -/
structure Inbound (b : Bridge) (log : Log) : Prop where
  frames : log.written.map Prod.fst ++ b.reading.pending ++ vehicle_to_host log.lost = vehicle_to_host log.read
  whole : b.to_host + b.reading.whole = log.written.countP fun w => w.2
  dropped : b.host_drops + b.reading.dropped = log.written.countP fun w => !w.2
  overflows : b.overflows + b.reading.overflowing = log.overflows
  lost : log.lost ≠ [] → b.reading = .failing ∨ b.reading = .exited ∧ b.failed = true
  early : b.main.started = some false → log.lost = []

/-- The reader is about to write frames, or has none to write. -/
theorem inbound_forward {frames : List can_frame} (hreader : b.reader = some (forward frames)) (hl : log.lost = [])
    (hframes : log.written.map Prod.fst ++ frames = vehicle_to_host log.read)
    (hwhole : b.to_host = log.written.countP fun w => w.2) (hdropped : b.host_drops = log.written.countP fun w => !w.2)
    (hoverflows : b.overflows = log.overflows) : Inbound b log where
  frames := by simpa [reading, hreader, hl, vehicle_to_host] using hframes
  whole := by simpa [reading, hreader] using hwhole
  dropped := by simpa [reading, hreader] using hdropped
  overflows := by simpa [reading, hreader] using hoverflows
  lost hne := absurd hl hne
  early _ := hl

/-- What a read brings goes to the interface, unless the read failed for good. -/
theorem Inbound.heard {messages : List PASSTHRU_MSG} {status : Int} (h : Inbound b log)
    (hp : b.reading = .draining ∨ b.reading = .blocking) (hstarted : b.main.started = some true) :
    Inbound { b with reader := some (heard messages status) }
      (Log.note b (.reader (.PassThruReadMsgs messages status))
        { b with reader := some (Bridge.heard messages status) } log) := by
  obtain ⟨hframes, hwhole, hdropped, hoverflows, hlost, hearly⟩ := h
  have hnone : log.lost = [] := by
    by_contra hne
    obtain hr | ⟨hr, -⟩ := hlost hne <;> rw [hr] at hp <;> simp at hp
  have hpending : b.reading.pending = [] := by obtain hp | hp := hp <;> rw [hp] <;> rfl
  have hzero : b.reading.whole = 0 ∧ b.reading.dropped = 0 ∧ b.reading.overflowing = 0 := by
    obtain hp | hp := hp <;> rw [hp] <;> exact ⟨rfl, rfl, rfl⟩
  rw [hnone, hpending] at hframes
  rw [hzero.1] at hwhole
  rw [hzero.2.1] at hdropped
  rw [hzero.2.2] at hoverflows
  have hread : vehicle_to_host (log.read ++ messages) = log.written.map Prod.fst ++ vehicle_to_host messages := by
    rw [vehicle_to_host, List.filterMap_append]
    simpa [vehicle_to_host] using hframes.symm
  by_cases ho : status = ERR_BUFFER_OVERFLOW
  · have hf : fatal status = false := by rw [ho]; decide
    have hheard : Bridge.heard messages status = .overflowed messages := if_pos ho
    rw [hheard]
    refine ⟨?_, hwhole, hdropped, ?_, ?_, ?_⟩
    · simpa [Log.note, Log.traffic, hf, hnone, reading, ReaderPhase.pending, vehicle_to_host] using hread.symm
    · simp [Log.note, Log.traffic, ho, reading, ReaderPhase.overflowing, ← hoverflows]
    · simp [Log.note, Log.traffic, hf, hnone]
    · simp [hstarted]
  · by_cases hf : fatal status = true
    · have hheard : Bridge.heard messages status = .failing := by rw [Bridge.heard, if_neg ho, if_pos hf]
      rw [hheard]
      refine ⟨?_, hwhole, hdropped, ?_, fun _ => .inl rfl, ?_⟩
      · simpa [Log.note, Log.traffic, hf, hnone, reading, ReaderPhase.pending] using hread.symm
      · simpa [Log.note, Log.traffic, ho, reading, ReaderPhase.overflowing] using hoverflows
      · simp [hstarted]
    · have hheard : Bridge.heard messages status = forward (vehicle_to_host messages) := by
        rw [Bridge.heard, if_neg ho, if_neg hf]
      rw [hheard]
      refine inbound_forward rfl ?_ hread.symm hwhole hdropped ?_
      · simp [Log.note, Log.traffic, hf, hnone]
      · simpa [Log.note, Log.traffic, ho] using hoverflows

/-- Every step of the reader keeps the account of the messages of the vehicle. -/
theorem Inbound.read {p : ReaderPhase} {c : ReaderStep} (h : Inbound b log) (hstarted : b.main.started = some true)
    (hp : b.reader = some p) (hc : Read b p c b') : Inbound b' (Log.note b (.reader c) b' log) := by
  have hreading : b.reading = p := by rw [reading, hp]; rfl
  have hlater : b.main.started = some false → log.lost = [] := h.early
  have hnone (hne : p ≠ .failing ∧ p ≠ .exited) : log.lost = [] := by
    by_contra hl
    rw [← hreading] at hne
    obtain hr | ⟨hr, -⟩ := h.lost hl
    · exact hne.1 hr
    · exact hne.2 hr
  obtain ⟨hframes, hwhole, hdropped, hoverflows, hlost, hearly⟩ := id h
  rw [hreading] at hframes hwhole hdropped hoverflows hlost
  cases hc with
  | drained messages status hlen => exact h.heard (.inl hreading) hstarted
  | waited messages status hlen => exact h.heard (.inr hreading) hstarted
  | empty =>
      have hl := hnone (by simp)
      have hf : fatal ERR_BUFFER_EMPTY = false := by decide
      have ho : ERR_BUFFER_EMPTY ≠ ERR_BUFFER_OVERFLOW := by decide
      refine ⟨?_, hwhole, hdropped, ?_, ?_, ?_⟩
      · simpa [Log.note, Log.traffic, hf, reading, ReaderPhase.pending] using hframes
      · simpa [Log.note, Log.traffic, ho, reading, ReaderPhase.overflowing] using hoverflows
      · simp [Log.note, Log.traffic, hf, hl]
      · simp [hstarted]
  | leaves he =>
      have hl := hnone (by simp)
      exact ⟨hframes, hwhole, hdropped, hoverflows, fun hne => absurd hl hne, hlater⟩
  | goes he =>
      have hl := hnone (by simp)
      exact ⟨hframes, hwhole, hdropped, hoverflows, fun hne => absurd hl hne, hlater⟩
  | overflowed messages =>
      have hl := hnone (by simp)
      have hframes' : log.written.map Prod.fst ++ vehicle_to_host messages = vehicle_to_host log.read := by
        simpa [hl, ReaderPhase.pending, vehicle_to_host] using hframes
      exact inbound_forward rfl hl hframes' hwhole hdropped hoverflows
  | failed => exact ⟨hframes, hwhole, hdropped, hoverflows, fun _ => .inr ⟨rfl, rfl⟩, hlater⟩
  | wrote frame frames whole =>
      have hl := hnone (by simp)
      have hlog : Log.traffic b (.reader (.write whole)) log =
          { log with written := log.written ++ [(frame, whole)] } := by
        rw [Log.traffic, hp]
      rw [Log.note, hlog]
      refine ⟨?_, ?_, ?_, hoverflows, fun hne => absurd hl hne, hlater⟩
      · simpa [reading, ReaderPhase.pending] using hframes
      · cases whole <;> simpa [reading, ReaderPhase.whole] using hwhole
      · cases whole <;> simpa [reading, ReaderPhase.dropped] using hdropped
  | took frames =>
      have hl := hnone (by simp)
      have hframes' : log.written.map Prod.fst ++ frames = vehicle_to_host log.read := by
        simpa [hl, ReaderPhase.pending, vehicle_to_host] using hframes
      exact inbound_forward rfl hl hframes' hwhole hdropped hoverflows
  | dropped frames =>
      have hl := hnone (by simp)
      have hframes' : log.written.map Prod.fst ++ frames = vehicle_to_host log.read := by
        simpa [hl, ReaderPhase.pending, vehicle_to_host] using hframes
      exact inbound_forward rfl hl hframes' hwhole hdropped hoverflows

/-- A step that leaves the reader and its counters as they are. -/
theorem Inbound.congr {log' : Log} (h : Inbound b log) (hreading : b'.reading = b.reading)
    (hcounters : b'.to_host = b.to_host ∧ b'.host_drops = b.host_drops ∧ b'.overflows = b.overflows)
    (hfailed : b.failed = true → b'.failed = true) (hearly : b'.main.started = some false → b.main.started = some false)
    (hlog : log'.written = log.written ∧ log'.read = log.read ∧ log'.lost = log.lost ∧ log'.overflows = log.overflows) :
    Inbound b' log' := by
  obtain ⟨hto, hdrops, hover⟩ := hcounters
  obtain ⟨hwritten, hread, hlost, hoverflows⟩ := hlog
  constructor
  · rw [hreading, hwritten, hread, hlost]
    exact h.frames
  · rw [hreading, hwritten, hto]
    exact h.whole
  · rw [hreading, hwritten, hdrops]
    exact h.dropped
  · rw [hreading, hoverflows, hover]
    exact h.overflows
  · rw [hreading, hlost]
    exact fun hne => (h.lost hne).imp_right fun ⟨hr, hf⟩ => ⟨hr, hfailed hf⟩
  · rw [hlost]
    exact fun hs => h.early (hearly hs)

/-- `main` reads no messages of the vehicle. -/
theorem traffic_main (b : Bridge) (c : MainStep) (log : Log) :
    (Log.traffic b (.main c) log).written = log.written ∧ (Log.traffic b (.main c) log).read = log.read ∧
      (Log.traffic b (.main c) log).lost = log.lost ∧ (Log.traffic b (.main c) log).overflows = log.overflows := by
  cases c with
  | recv frame => cases frame <;> exact ⟨rfl, rfl, rfl, rfl⟩
  | PassThruWriteMsgs sent status =>
      rw [Log.traffic]
      split <;> exact ⟨rfl, rfl, rfl, rfl⟩
  | _ => exact ⟨rfl, rfl, rfl, rfl⟩

/-- What `main` does leaves the other direction as it was. -/
theorem Inbound.main {c : MainStep} (h : Inbound b log) (hl : Ledger b log.ops) (hm : Moved b b.main c b') :
    Inbound b' (Log.note b (.main c) b' log) := by
  have hlog := traffic_main b c log
  generalize hp : b.main = p at hm
  cases hm with
  | created q hq =>
      -- the reader begins where nothing was read yet
      have hreader : b.reader = none := by
        by_contra hne
        simpa [hp, MainPhase.depth] using hl.reader hne
      have hlost : log.lost = [] := h.early (by rw [hp]; rfl)
      have hreading : b.reading = .exited := by rw [reading, hreader]; rfl
      obtain ⟨hframes, hwhole, hdropped, hoverflows, -, -⟩ := h
      rw [hreading] at hframes hwhole hdropped hoverflows
      exact ⟨hframes, hwhole, hdropped, hoverflows, fun hne => absurd hlost hne, fun _ => hlost⟩
  | joined_reader hr =>
      have hreading : b.reading = .exited := by rw [reading, hr]; rfl
      exact h.congr hreading.symm ⟨rfl, rfl, rfl⟩ id (by simp [MainPhase.started]) hlog
  | host p _ _ hc =>
      have hsame : b'.reader = b.reader ∧ b'.to_host = b.to_host ∧ b'.host_drops = b.host_drops ∧
          b'.overflows = b.overflows := by
        cases hc <;> exact ⟨rfl, rfl, rfl, rfl⟩
      have hfailed (hf : b.failed = true) : b'.failed = true := by
        cases hc <;> first | exact hf | rfl
      have hearly : b'.main.started ≠ some false := by
        obtain ⟨q, hq⟩ | ⟨hq, -⟩ := hc.main <;> simp [hq, MainPhase.started]
      exact h.congr (by rw [reading, hsame.1, reading]) hsame.2 hfailed (fun hs => absurd hs hearly) hlog
  | _ => exact h.congr rfl ⟨rfl, rfl, rfl⟩ id (by simp [hp, MainPhase.started]) hlog

/-- Every step keeps the account of the messages of the vehicle. -/
theorem Inbound.step {a : Label} (h : Inbound b log) (hl : Ledger b log.ops) (hs : b.step a = some b') :
    Inbound b' (Log.note b a b' log) := by
  obtain ⟨rfl, -, rfl⟩ | ⟨c, rfl, hm⟩ | ⟨c, p, rfl, hp, hc⟩ | ⟨c, p, q, rfl, -, -, rfl⟩ := step_cases hs
  · exact h.congr rfl ⟨rfl, rfl, rfl⟩ id id ⟨rfl, rfl, rfl, rfl⟩
  · exact h.main hl hm
  · exact h.read (hl.running hp).2 hp hc
  · exact h.congr rfl ⟨rfl, rfl, rfl⟩ id id ⟨rfl, rfl, rfl, rfl⟩

/-! ## whole runs -/

/-- Without the option nothing is transmitted. -/
theorem start_transmit {argv : List Bytes} (h : start argv = .ok b) (hword : ascii "--transmit" ∉ argv) :
    b.options.transmit = false := by
  obtain ⟨o, ho, rfl⟩ := start_ok h
  exact parse_words_transmit hword ho

/-- The options stay. -/
theorem options_of_step {a : Label} (hs : b.step a = some b') : b'.options = b.options := by
  obtain ⟨-, -, rfl⟩ | ⟨c, -, hm⟩ | ⟨c, p, -, -, hc⟩ | ⟨c, p, q, -, -, -, rfl⟩ := step_cases hs
  · rfl
  · generalize b.main = p at hm
    cases hm with
    | host p _ _ hc => cases hc <;> rfl
    | _ => rfl
  · cases hc <;> rfl
  · rfl

/-- Every run keeps both accounts. -/
theorem accounts_of_run {argv : List Bytes} {b₀ : Bridge} {labels : List Label} (h₀ : start argv = .ok b₀)
    (hr : Run.run logged (b₀, {}) labels = some (b, log)) : b.options = b₀.options ∧ Outbound b log ∧ Inbound b log := by
  have hstep : ∀ ls (m : Bridge × Log) (a : Label) (t : Bridge × Log), Run.run logged (b₀, {}) ls = some m →
      (m.1.options = b₀.options ∧ Outbound m.1 m.2 ∧ Inbound m.1 m.2) → logged m a = some t →
      t.1.options = b₀.options ∧ Outbound t.1 t.2 ∧ Inbound t.1 t.2 := by
    intro ls m a t hrun hm ht
    obtain ⟨hs, hnote⟩ := Run.recording_eq_some_iff.mp ht
    obtain ⟨ho, hout, hin⟩ := hm
    rw [hnote]
    exact ⟨(options_of_step hs).trans ho, hout.step hs, hin.step (ledger_of_run h₀ hrun) hs⟩
  refine Run.run_induction (P := fun _ (s : Bridge × Log) => s.1.options = b₀.options ∧ Outbound s.1 s.2 ∧ Inbound s.1 s.2)
    ?_ hstep hr
  obtain ⟨o, -, rfl⟩ := start_ok h₀
  exact ⟨rfl, ⟨trivial, rfl, by simp, rfl, Nat.le_refl 0⟩, ⟨rfl, rfl, rfl, rfl, by simp, fun _ => rfl⟩⟩

/-- A frame and a remote frame of the interface, and a message of the vehicle, before a signal. -/
def forwarded : List Label :=
  [.main (.open_interface 1 3 0), .main (.PassThruOpen 0 7), .main (.PassThruConnect 0 9),
    .main (.PassThruStartMsgFilter 0 5), .main (.create 0), .main .test, .main (.poll 1 0),
    .main (.recv (some { can_id := 0x7e0, len := 2, data := [1, 0, 0, 0, 0, 0, 0, 0], length_data := rfl })),
    .main (.recv (some { can_id := CAN_RTR_FLAG, len := 0, data := [0, 0, 0, 0, 0, 0, 0, 0], length_data := rfl })),
    .main .count, .main (.recv none), .reader .test,
    .reader (.PassThruReadMsgs [(CanReceiver.Frame.ofData 0 0 [0, 0, 7, 0xe8, 2, 0x10]).toMsg] 0), .reader (.write true),
    .main (.PassThruWriteMsgs 1 0), .reader .count, .signal, .main .count, .main .test, .reader .test, .main .join,
    .main .join, .main .PassThruStopMsgFilter, .main .PassThruDisconnect, .main .PassThruClose, .main .close]

/-- A frame goes each way, then the bridge is stopped. -/
theorem forwarded_run : ∃ b₀ b log, start [ascii "--transmit", ascii "can0"] = .ok b₀ ∧
    Run.run logged (b₀, {}) forwarded = some (b, log) ∧ b.main = .exited 0 ∧ b.to_bus = 1 ∧ b.to_host = 1 ∧
      b.host_drops = 0 := by
  have h₀ : start [ascii "--transmit", ascii "can0"] =
      .ok { options := { transmit := true, interface := some (ascii "can0") } } := rfl
  have hrun : (Run.run logged ({ options := { transmit := true, interface := some (ascii "can0") } }, {}) forwarded).map
      (fun s => (s.1.main, s.1.to_bus, s.1.to_host, s.1.host_drops)) = some (.exited 0, 1, 1, 0) := by
    decide +kernel
  obtain ⟨⟨b, log⟩, hr, hb⟩ := Option.map_eq_some_iff.mp hrun
  simp only [Prod.mk.injEq] at hb
  exact ⟨_, b, log, h₀, hr, hb⟩

/-- **From the interface to the vehicle.**  Over every interleaving the batches hold, in order, just what the frames
that were received become, none lost and none twice; each frame is in a counter or in hand.  No more is counted as sent
than was handed to the vehicle, and without `--transmit` nothing ever is. -/
theorem outbound_accounted {argv : List Bytes} {b₀ : Bridge} {labels : List Label} (h₀ : start argv = .ok b₀)
    (hr : Run.run logged (b₀, {}) labels = some (b, log)) :
    log.batches.flatten ++ b.main.loop.batched = log.taken.filterMap b₀.accepts ∧
      (∀ messages ∈ log.batches, messages ≠ [] ∧ messages.length ≤ batch) ∧
      b.to_bus + b.refused + b.main.loop.uncounted = log.taken.length ∧
      b.to_bus + b.main.loop.submitted ≤ log.batches.flatten.length ∧
      (ascii "--transmit" ∉ argv → log.batches = [] ∧ b.to_bus = 0) ∧
      ∀ r, b.main = .exited r →
        log.batches.flatten = log.taken.filterMap b₀.accepts ∧ b.to_bus + b.refused = log.taken.length := by
  obtain ⟨ho, hout, -⟩ := accounts_of_run h₀ hr
  have haccepts : b.accepts = b₀.accepts := by
    funext frame
    rw [accepts, accepts, ho]
  have hbatches := hout.batches
  rw [haccepts] at hbatches
  refine ⟨hbatches, hout.bounded, hout.counted, hout.sent, fun hword => ?_, fun r hm => ?_⟩
  · have hnone : log.taken.filterMap b₀.accepts = [] := by
      rw [List.filterMap_eq_nil_iff]
      intro frame _
      rw [accepts, start_transmit h₀ hword]
      rfl
    have hflat : log.batches.flatten = [] := (List.append_eq_nil_iff.mp (hbatches.trans hnone)).1
    have hsent := hout.sent
    rw [hflat] at hsent
    have hempty : log.batches = [] := by
      by_contra hne
      obtain ⟨messages, hm⟩ := List.exists_mem_of_ne_nil _ hne
      exact (hout.bounded messages hm).1 (List.flatten_eq_nil_iff.mp hflat messages hm)
    exact ⟨hempty, Nat.le_zero.mp (Nat.le_trans (Nat.le_add_right ..) hsent)⟩
  · have hcounted := hout.counted
    rw [hm] at hbatches hcounted
    exact ⟨by simpa [MainPhase.loop, HostPhase.batched] using hbatches, hcounted⟩

theorem outbound_accounted_forwarded : ∃ b₀ b log, start [ascii "--transmit", ascii "can0"] = .ok b₀ ∧
    Run.run logged (b₀, {}) forwarded = some (b, log) ∧ b.main = .exited 0 ∧
      log.batches.flatten = log.taken.filterMap b₀.accepts ∧ 1 + b.refused = log.taken.length := by
  obtain ⟨b₀, b, log, h₀, hr, hm, hbus, -, -⟩ := forwarded_run
  obtain ⟨-, -, -, -, -, hend⟩ := outbound_accounted h₀ hr
  obtain ⟨hbatches, hcounted⟩ := hend 0 hm
  exact ⟨b₀, b, log, h₀, hr, hm, hbatches, hbus ▸ hcounted⟩

/-- **From the vehicle to the interface.**  Over every interleaving the frames that were written, in order, are those of
the messages that were read, but for those in hand and those that came with the failure that ended the reader; each
write and each overflow is in its counter or about to be.  When `main` has ended only a failure has cost a frame. -/
theorem inbound_accounted {argv : List Bytes} {b₀ : Bridge} {labels : List Label} (h₀ : start argv = .ok b₀)
    (hr : Run.run logged (b₀, {}) labels = some (b, log)) :
    log.written.map Prod.fst ++ b.reading.pending ++ vehicle_to_host log.lost = vehicle_to_host log.read ∧
      b.to_host + b.reading.whole = (log.written.countP fun w => w.2) ∧
      b.host_drops + b.reading.dropped = (log.written.countP fun w => !w.2) ∧
      b.overflows + b.reading.overflowing = log.overflows ∧
      ∀ r, b.main = .exited r →
        b.to_host + b.host_drops = log.written.length ∧ b.overflows = log.overflows ∧
          (log.lost = [] ∧ log.written.map Prod.fst = vehicle_to_host log.read ∨ r = 1) := by
  obtain ⟨-, -, hin⟩ := accounts_of_run h₀ hr
  refine ⟨hin.frames, hin.whole, hin.dropped, hin.overflows, fun r hm => ?_⟩
  obtain ⟨hreader, -, hresult, hzero, -⟩ := (ledger_of_run h₀ hr).exited hm
  have hreading : b.reading = .exited := by rw [reading, hreader]; rfl
  obtain ⟨hframes, hwhole, hdropped, hoverflows, hlost, -⟩ := hin
  rw [hreading] at hframes hwhole hdropped hoverflows hlost
  have hwritten : log.written.length = (log.written.countP fun w => w.2) + log.written.countP fun w => !w.2 := by
    simpa using List.length_eq_countP_add_countP (fun w : can_frame × Bool => w.2) (l := log.written)
  refine ⟨?_, hoverflows, ?_⟩
  · rw [hwritten, ← hwhole, ← hdropped]
    rfl
  · by_cases hl : log.lost = []
    · rw [hl] at hframes
      exact .inl ⟨hl, by simpa [ReaderPhase.pending, vehicle_to_host] using hframes⟩
    · obtain hf | ⟨-, hf⟩ := hlost hl
      · cases hf
      · refine .inr (hresult.resolve_left fun hr => ?_)
        rw [(hzero.mp hr).1] at hf
        cases hf

theorem inbound_accounted_forwarded : ∃ b₀ b log, start [ascii "--transmit", ascii "can0"] = .ok b₀ ∧
    Run.run logged (b₀, {}) forwarded = some (b, log) ∧ b.main = .exited 0 ∧
      log.written.length = 1 ∧ log.written.map Prod.fst = vehicle_to_host log.read := by
  obtain ⟨b₀, b, log, h₀, hr, hm, -, hhost, hdrops⟩ := forwarded_run
  obtain ⟨-, -, -, -, hend⟩ := inbound_accounted h₀ hr
  obtain ⟨hlength, -, hframes⟩ := hend 0 hm
  rw [hhost, hdrops] at hlength
  exact ⟨b₀, b, log, h₀, hr, hm, hlength.symm, (hframes.resolve_right (by decide)).2⟩

end Bridge

end SocketCan

end Mongoose
