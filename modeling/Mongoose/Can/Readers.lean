import Mongoose.Can.Inbound
import Mongoose.Lib.Monitor
import Mongoose.Lib.Run

/-!
# Mongoose.Can.Readers

A receiver, and the threads that read it.

A `Reader` is a call of `read`; its steps are the stretches in which it holds the
receiver's lock.  A `Reception` is a receiver with any number of them, and a `Traffic`
keeps beside its run what was accepted, what became of it, and what was reported.
`receive_queue` says that the queue is first in, first out, that nothing is lost unseen,
and that no loss is reported twice.
-/

namespace Mongoose

open Fifo

/-! ## reading -/

/-- A thread inside `CanReceiver::read`. -/
abbrev ReaderId := Nat

/-- Where a read stands. -/
inductive ReadPhase
  /-- About to lock the receiver. -/
  | entered
  | waiting
  /-- Over, with its error if it threw. -/
  | done (error : Option Exception)
  deriving DecidableEq, Repr

/-- A call of `CanReceiver::read` and its locals; `count` is the number of its messages. -/
structure Reader where
  requested : Nat
  timeout : UInt32
  deadline : Int
  messages : List PASSTHRU_MSG := []
  phase : ReadPhase := .entered

/-- What a reader does next. -/
inductive ReadAction
  /-- It locks the receiver for its first pass. -/
  | lock
  /-- The wait ends because there is something to report, or at the deadline. -/
  | wake
  | expire (now : Int)
  deriving DecidableEq, Repr

namespace Reader

/-- A read is called; the timeout is in milliseconds. -/
def enter (requested : Nat) (timeout : UInt32) (now : Int) : Reader :=
  { requested := requested, timeout := timeout, deadline := now + timeout.toNat * 1000000 }

/-- What a read throws that has no loss to report. -/
def shortfall (rd : Reader) : Option Exception :=
  if rd.messages = [] then some (.Error ERR_BUFFER_EMPTY "zero CAN messages received")
  else if rd.timeout ≠ 0 ∧ rd.messages.length < rd.requested then
    some (.Error ERR_TIMEOUT "CAN read returned fewer messages than requested")
  else none

/-- The reports after the read loop. -/
def finish (rd : Reader) (r : CanReceiver) : Reader × CanReceiver :=
  ({ rd with phase := .done (r.report.1.or rd.shortfall) }, r.report.2)

/-- From the top of the read loop until the reader waits or is done. -/
def pass (rd : Reader) (r : CanReceiver) : Reader × CanReceiver :=
  if rd.messages.length < rd.requested then
    if r.stopped ≠ 0 then ({ rd with phase := .done (some (.Error r.stopped r.reason)) }, r)
    else
      let taken := r.take (rd.requested - rd.messages.length)
      let rd := { rd with messages := rd.messages ++ taken.1 }
      if rd.messages.length = rd.requested ∨ rd.timeout = 0 ∨ r.overflow ∨ r.malformed then
        rd.finish taken.2
      else ({ rd with phase := .waiting }, taken.2)
  else rd.finish r

/-- One step of a reader.  Whoever queues, stops or reports anything notifies, so a reader
goes on as soon as there is something for it. -/
def step (rd : Reader) (r : CanReceiver) : ReadAction → Option (Reader × CanReceiver)
  | .lock => if rd.phase = .entered then some (rd.pass r) else none
  | .wake => if rd.phase = .waiting ∧ r.awake then some (rd.pass r) else none
  | .expire now =>
      if rd.phase = .waiting ∧ ¬ r.awake ∧ rd.deadline ≤ now then some (rd.finish r) else none

end Reader

/-! ## the system -/

/-- A receiver and its readers. -/
structure Reception where
  receiver : CanReceiver
  readers : ReaderId → Option Reader := fun _ => none

namespace Reception

/-- One step of one thread. -/
inductive Label
  /-- A body reaches the receiver. -/
  | receive (body : Bytes)
  | note_transmit (message : PASSTHRU_MSG) (sequence : Nat) (call : Option TransmitCall)
  | forget_transmit
  | forget_transmits
  | set_loopback (enabled : Bool)
  | flush_receive
  | stop (code : Int) (reason : String)
  /-- A read is called, and goes on. -/
  | read (i : ReaderId) (requested : Nat) (timeout : UInt32) (now : Int)
  | act (i : ReaderId) (a : ReadAction)

/-- One step of the system.  A receiver is stopped with one of two codes. -/
def step (s : Reception) : Label → Option Reception
  | .receive body => (s.receiver.receive body).toOption.map fun r => { s with receiver := r }
  | .note_transmit message sequence call =>
      some { s with receiver := s.receiver.note_transmit message sequence call }
  | .forget_transmit => some { s with receiver := s.receiver.forget_transmit }
  | .forget_transmits => some { s with receiver := s.receiver.forget_transmits }
  | .set_loopback enabled => some { s with receiver := s.receiver.set_loopback enabled }
  | .flush_receive => some { s with receiver := s.receiver.flush_receive }
  | .stop code reason =>
      if code = ERR_INVALID_CHANNEL_ID ∨ code = ERR_DEVICE_NOT_CONNECTED then
        some { s with receiver := s.receiver.stop code reason }
      else none
  | .read i requested timeout now =>
      if (s.readers i).isNone then
        some { s with readers := Function.update s.readers i (some (.enter requested timeout now)) }
      else none
  | .act i a =>
      (s.readers i).bind fun rd => (rd.step s.receiver a).map fun x =>
        { receiver := x.2, readers := Function.update s.readers i (some x.1) }

/-- A new receiver that nobody reads. -/
def fresh (protocol : UInt32) : Reception := { receiver := { protocol := protocol } }

end Reception

/-! ## what happened -/

/-- What a reader can learn of, and what takes it away. -/
inductive Notice
  /-- Something was lost, by the firmware or for want of room. -/
  | lost
  | malformed
  | flushed
  | stopped
  /-- A read is over. -/
  | completed (error : Option Exception)
  deriving DecidableEq, Repr

/-- The items a queue accepted and lost, and the events of a run. -/
structure Traffic where
  ledger : Ledger ReaderId PASSTHRU_MSG := {}
  events : List Notice := []

namespace CanReceiver

/-- What a receiver makes of a body: nothing once it is stopped. -/
def classify (r : CanReceiver) (body : Bytes) : Inbound :=
  if r.stopped ≠ 0 then .other else inbound (channel_node r.protocol.toNat) body

/-- The items of a body that find room, and those that do not. -/
def admits (r : CanReceiver) (body : Bytes) : List PASSTHRU_MSG :=
  (r.offers (r.classify body)).take (r.limit - r.backlog.length)

def refuses (r : CanReceiver) (body : Bytes) : List PASSTHRU_MSG :=
  refused r.limit r.backlog (r.offers (r.classify body))

/-- The event of a body. -/
def events (r : CanReceiver) (body : Bytes) : List Notice :=
  if r.classify body = .loss ∨ r.refuses body ≠ [] then [.lost]
  else if r.classify body = .malformed then [.malformed]
  else []

end CanReceiver

namespace Traffic

/-- A reader goes on: it may have been handed messages, and it may be done. -/
def read (h : Traffic) (i : ReaderId) (rd rd' : Reader) : Traffic where
  ledger := h.ledger.leave (some i) (rd'.messages.drop rd.messages.length)
  events := h.events ++ match rd'.phase with
    | .done error => [.completed error]
    | _ => []

/-- The queue is discarded. -/
def discard (h : Traffic) (q : List PASSTHRU_MSG) (e : Notice) : Traffic :=
  { ledger := h.ledger.leave none q, events := h.events ++ [e] }

def note (s : Reception) (l : Reception.Label) (s' : Reception) (h : Traffic) : Traffic :=
  match l with
  | .receive body =>
      { ledger := h.ledger.accept (s.receiver.admits body),
        events := h.events ++ s.receiver.events body }
  | .flush_receive => h.discard s.receiver.backlog .flushed
  | .stop _ _ => h.discard s.receiver.backlog .stopped
  | .act i _ =>
      match s.readers i, s'.readers i with
      | some rd, some rd' => h.read i rd rd'
      | _, _ => h
  | _ => h

end Traffic

/-! ## reports -/

/-- What a read throws that reports a loss, and a malformed body. -/
def overflowed : Exception := .Error ERR_BUFFER_OVERFLOW "CAN receive buffer overflow; messages lost"

def discarded : Exception := .Error ERR_INVALID_MSG "malformed CAN receive frame discarded"

/-- A loss that no read has reported and no flush has taken away. -/
def LossDue (es : List Notice) : Prop :=
  Due (· = .lost) (fun e => e = .flushed ∨ e = .completed (some overflowed)) es

/-- So for a malformed body. -/
def MalformedDue (es : List Notice) : Prop :=
  Due (· = .malformed) (fun e => e = .flushed ∨ e = .completed (some discarded)) es

/-- A read that ends after these events reports what is due, a loss first, and nothing
that is not. -/
structure Reports (es : List Notice) (error : Option Exception) : Prop where
  lossDue : error = some overflowed → LossDue es
  loss : .stopped ∉ es → LossDue es → error = some overflowed
  malformedDue : error = some discarded → MalformedDue es ∧ ¬ LossDue es
  malformed : .stopped ∉ es → MalformedDue es → ¬ LossDue es → error = some discarded

/-- Every read of a run ends in keeping with what came before. -/
def reporting : Monitor Notice (List Notice) where
  init := []
  step es e := es ++ [e]
  Allows es e := ∀ error, e = .completed error → Reports es error

/-- The monitor remembers everything there was. -/
theorem state_reporting (es : List Notice) : reporting.state es = es := by
  induction es using List.reverseRecOn with
  | nil => rfl
  | append_singleton es e ih => rw [Monitor.state_concat, ih]; rfl

section due

variable {es : List Notice} {e : Notice}

/-- A loss is due from when it happens until it is reported or flushed. -/
theorem lossDue_concat :
    LossDue (es ++ [e]) ↔ e = .lost ∨ LossDue es ∧ e ≠ .flushed ∧ e ≠ .completed (some overflowed) := by
  simp [LossDue, due_concat_iff]

/-- So is a malformed frame. -/
theorem malformedDue_concat : MalformedDue (es ++ [e]) ↔
    e = .malformed ∨ MalformedDue es ∧ e ≠ .flushed ∧ e ≠ .completed (some discarded) := by
  simp [MalformedDue, due_concat_iff]

/-- A report is lawful if what it reports was due. -/
theorem lawful_concat :
    reporting.Lawful (es ++ [e]) ↔
      reporting.Lawful es ∧ ∀ error, e = .completed error → Reports es error := by
  rw [Monitor.lawful_concat_iff, state_reporting]
  rfl

/-- Only the end of a read is judged. -/
theorem lawful_concat_of_ne (h : reporting.Lawful es) (he : ∀ error, e ≠ .completed error) :
    reporting.Lawful (es ++ [e]) :=
  lawful_concat.mpr ⟨h, fun error hx => absurd hx (he error)⟩

end due

/-! ## flags -/

/-- The flags of a receiver say what is due, and it is stopped if it was told to. -/
structure Flagged (r : CanReceiver) (es : List Notice) : Prop where
  loss : r.overflow = true ↔ LossDue es
  malformed : r.malformed = true ↔ MalformedDue es
  stopped : r.stopped ≠ 0 ↔ .stopped ∈ es
  code : r.stopped = 0 ∨ r.stopped = ERR_INVALID_CHANNEL_ID ∨ r.stopped = ERR_DEVICE_NOT_CONNECTED
  lawful : reporting.Lawful es

namespace Flagged

variable {r r' : CanReceiver} {es : List Notice}

/-- A new receiver has nothing to report. -/
theorem fresh (protocol : UInt32) : Flagged { protocol := protocol } [] where
  loss := by simp [LossDue, not_due_nil]
  malformed := by simp [MalformedDue, not_due_nil]
  stopped := by simp
  code := .inl rfl
  lawful := reporting.lawful_nil

/-- The flags alone decide. -/
theorem congr (h : Flagged r es) (ho : r'.overflow = r.overflow) (hm : r'.malformed = r.malformed)
    (hs : r'.stopped = r.stopped) : Flagged r' es :=
  ⟨ho ▸ h.loss, hm ▸ h.malformed, hs ▸ h.stopped, hs ▸ h.code, h.lawful⟩

/-- A body raises the flag of its event. -/
theorem receive (h : Flagged r es) (body : Bytes) (hr : r.Received (r.classify body) r') :
    Flagged r' (es ++ r.events body) := by
  have hrefuses : (!(refused r.limit r.backlog (r.offers (r.classify body))).isEmpty) =
      decide (r.refuses body ≠ []) := by
    cases hx : refused r.limit r.backlog (r.offers (r.classify body)) <;>
      simp [CanReceiver.refuses, hx]
  have hoverflow := hr.overflow
  have hmalformed := hr.malformed
  rw [hrefuses] at hoverflow
  rw [CanReceiver.events]
  by_cases hlost : r.classify body = .loss ∨ r.refuses body ≠ []
  · have hne : r.classify body ≠ .malformed := by
      intro hx
      simp [CanReceiver.refuses, hx, CanReceiver.offers] at hlost
    rw [if_pos hlost]
    refine ⟨?_, ?_, ?_, hr.stopped ▸ h.code, lawful_concat_of_ne h.lawful (by simp)⟩
    · rw [hoverflow]
      simp only [lossDue_concat]
      rcases hlost with hx | hx <;> simp [hx]
    · simp [hmalformed, hne, malformedDue_concat, h.malformed]
    · simp [hr.stopped, h.stopped]
  · obtain ⟨hloss, hroom⟩ := not_or.mp hlost
    have hroom : r.refuses body = [] := not_not.mp hroom
    rw [if_neg hlost]
    by_cases hbad : r.classify body = .malformed
    · rw [if_pos hbad]
      refine ⟨?_, ?_, ?_, hr.stopped ▸ h.code, lawful_concat_of_ne h.lawful (by simp)⟩
      · simp [hoverflow, hloss, hroom, lossDue_concat, h.loss]
      · simp [hmalformed, hbad, malformedDue_concat]
      · simp [hr.stopped, h.stopped]
    · rw [if_neg hbad, List.append_nil]
      exact h.congr (by simp [hoverflow, hloss, hroom]) (by simp [hmalformed, hbad]) hr.stopped

/-- A flush takes back what was due. -/
theorem flush_receive (h : Flagged r es) : Flagged r.flush_receive (es ++ [.flushed]) where
  loss := by simp [CanReceiver.flush_receive, lossDue_concat]
  malformed := by simp [CanReceiver.flush_receive, malformedDue_concat]
  stopped := by simp [CanReceiver.flush_receive, h.stopped]
  code := h.code
  lawful := lawful_concat_of_ne h.lawful (by simp)

/-- A stop takes nothing back that was due. -/
theorem stop (h : Flagged r es) {code : Int} {reason : String}
    (hcode : code = ERR_INVALID_CHANNEL_ID ∨ code = ERR_DEVICE_NOT_CONNECTED) :
    Flagged (r.stop code reason) (es ++ [.stopped]) where
  loss := by simp [CanReceiver.stop, lossDue_concat, h.loss]
  malformed := by simp [CanReceiver.stop, malformedDue_concat, h.malformed]
  stopped := by
    have hne : code ≠ 0 := by
      obtain rfl | rfl := hcode <;> decide
    by_cases hs : r.stopped = 0 <;> simp [CanReceiver.stop, hs, hne]
  code := by
    have hold := h.code
    by_cases hs : r.stopped = 0
    · simp [CanReceiver.stop, hs, hcode]
    · simpa [CanReceiver.stop, hs] using hold
  lawful := lawful_concat_of_ne h.lawful (by simp)

/-- A read that finds the receiver stopped reports no loss. -/
theorem completed_stopped (h : Flagged r es) (hs : r.stopped ≠ 0) :
    Flagged r (es ++ [.completed (some (.Error r.stopped r.reason))]) := by
  have hcode := h.code.resolve_left hs
  have hne : (Exception.Error r.stopped r.reason) ≠ overflowed ∧
      (Exception.Error r.stopped r.reason) ≠ discarded := by
    obtain hc | hc := hcode <;>
      simp [overflowed, discarded, hc, ERR_INVALID_CHANNEL_ID, ERR_DEVICE_NOT_CONNECTED,
        ERR_BUFFER_OVERFLOW, ERR_INVALID_MSG]
  have hmem : .stopped ∈ es := h.stopped.mp hs
  refine ⟨?_, ?_, by simp [hs, hmem], h.code, lawful_concat.mpr ⟨h.lawful, ?_⟩⟩
  · simp [lossDue_concat, hne.1, h.loss]
  · simp [malformedDue_concat, hne.2, h.malformed]
  · intro error hx
    cases hx
    exact
      { lossDue := fun hx => absurd (Option.some.inj hx) hne.1
        loss := fun hx => absurd hmem hx
        malformedDue := fun hx => absurd (Option.some.inj hx) hne.2
        malformed := fun hx => absurd hmem hx }

/-- A read that leaves its loop reports what is due, and clears that. -/
theorem completed_report (h : Flagged r es) {e : Option Exception} (he : e ≠ some overflowed)
    (he' : e ≠ some discarded) : Flagged r.report.2 (es ++ [.completed (r.report.1.or e)]) := by
  have hne : overflowed ≠ discarded := by decide
  have hloss := h.loss
  have hmalformed := h.malformed
  by_cases ho : r.overflow = true
  · have hr : r.report = (some overflowed, { r with overflow := false }) := if_pos ho
    have hdue := hloss.mp ho
    rw [hr]
    refine ⟨by simp [lossDue_concat], by simp [malformedDue_concat, hne, hmalformed],
      by simp [h.stopped], h.code, lawful_concat.mpr ⟨h.lawful, ?_⟩⟩
    intro error hx
    cases hx
    exact ⟨fun _ => hdue, fun _ _ => rfl, fun hx => absurd (Option.some.inj hx) hne,
      fun _ _ hx => absurd hdue hx⟩
  · have hdue : ¬ LossDue es := fun hx => ho (hloss.mpr hx)
    by_cases hm : r.malformed = true
    · have hr : r.report = (some discarded, { r with malformed := false }) :=
        (if_neg ho).trans (if_pos hm)
      rw [hr]
      refine ⟨by simp [lossDue_concat, hne.symm, hloss], by simp [malformedDue_concat],
        by simp [h.stopped], h.code, lawful_concat.mpr ⟨h.lawful, ?_⟩⟩
      intro error hx
      cases hx
      exact ⟨fun hx => absurd (Option.some.inj hx) hne.symm, fun _ hx => absurd hx hdue,
        fun _ => ⟨hmalformed.mp hm, hdue⟩, fun _ _ _ => rfl⟩
    · have hr : r.report = (none, r) := (if_neg ho).trans (if_neg hm)
      rw [hr, Option.none_or]
      refine ⟨by simp [lossDue_concat, he, hloss], by simp [malformedDue_concat, he', hmalformed],
        by simp [h.stopped], h.code, lawful_concat.mpr ⟨h.lawful, ?_⟩⟩
      intro error hx
      cases hx
      exact ⟨fun hx => absurd hx he, fun _ hx => absurd hx hdue, fun hx => absurd hx he',
        fun _ hx => absurd (hmalformed.mpr hx) hm⟩

end Flagged

/-! ## a step of a reader -/

/-- How a stretch of a read ends: the reader waits, finds the receiver stopped, or is over
and reports. -/
inductive Ending (r r' : CanReceiver) : ReadPhase → Prop
  | waiting (hflags : r'.overflow = r.overflow ∧ r'.malformed = r.malformed) : Ending r r' .waiting
  | stopped (hs : r.stopped ≠ 0) (hflags : r'.overflow = r.overflow ∧ r'.malformed = r.malformed) :
      Ending r r' (.done (some (.Error r.stopped r.reason)))
  | ended (e : Option Exception) (he : e ≠ some overflowed ∧ e ≠ some discarded)
      (hflags : r'.overflow = r.report.2.overflow ∧ r'.malformed = r.report.2.malformed) :
      Ending r r' (.done (r.report.1.or e))

/-- A stretch of a read takes messages from the front of the queue. -/
structure Passed (rd : Reader) (r : CanReceiver) (rd' : Reader) (r' : CanReceiver) : Prop where
  bounded : r'.Bounded
  stopped : r'.stopped = r.stopped
  taken : ∃ items, rd'.messages = rd.messages ++ items ∧ r.backlog = items ++ r'.backlog
  ending : Ending r r' rd'.phase

namespace Reader

variable {rd rd' : Reader} {r r' : CanReceiver}

/-- Too few messages are no loss. -/
theorem shortfall_ne (rd : Reader) :
    rd.shortfall ≠ some overflowed ∧ rd.shortfall ≠ some discarded := by
  unfold shortfall
  split_ifs <;> decide

/-- A report leaves the queues. -/
theorem bounded_report (h : r.Bounded) : r.report.2.Bounded := by
  unfold CanReceiver.report
  split_ifs <;> exact ⟨h.messages, h.frames, h.one⟩

theorem backlog_report (r : CanReceiver) : r.report.2.backlog = r.backlog := by
  unfold CanReceiver.report
  split_ifs <;> rfl

theorem stopped_report (r : CanReceiver) : r.report.2.stopped = r.stopped := by
  unfold CanReceiver.report
  split_ifs <;> rfl

/-- A read that ends passes what it took on to its caller, and reports what is due. -/
theorem passed_finish (rd : Reader) (h : r.Bounded) : Passed rd r (rd.finish r).1 (rd.finish r).2 where
  bounded := bounded_report h
  stopped := stopped_report r
  taken := ⟨[], by simp [finish], (backlog_report r).symm⟩
  ending := .ended _ rd.shortfall_ne ⟨rfl, rfl⟩

/-- Taking messages leaves the flags. -/
theorem report_take (r : CanReceiver) (left : Nat) :
    (r.take left).2.report.1 = r.report.1 ∧
      (r.take left).2.report.2.overflow = r.report.2.overflow ∧
      (r.take left).2.report.2.malformed = r.report.2.malformed := by
  by_cases ho : r.overflow = true <;> by_cases hm : r.malformed = true <;>
    simp [CanReceiver.report, CanReceiver.take, ho, hm]

/-- A pass takes what is there, in order. -/
theorem passed_pass (rd : Reader) (h : r.Bounded) : Passed rd r (rd.pass r).1 (rd.pass r).2 := by
  rw [pass]
  split
  · split
    · next hs => exact ⟨h, rfl, ⟨[], by simp, rfl⟩, .stopped hs ⟨rfl, rfl⟩⟩
    · obtain ⟨hitems, hrest⟩ := r.take_eq h (rd.requested - rd.messages.length)
      have htaken : r.backlog = (r.take (rd.requested - rd.messages.length)).1 ++
          (r.take (rd.requested - rd.messages.length)).2.backlog := by
        rw [hitems, hrest, List.take_append_drop]
      have hbounded := h.take (rd.requested - rd.messages.length)
      obtain ⟨hreport, hflags⟩ := report_take r (rd.requested - rd.messages.length)
      dsimp only
      split
      · refine ⟨bounded_report hbounded, stopped_report _, ⟨_, rfl, ?_⟩, ?_⟩
        · exact htaken.trans (congrArg _ (backlog_report _).symm)
        · simp only [finish, hreport]
          exact .ended _ (shortfall_ne _) hflags
      · exact ⟨hbounded, rfl, ⟨_, rfl, htaken⟩, .waiting ⟨rfl, rfl⟩⟩
  · exact passed_finish rd h

/-- So does every step of a reader. -/
theorem passed_step (h : r.Bounded) {a : ReadAction} (hx : rd.step r a = some (rd', r')) :
    Passed rd r rd' r' := by
  have hpass := passed_pass rd h
  have hfinish := passed_finish rd h
  cases a with
  | lock | wake =>
      simp only [step, Option.ite_none_right_eq_some, Option.some.injEq] at hx
      rw [hx.2] at hpass
      exact hpass
  | expire now =>
      simp only [step, Option.ite_none_right_eq_some, Option.some.injEq] at hx
      rw [hx.2] at hfinish
      exact hfinish

end Reader

namespace Traffic

variable {rd rd' : Reader} {r r' : CanReceiver} {h : Traffic} {i j : ReaderId}

/-- The ending of a read is judged by what came before it. -/
theorem flagged_read (hf : Flagged r h.events) (hp : Passed rd r rd' r') :
    Flagged r' (h.read i rd rd').events := by
  obtain ⟨-, hstopped, -, hending⟩ := hp
  rw [read]
  generalize rd'.phase = p at hending
  cases hending with
  | waiting hflags =>
      rw [List.append_nil]
      exact hf.congr hflags.1 hflags.2 hstopped
  | stopped hs hflags => exact (hf.completed_stopped hs).congr hflags.1 hflags.2 hstopped
  | ended e he hflags =>
      exact (hf.completed_report he.1 he.2).congr hflags.1 hflags.2
        (hstopped.trans (Reader.stopped_report r).symm)

/-- What a reader got is taken off the queue and booked to it. -/
theorem balanced_read (hb : h.ledger.Balanced r.backlog) (hp : Passed rd r rd' r') :
    (h.read i rd rd').ledger.Balanced r'.backlog := by
  obtain ⟨items, hmessages, hbacklog⟩ := hp.taken
  rw [hbacklog] at hb
  rw [read, hmessages, List.drop_left]
  exact hb.leave _

/-- What a reader took is in its hands. -/
theorem handed_read_self (hp : Passed rd r rd' r') (hh : h.ledger.handed i = rd.messages) :
    (h.read i rd rd').ledger.handed i = rd'.messages := by
  obtain ⟨items, hmessages, -⟩ := hp.taken
  rw [read, hmessages, List.drop_left, Ledger.handed_leave_self, hh]

/-- And in nobody else's. -/
theorem handed_read_of_ne (hij : i ≠ j) : (h.read j rd rd').ledger.handed i = h.ledger.handed i :=
  Ledger.handed_leave_of_ne hij

end Traffic

/-! ## runs -/

/-- What every run keeps. -/
structure Accounted (s : Reception) (h : Traffic) : Prop where
  bounded : s.receiver.Bounded
  balanced : h.ledger.Balanced s.receiver.backlog
  handed : ∀ i, h.ledger.handed i = ((s.readers i).map Reader.messages).getD []
  flagged : Flagged s.receiver h.events

namespace CanReceiver

/-- A receiver makes nothing of a body that is not for it. -/
theorem receive_classify {r : CanReceiver} (h : r.Bounded) (body : Bytes) :
    r.receive body = .ok (r.handle (r.classify body)) := by
  rw [receive_eq h, classify]
  split <;> rfl

end CanReceiver

namespace Accounted

variable {s : Reception} {h : Traffic} {r' : CanReceiver}

/-- At first nothing was accepted. -/
theorem fresh (protocol : UInt32) : Accounted (.fresh protocol) {} where
  bounded := ⟨Nat.zero_le _, Nat.zero_le _, by simp [Reception.fresh]⟩
  balanced := by simp [Ledger.Balanced, Reception.fresh, CanReceiver.backlog]
  handed i := rfl
  flagged := .fresh protocol

/-- An operation on the pending writes is none on the queue. -/
theorem congr (hs : Accounted s h) (hq : r'.backlog = s.receiver.backlog) (hb : r'.Bounded)
    (hflags : r'.overflow = s.receiver.overflow ∧ r'.malformed = s.receiver.malformed)
    (hstopped : r'.stopped = s.receiver.stopped) : Accounted { s with receiver := r' } h :=
  ⟨hb, hq ▸ hs.balanced, hs.handed, hs.flagged.congr hflags.1 hflags.2 hstopped⟩

theorem receive (hs : Accounted s h) (body : Bytes) :
    Accounted { s with receiver := s.receiver.handle (s.receiver.classify body) }
      { ledger := h.ledger.accept (s.receiver.admits body),
        events := h.events ++ s.receiver.events body } := by
  have hr := CanReceiver.received_handle hs.bounded (s.receiver.classify body)
  exact ⟨hr.bounded, hr.backlog ▸ hs.balanced.accept, hs.handed, hs.flagged.receive body hr⟩

/-- A flush discards what is queued. -/
theorem flush_receive (hs : Accounted s h) :
    Accounted { s with receiver := s.receiver.flush_receive }
      (h.discard s.receiver.backlog .flushed) where
  bounded := s.receiver.bounded_flush_receive
  balanced := by
    rw [CanReceiver.backlog_flush_receive]
    exact Ledger.Balanced.leave ((List.append_nil _).symm ▸ hs.balanced) none
  handed i := Ledger.handed_leave_none.trans (hs.handed i)
  flagged := hs.flagged.flush_receive

/-- So does a stop. -/
theorem stop (hs : Accounted s h) {code : Int} {reason : String}
    (hcode : code = ERR_INVALID_CHANNEL_ID ∨ code = ERR_DEVICE_NOT_CONNECTED) :
    Accounted { s with receiver := s.receiver.stop code reason }
      (h.discard s.receiver.backlog .stopped) where
  bounded := s.receiver.bounded_stop code reason
  balanced := by
    rw [CanReceiver.backlog_stop]
    exact Ledger.Balanced.leave ((List.append_nil _).symm ▸ hs.balanced) none
  handed i := Ledger.handed_leave_none.trans (hs.handed i)
  flagged := hs.flagged.stop hcode

/-- A step of a reader hands out what it took from the front. -/
theorem act (hs : Accounted s h) {i : ReaderId} {rd rd' : Reader} (hi : s.readers i = some rd)
    (hp : Passed rd s.receiver rd' r') :
    Accounted { receiver := r', readers := Function.update s.readers i (some rd') }
      (h.read i rd rd') where
  bounded := hp.bounded
  balanced := Traffic.balanced_read hs.balanced hp
  handed j := by
    by_cases hji : j = i
    · subst hji
      have hhanded := Traffic.handed_read_self hp (i := j) (h := h) (by rw [hs.handed, hi]; rfl)
      simpa using hhanded
    · simpa [hji, Traffic.handed_read_of_ne hji] using hs.handed j
  flagged := Traffic.flagged_read hs.flagged hp

/-- A step keeps the accounts. -/
theorem step (hs : Accounted s h) {l : Reception.Label} {s' : Reception} (ht : s.step l = some s') :
    Accounted s' (Traffic.note s l s' h) := by
  have hb := hs.bounded
  cases l with
  | receive body =>
      rw [Reception.step, CanReceiver.receive_classify hb] at ht
      cases ht
      exact hs.receive body
  | note_transmit message sequence call =>
      cases ht
      simp only [CanReceiver.note_transmit, CanReceiver.make_room]
      split <;> exact hs.congr rfl ⟨hb.messages, hb.frames, hb.one⟩ ⟨rfl, rfl⟩ rfl
  | forget_transmit | forget_transmits | set_loopback =>
      cases ht
      exact hs.congr rfl ⟨hb.messages, hb.frames, hb.one⟩ ⟨rfl, rfl⟩ rfl
  | flush_receive =>
      cases ht
      exact hs.flush_receive
  | stop code reason =>
      rw [Reception.step, Option.ite_none_right_eq_some] at ht
      obtain ⟨hcode, ht⟩ := ht
      cases ht
      exact hs.stop hcode
  | read i requested timeout now =>
      rw [Reception.step, Option.ite_none_right_eq_some, Option.isNone_iff_eq_none] at ht
      obtain ⟨hi, ht⟩ := ht
      cases ht
      refine ⟨hb, hs.balanced, fun j => ?_, hs.flagged⟩
      by_cases hji : j = i
      · subst hji
        simp [Traffic.note, hs.handed, hi, Reader.enter]
      · simp [Traffic.note, hs.handed, hji]
  | act i a =>
      rw [Reception.step, Option.bind_eq_some_iff] at ht
      obtain ⟨rd, hi, ht⟩ := ht
      obtain ⟨⟨rd', r'⟩, hx, ht⟩ := Option.map_eq_some_iff.mp ht
      cases ht
      simp only [Traffic.note, hi, Function.update_self]
      exact hs.act hi (Reader.passed_step hb hx)

/-- Every run is accounted for. -/
theorem run {protocol : UInt32} {ls : List Reception.Label}
    (hrun : Run.run (Run.recording Reception.step Traffic.note) (.fresh protocol, {}) ls = some (s, h)) :
    Accounted s h :=
  Run.invariant (I := fun t => Accounted t.1 t.2)
    (fun (t, k) l (t', k') ht hstep => by
      obtain ⟨hk, rfl⟩ := Run.recording_eq_some_iff.mp hstep
      exact Accounted.step ht hk)
    (fresh protocol) hrun

end Accounted

namespace Reception

/-- Items are refused by a full queue only. -/
theorem full_of_refuses {s s' : Reception} (hb : s.receiver.Bounded) {body : Bytes}
    (ht : s.step (.receive body) = some s') (hr : s.receiver.refuses body ≠ []) :
    s'.receiver.backlog.length = s.receiver.limit := by
  rw [step, CanReceiver.receive_classify hb] at ht
  cases ht
  rw [(CanReceiver.received_handle hb _).backlog]
  exact length_fill_of_refused hb.length_backlog hr

/-- **The receive queue is first in, first out, and loses nothing unseen.**  What was
accepted has been handed out or discarded in that order, or is queued; each reader has what
it was handed; the queues keep their bounds, and refuse only when they are full; and every
read that ends reports the losses that are due, and no others. -/
theorem receive_queue {protocol : UInt32} {ls : List Label} {s : Reception} {h : Traffic}
    (hrun : Run.run (Run.recording step Traffic.note) (fresh protocol, {}) ls = some (s, h)) :
    h.ledger.Balanced s.receiver.backlog ∧
    (∀ i rd, s.readers i = some rd → rd.messages = h.ledger.handed i) ∧
    (s.receiver.frames.length ≤ 4096 ∧ s.receiver.messages.length ≤ 256) ∧
    Run.Along step (fun t l t' => ∀ body, l = .receive body → t.receiver.refuses body ≠ [] →
      t'.receiver.backlog.length = t.receiver.limit) (fresh protocol) ls ∧
    ∀ es error es', h.events = es ++ .completed error :: es' → Reports es error := by
  have hs := Accounted.run hrun
  refine ⟨hs.balanced, fun i rd hi => ?_, ⟨hs.bounded.frames, hs.bounded.messages⟩, ?_, ?_⟩
  · rw [hs.handed, hi]
    rfl
  · refine Run.along_of_invariant (I := fun t => ∃ k, Accounted t k) ?_ ?_ ⟨{}, .fresh protocol⟩
    · rintro t l t' ⟨k, hk⟩ ht
      exact ⟨_, hk.step ht⟩
    · rintro t l t' ⟨k, hk⟩ ht body rfl hr
      exact full_of_refuses hk.bounded ht hr
  · intro es error es' hes
    have hlawful := hs.flagged.lawful es (.completed error) es' hes
    rw [state_reporting] at hlawful
    exact hlawful error rfl

/-- A frame reaches a reader that waits, and the next reader learns of a malformed body. -/
def heard : List Label :=
  [.read 0 1 100 0, .act 0 .lock,
    .receive ([0, 0, 1, 5, 9, 0, 0, 0, 0, 0, 0, 0, 0, 0, 0, 0, 0, 0, 0, 0, 0, 0, 5, 0] ++
      [0, 0, 7, 0xe8, 1]),
    .act 0 .wake, .receive [0, 0, 1, 5, 9, 0, 0, 0, 0, 0, 0, 0], .read 1 1 0 0, .act 1 .lock]

/-- A loss that is followed by a read, and a malformed frame by another. -/
theorem receive_queue_two :
    ∃ s h, Run.run (Run.recording step Traffic.note) (fresh CAN, {}) heard = some (s, h) ∧
      h.events = [.completed none, .malformed] ++ .completed (some discarded) :: [] ∧
      Reports [.completed none, .malformed] (some discarded) := by
  have hrun : Run.run (Run.recording step Traffic.note) (fresh CAN, {}) heard = some (_, _) := rfl
  exact ⟨_, _, hrun, rfl, (receive_queue hrun).2.2.2.2 _ _ [] rfl⟩

end Reception

end Mongoose
