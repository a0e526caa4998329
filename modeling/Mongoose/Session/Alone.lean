import Mongoose.Can.Echo
import Mongoose.Lib.Simulation
import Mongoose.Session.Matching
import Mongoose.Session.Waits

/-!
# Mongoose.Session.Alone

The receivers of a session, one by one.

A receiver shares the session with others, and with commands, closers and whoever reads
it.  `reception_run` says that this does not show: seen from one receiver, a run of a
session is a run of the receiver alone with its readers, which is given the bodies that
the session hears while it is installed.  So what holds of a `Reception` holds of each
receiver of a session.
-/

namespace Mongoose

open Simulation

/-- What a receiver sees: a body, or that its queue is flushed. -/
inductive Sight
  | body (body : Bytes)
  | flushed
  deriving DecidableEq, Repr

def Reception.Label.sight : Reception.Label → Option Sight
  | .receive body => some (.body body)
  | .flush_receive => some .flushed
  | _ => none

/-- A receiver and its readers go from one state to another, and see this on the way. -/
abbrev Reception.Plays (t t' : Reception) (sights : List Sight) : Prop :=
  Simulation.Plays Reception.step Reception.Label.sight t t' sights

/-- A step of a receiver that is alone plays what it sees. -/
theorem Reception.plays {t t' : Reception} {l : Reception.Label} (h : t.step l = some t') :
    t.Plays t' l.sight.toList := .single h

/-! ## one receiver -/

namespace CanReceiver

variable {readers : ReaderId → Option Reader} {r r' : CanReceiver}

/-- A receiver goes on alone, while its readers stand still. -/
abbrev Plays (readers : ReaderId → Option Reader) (r r' : CanReceiver) (sights : List Sight) : Prop :=
  Reception.Plays ⟨r, readers⟩ ⟨r', readers⟩ sights

theorem plays_step {l : Reception.Label} (h : Reception.step ⟨r, readers⟩ l = some ⟨r', readers⟩) :
    Plays readers r r' l.sight.toList := Reception.plays h

theorem plays_receive {body : Bytes} (h : r.receive body = .ok r') : Plays readers r r' [.body body] :=
  plays_step (l := .receive body) (by simp [Reception.step, h, Except.toOption])

/-- Nothing is seen of a note, -/
theorem plays_note (r : CanReceiver) (message : PASSTHRU_MSG) (sequence : Nat) (call : Option TransmitCall) :
    Plays readers r (r.note_transmit message sequence call) [] :=
  plays_step (l := .note_transmit message sequence call) rfl

/-- nor of a stop. -/
theorem plays_stop (r : CanReceiver) {code : Int} (reason : String)
    (hcode : code = ERR_INVALID_CHANNEL_ID ∨ code = ERR_DEVICE_NOT_CONNECTED) :
    Plays readers r (r.stop code reason) [] :=
  plays_step (l := .stop code reason) (by simp [Reception.step, hcode])

/-- The record that is dropped to make room goes as if a write had been noted and refused. -/
theorem plays_make_room (r : CanReceiver) : Plays readers r r.make_room [] := by
  have hnote : Plays readers r _ [] := plays_note r {} 0 none
  have hforget : Plays readers (r.note_transmit {} 0 none) (r.note_transmit {} 0 none).forget_transmit [] :=
    plays_step (l := .forget_transmit) rfl
  have heq : (r.note_transmit {} 0 none).forget_transmit = r.make_room := by
    simp [note_transmit, forget_transmit]
  exact heq ▸ hnote.trans hforget

end CanReceiver

/-! ## one session -/

/-- A channel uses its receiver, but does not read it, which is for the readers. -/
def ReceiverOp.Direct : ReceiverOp → Prop
  | .take _ | .report => False
  | .stop code _ => code = ERR_DEVICE_NOT_CONNECTED
  | _ => True

/-- What a receiver sees of a channel that uses it. -/
def ReceiverOp.sights : ReceiverOp → List Sight
  | .flush_receive => [.flushed]
  | _ => []

/-- What is done to a receiver directly is played. -/
theorem CanReceiver.plays_op {readers : ReaderId → Option Reader} (r : CanReceiver) {op : ReceiverOp}
    (hop : op.Direct) : CanReceiver.Plays readers r (op.apply r) op.sights := by
  cases op with
  | forget_transmit => exact plays_step (l := .forget_transmit) rfl
  | forget_transmits => exact plays_step (l := .forget_transmits) rfl
  | flush_receive => exact plays_step (l := .flush_receive) rfl
  | set_loopback enabled => exact plays_step (l := .set_loopback enabled) rfl
  | stop code reason => exact plays_stop r reason (.inr hop)
  | take | report => exact hop.elim

namespace Session

variable {s s' s'' : Session} {r : ReceiverRef} {readers : ReaderId → Option Reader} {sights : List Sight}

/-- One receiver of a session goes on. -/
abbrev Plays (readers : ReaderId → Option Reader) (r : ReceiverRef) (s s' : Session) (sights : List Sight) : Prop :=
  CanReceiver.Plays readers (s.receivers r) (s'.receivers r) sights

/-- What leaves all receivers plays nothing. -/
theorem plays_of_eq (h : s'.receivers = s.receivers) : Plays readers r s s' [] := .of_eq (by rw [h])

/-- What one receiver does, the others do not see. -/
theorem plays_of_update {q : ReceiverRef} {receiver : CanReceiver}
    (hs : s'.receivers = Function.update s.receivers q receiver)
    (h : CanReceiver.Plays readers (s.receivers q) receiver sights) :
    Plays readers r s s' (if q = r then sights else []) := by
  by_cases hq : q = r
  · subst hq
    rw [if_pos rfl, Plays, hs, Function.update_self]
    exact h
  · rw [if_neg hq]
    exact .of_eq (by rw [hs, Function.update_of_ne (Ne.symm hq)])

/-- Nor does what touches another receiver. -/
theorem plays_of_quiet {q : ReceiverRef} {receiver : CanReceiver}
    (hs : s'.receivers = Function.update s.receivers q receiver)
    (h : CanReceiver.Plays readers (s.receivers q) receiver []) : Plays readers r s s' [] := by
  have hplays := plays_of_update (r := r) hs h
  rwa [ite_self] at hplays

/-- Stopping the channel's receiver is quiet, -/
theorem plays_stop_receiver (s : Session) {code : Int} (reason : String)
    (hcode : code = ERR_INVALID_CHANNEL_ID ∨ code = ERR_DEVICE_NOT_CONNECTED) :
    Plays readers r s (s.stop_receiver code reason) [] := by
  cases hr : s.can_receiver with
  | none => exact plays_of_eq (by simp [stop_receiver, hr])
  | some q =>
      exact plays_of_quiet (q := q) (by simp [stop_receiver, hr]) (CanReceiver.plays_stop _ reason hcode)

/-- and so is replacing it. -/
theorem plays_set_can_receiver (s : Session) (receiver : Option ReceiverRef) :
    Plays readers r s (s.set_can_receiver receiver) [] := by
  have hretire : Plays readers r s _ [] := plays_stop_receiver s "CAN channel retired" (.inl rfl)
  rw [set_can_receiver]
  split
  · exact hretire
  · exact hretire.trans (plays_stop_receiver
      { s.stop_receiver ERR_INVALID_CHANNEL_ID "CAN channel retired" with can_receiver := receiver }
      "device connection lost" (.inr rfl))

/-- What a receiver sees of some bodies. -/
def given (s : Session) (r : ReceiverRef) (bodies : List Bytes) : List Sight :=
  if s.can_receiver = some r then bodies.map .body else []

/-- A body is played by the receiver it is given to. -/
theorem plays_dispatch {body : Bytes} (h : s.dispatch body = .ok s') :
    Plays readers r s s' (s.given r [body]) := by
  obtain ⟨hnone, h⟩ | ⟨q, receiver, hq, hreceive, h⟩ := receivers_of_dispatch h
  · rw [given, if_neg (by rw [hnone]; nofun)]
    exact plays_of_eq h
  · have hplays : Plays readers r s s' _ := plays_of_update h (CanReceiver.plays_receive hreceive)
    simpa [given, hq] using hplays

/-- So are all bodies of a chunk. -/
theorem plays_dispatches {bodies : List Bytes} (h : bodies.foldlM dispatch s = .ok s') :
    Plays readers r s s' (s.given r bodies) := by
  induction bodies generalizing s with
  | nil =>
      obtain rfl := Except.ok.inj h
      rw [given]
      split <;> exact .refl _
  | cons body bodies ih =>
      obtain ⟨t, ht, h⟩ := bind_ok h
      have hcur : t.given r bodies = s.given r bodies := by
        rw [given, given, dispatch_ok ht]
      have hsplit : s.given r (body :: bodies) = s.given r [body] ++ s.given r bodies := by
        rw [given, given, given]
        split <;> rfl
      rw [hsplit, ← hcur]
      exact (plays_dispatch ht).trans (ih h)

theorem plays_receive {bytes : Bytes} (h : s.receive bytes = .ok s') :
    Plays readers r s s' (s.given r (s.arrived bytes)) := by
  obtain ⟨⟨bodies, decoder⟩, hfeed, h⟩ := bind_ok h
  have hgiven : s.given r (s.arrived bytes) = ({ s with decoder := decoder } : Session).given r bodies := by
    rw [arrived, hfeed]
    rfl
  rw [hgiven]
  exact plays_dispatches (s := { s with decoder := decoder }) h

end Session

/-- A command notes its write, makes room for it, or stops the receiver that is installed. -/
theorem Took.plays {c : CallId} {s s' : Session} {call call' : Call} {a : Action} {r : ReceiverRef}
    {readers : ReaderId → Option Reader} (h : Took c s call a s' call') : Session.Plays readers r s s' [] := by
  cases h with
  | known hp =>
      rw [Call.known]
      cases call.command.sequence_known with
      | none => exact .refl _
      | some record => exact Session.plays_of_quiet (q := record.receiver) rfl (CanReceiver.plays_note ..)
  | knownThrows record e hp hr =>
      exact Session.plays_of_quiet (q := record.receiver) rfl (CanReceiver.plays_make_room _)
  | abandon e hp =>
      exact Session.plays_stop_receiver { s with pending := 0, failure := _ } _ (.inr rfl)
  | expire now hp hr hu hd =>
      exact Session.plays_stop_receiver { s with pending := 0, failure := _ } _ (.inr rfl)
  | _ => exact Session.plays_of_eq rfl

/-! ## the system -/

namespace Station

/-- What a receiver sees of a step. -/
def gives (r : ReceiverRef) (s : Station) : Label → List Sight
  | .world (.receive bytes) => s.world.session.given r (s.world.session.arrived bytes)
  | .world (.client q op) => if q = r then op.sights else []
  | _ => []

/-- The steps of a session whose channels read their receivers as readers do. -/
def Label.Direct : Label → Prop
  | .world (.client _ op) => op.Direct
  | _ => True

/-- One receiver of a session, and who reads it. -/
def reception (s : Station) (r : ReceiverRef) : Reception where
  receiver := s.receivers r
  readers i := (s.readers i).bind fun x => if x.1 = r then some x.2 else none

/-- The steps of a session, and what a receiver has seen. -/
def watching (r : ReceiverRef) : Station × List Sight → Label → Option (Station × List Sight) :=
  Run.recording step fun s l _ sights => sights ++ s.gives r l

/-- Every step plays what the receiver sees of it. -/
theorem world_plays {w w' : World} {l : Mongoose.Label} {r : ReceiverRef} {readers : ReaderId → Option Reader}
    (hl : ∀ q op, l = .client q op → op.Direct) (h : w.step l = some w') :
    Session.Plays readers r w.session w'.session (match l with
      | .receive bytes => w.session.given r (w.session.arrived bytes)
      | .client q op => if q = r then op.sights else []
      | _ => []) := by
  obtain ⟨c, cmd, now, rfl, -, rfl⟩ | ⟨c, a, call, s, call', rfl, hc, ht, rfl⟩ | ⟨k, a, s, p, rfl, hk, rfl⟩ |
    ⟨s, hl', he, rfl⟩ := World.step_cases h
  · exact .refl _
  · exact ht.plays
  · cases a with
    | mark =>
        obtain ⟨-, hk⟩ := Option.ite_none_right_eq_some.mp hk
        rw [Session.mark_closing] at hk
        split at hk
        · cases hk
          exact .refl _
        · cases hk
          exact Session.plays_stop_receiver { w.session with closing := true } _ (.inr rfl)
    | lock | drain | stop | done =>
        obtain ⟨-, hk⟩ := Option.ite_none_right_eq_some.mp hk
        cases hk
        exact .refl _
  · cases l with
    | receive bytes => exact Session.plays_receive (Session.receive_of_environment he)
    | failed reason =>
        cases he
        exact Session.plays_stop_receiver { w.session with failure := _ } _ (.inr rfl)
    | set_can_receiver receiver =>
        cases he
        exact Session.plays_set_can_receiver ..
    | client q op =>
        cases he
        exact Session.plays_of_update (q := q) rfl (CanReceiver.plays_op _ (hl q op rfl))
    | enter | act | close => cases he

variable {s s' : Station} {r : ReceiverRef}

/-- The readers of a receiver after one of a session's has moved. -/
theorem readers_update (s : Station) (r : ReceiverRef) (i : ReaderId) (q : ReceiverRef) (rd : Reader) :
    (fun j => (Function.update s.readers i (some (q, rd)) j).bind fun x => if x.1 = r then some x.2 else none) =
      Function.update (s.reception r).readers i (if q = r then some rd else none) := by
  funext j
  by_cases hj : j = i
  · subst hj
    simp
  · simp [Function.update_of_ne hj, reception]

/-- The readers of another receiver do not show. -/
theorem readers_update_of_ne {i : ReaderId} {q : ReceiverRef} (hq : q ≠ r) (hnone : (s.reception r).readers i = none)
    (rd : Reader) :
    (fun j => (Function.update s.readers i (some (q, rd)) j).bind fun x => if x.1 = r then some x.2 else none) =
      (s.reception r).readers := by
  rw [readers_update, if_neg hq]
  exact Function.update_eq_self_iff.mpr hnone.symm

/-- **One step of a session, seen from one receiver.** -/
theorem step_plays {l : Label} (hl : l.Direct) (h : s.step l = some s') (r : ReceiverRef) :
    (s.reception r).Plays (s'.reception r) (s.gives r l) := by
  cases l with
  | world l =>
      obtain ⟨w, hw, rfl⟩ := Option.map_eq_some_iff.mp h
      have hplays : Session.Plays (s.reception r).readers r _ _ _ :=
        world_plays (fun q op hop => by subst hop; exact hl) hw
      cases l <;> exact hplays
  | read i q requested timeout now =>
      obtain ⟨hnone, h⟩ := Option.ite_none_right_eq_some.mp h
      cases h
      have hnone : s.readers i = none := by simpa using hnone
      have hview : (s.reception r).readers i = none := by simp [reception, hnone]
      by_cases hq : q = r
      · have hafter := readers_update s r i q (.enter requested timeout now)
        rw [if_pos hq] at hafter
        refine Reception.plays (l := .read i requested timeout now) ?_
        simp only [Reception.step, hview, Option.isNone_none, if_true]
        rw [← hafter]
        rfl
      · refine .of_eq ?_
        show _ = (⟨_, _⟩ : Reception)
        rw [readers_update_of_ne hq hview]
        rfl
  | act i a =>
      obtain ⟨⟨q, rd⟩, hi, h⟩ := Option.bind_eq_some_iff.mp h
      obtain ⟨⟨rd', receiver⟩, hstep, rfl⟩ := Option.map_eq_some_iff.mp h
      by_cases hq : q = r
      · subst hq
        have hafter := readers_update s q i q rd'
        have hview : (s.reception q).readers i = some rd := by simp [reception, hi]
        have hnext : (s.reception q).receiver = s.receivers q := rfl
        rw [if_pos rfl] at hafter
        refine Reception.plays (l := .act i a) ?_
        simp only [Reception.step, hview, hnext, Option.bind_some, hstep, Option.map_some]
        rw [← hafter]
        simp [reception, receivers, Session.update_receiver]
      · have hview : (s.reception r).readers i = none := by simp [reception, hi, hq]
        refine .of_eq ?_
        show _ = (⟨_, _⟩ : Reception)
        rw [readers_update_of_ne hq hview]
        simp [reception, receivers, Session.update_receiver, Function.update_of_ne (Ne.symm hq)]
  | await i q call target deadline =>
      obtain ⟨-, h⟩ := Option.ite_none_right_eq_some.mp h
      cases h
      exact .refl _
  | wait i a =>
      obtain ⟨⟨q, x⟩, -, h⟩ := Option.bind_eq_some_iff.mp h
      obtain ⟨x', -, rfl⟩ := Option.map_eq_some_iff.mp h
      exact .refl _

/-! ## over a run -/

variable {protocol : ReceiverRef → UInt32} {ls : List Label} {sights : List Sight}

/-- A run of the session is one of the receiver alone, with the same sights. -/
theorem reception_run (hl : ∀ l ∈ ls, l.Direct) (h : Run.run (watching r) (opened protocol, []) ls = some (s, sights)) :
    (Reception.fresh (protocol r)).Plays (s.reception r) sights :=
  exists_run (fun s => s.reception r) (fun _ _ _ hl hm => step_plays hl hm r) hl h

/-- **A receiver is alone with its readers.**  Whatever else goes on in a session, each of its receivers is where a
receiver would be that no session shares, and that was given the bodies that arrived while it was installed and
the flushes of its channel, in this order: the same queue, the same readers with the same messages, the same
records and counts.  What its queue accepted is what these bodies brought, and its readers have been handed all
of it in that order, but for what was discarded and what is queued. -/
theorem receivers_alone (hl : ∀ l ∈ ls, l.Direct) (r : ReceiverRef)
    (h : Run.run (watching r) (opened protocol, []) ls = some (s, sights)) :
    ∃ ks j, Run.run (Run.recording Reception.step Reception.journal) (.fresh (protocol r), {}) ks =
        some (s.reception r, j) ∧
      ks.filterMap Reception.Label.sight = sights ∧
      (∀ i rd, s.readers i = some (r, rd) → rd.messages = j.traffic.ledger.handed i) ∧
      j.traffic.ledger.accepted = j.arrivals.flatMap Arrival.items ∧
      j.traffic.ledger.accepted = j.traffic.ledger.gone.map Prod.snd ++ (s.receivers r).backlog := by
  obtain ⟨ks, hrun, hsights⟩ := reception_run hl h
  obtain ⟨j, hj⟩ := Run.exists_recording Reception.journal hrun {}
  have hs := Echoed.run hj
  refine ⟨ks, j, hj, hsights, fun i rd hi => ?_, hs.accepted, hs.accounted.balanced⟩
  have hview : (s.reception r).readers i = some rd := by simp [reception, hi]
  rw [hs.accounted.handed, hview]
  rfl

/-- A channel is opened and a frame arrives for a reader, while another receiver goes unread. -/
def tuned : List Label :=
  [.read 0 0 1 100 0, .world (.set_can_receiver (some 0)), .act 0 .lock, .read 1 1 1 100 0, .act 1 .lock,
    .world (.receive ([29, 0, 0xfb, 0x51] ++ [0, 0, 1, 5, 9, 0, 0, 0, 0, 0, 0, 0, 0, 0, 0, 0, 0, 0, 0, 0, 0, 0, 5, 0] ++
      [0, 0, 7, 0xe8, 1])), .act 0 .wake]

instance (op : ReceiverOp) : Decidable op.Direct := by
  unfold ReceiverOp.Direct
  split <;> infer_instance

instance (l : Label) : Decidable l.Direct := by
  unfold Label.Direct
  split <;> infer_instance

/-- The reader of the channel gets the frame; the other receiver has seen nothing. -/
theorem receivers_alone_tuned :
    ∃ s sights rd ks j, Run.run (watching 0) (opened fun _ => CAN, []) tuned = some (s, sights) ∧
      s.readers 0 = some (0, rd) ∧ rd.messages.length = 1 ∧ rd.messages = j.traffic.ledger.handed 0 ∧
      Run.run (Run.recording Reception.step Reception.journal) (.fresh CAN, {}) ks = some (s.reception 0, j) ∧
      ks.filterMap Reception.Label.sight = sights := by
  have hdone : (Run.run (watching 0) (opened fun _ => CAN, []) tuned).map
      (fun x => (x.1.readers 0).map fun rd => (rd.1, rd.2.messages.length)) = some (some (0, 1)) := by
    decide +kernel
  obtain ⟨⟨s, sights⟩, hrun, hs⟩ := Option.map_eq_some_iff.mp hdone
  obtain ⟨⟨q, rd⟩, hrd, hlen⟩ := Option.map_eq_some_iff.mp hs
  obtain ⟨rfl, hlen⟩ := Prod.mk.inj hlen
  obtain ⟨ks, j, hj, hsights, hreaders, -, -⟩ := receivers_alone (by decide) 0 hrun
  exact ⟨s, sights, rd, ks, j, hrun, hrd, hlen, hreaders 0 rd hrd, hj, hsights⟩

end Station

end Mongoose
