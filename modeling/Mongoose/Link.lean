import Mongoose.Lib.Product
import Mongoose.Session.Matching
import Mongoose.Tty.Line

/-!
# Mongoose.Link

A session over the tty transport.

The threads inside the transport are those that hold `transaction_`: a command in its
send, a closer in its stop.  The session and the transport step together where one calls
the other: a command enters `send` with its frame and the time that is left, it learns
there how the send ended, the worker hands a chunk to `receive` or a failure to `failed`,
and a closer waits for `stop`.
-/

namespace Mongoose

/-- A step of a session over its transport. -/
inductive Link.Label
  /-- A step that does not leave the session, and one that does not leave the transport. -/
  | session (l : Mongoose.Label)
  | transport (a : Line.Label Holder)
  /-- A command enters `send`; it returns, or throws. -/
  | send (c : CallId)
  | sendReturns (c : CallId)
  | sendThrows (c : CallId)
  /-- The worker's callbacks. -/
  | receive
  | failed
  /-- A closer enters `stop`, and comes back. -/
  | stop (k : CloserId)
  | stopped (k : CloserId)

/-- A step of the session alone. -/
def Label.Outside : Mongoose.Label → Prop
  | .act _ .send | .act _ .sendReturns | .act _ (.sendThrows _) | .receive _ | .failed _ | .close _ .stop
  | .close _ .done => False
  | _ => True

instance (l : Mongoose.Label) : Decidable l.Outside := by
  unfold Label.Outside
  split <;> infer_instance

/-- A step of the transport alone.  The session's callback does not throw, see `receive_enabled`. -/
def Line.Label.Inside (worker : Option PumpPhase) : Line.Label Holder → Prop
  | .send _ (.enter ..) | .stop _ .enter | .pump .receive | .pump .report => False
  | .pump (.throws _) => ∀ bytes, worker ≠ some (.delivering bytes)
  | _ => True

instance (worker : Option PumpPhase) (a : Line.Label Holder) : Decidable (a.Inside worker) := by
  unfold Line.Label.Inside
  split
  · infer_instance
  · infer_instance
  · infer_instance
  · infer_instance
  · exact match worker with
      | some (.delivering bytes) => isFalse fun h => h bytes rfl
      | none | some .top | some .polling | some .reading | some (.tracing _) | some (.faulting _)
      | some (.reporting _) | some .exited => isTrue nofun
  · infer_instance

/-- The session and the transport, with what a run of each leaves behind. -/
abbrev Link := (World × World.Log) × (Line Holder × Line.Log Holder)

namespace Link

abbrev world (k : Link) : World := k.1.1

/-- What the session has heard. -/
abbrev heard (k : Link) : World.Log := k.1.2

abbrev line (k : Link) : Line Holder := k.2.1

abbrev log (k : Link) : Line.Log Holder := k.2.2

/-- What the session and the transport do in a step. -/
def parts (k : Link) : Label → Option (Option Mongoose.Label × Option (Line.Label Holder))
  | .session l => if l.Outside then some (some l, none) else none
  | .transport a => if a.Inside k.line.tty.worker then some (none, some a) else none
  | .send c =>
      (k.world.calls c).bind fun call =>
        match call.phase with
        | .sending remaining =>
            some (some (.act c .send), some (.send (.command c) (.enter call.wire remaining.toNat)))
        | _ => none
  | .sendReturns c =>
      if k.line.threads (.command c) = some .sent then some (some (.act c .sendReturns), none) else none
  | .sendThrows c =>
      match k.line.threads (.command c) with
      | some (.threw e) => some (some (.act c (.sendThrows e)), none)
      | _ => none
  | .receive =>
      match k.line.tty.worker with
      | some (.delivering bytes) => some (some (.receive bytes), some (.pump .receive))
      | _ => none
  | .failed =>
      match k.line.tty.worker with
      | some (.reporting reason) => some (some (.failed reason), some (.pump .report))
      | _ => none
  | .stop j => some (some (.close j .stop), some (.stop (.close j) .enter))
  | .stopped j =>
      if k.line.threads (.close j) = some (.stop .done) then some (some (.close j .done), none) else none

/-- One step of the session and the transport. -/
def step (strerror : Int → String) : Link → Label → Option Link :=
  Product.step (Run.recording World.step World.Log.note) (Line.logged strerror) parts

/-- A session that was just made over a transport that was just started. -/
def opened (protocol : ReceiverRef → UInt32) (line : Line Holder) (log : Line.Log Holder) : Link :=
  ((World.opened protocol, {}), (line, log))

end Link

end Mongoose
