import Mongoose.Ascii
import Mongoose.Lib.Resource
import Mongoose.Lib.Run
import Mongoose.Tools.SocketCan
import Mongoose.Tools.Steps

/-!
# Mongoose.Tools.Bridge

The bridge as a program: its options, its threads and what it takes hold of.

`main` opens everything, forwards from the interface to the vehicle itself, and gives
everything back; one thread forwards the other way and one may print statistics.  A label
is what one of them does between two operations that others can see, with what the
library, the kernel and the interface answer, so the runs of `step` are the interleavings
of all three.  No flag is ever cleared, so a loop's test of both is one step.
-/

namespace Mongoose

namespace SocketCan

/-! ## options -/

structure options where
  device : Option Bytes := none
  interface : Option Bytes := none
  bitrate : Nat := 500000
  connect_flags : UInt32 := 0
  transmit : Bool := false
  stats_seconds : Nat := 0
  deriving DecidableEq, Repr

/-- `strtoul` with base 10, over the whole of a text that does not begin with a minus. -/
def parse_number (text : Bytes) (maximum : Nat) : Option Nat :=
  let unsigned (negative : Bool) (body : Bytes) : Option Nat :=
    let (ds, rest) := ScriptRunner.digits 10 body
    let value := ds.foldl (fun v d => v * 10 + d) 0
    let parsed := if negative then (2 ^ 64 - value) % 2 ^ 64 else value
    if value ≥ 2 ^ 64 ∨ ds = [] ∨ rest ≠ [] ∨ text.head? = some 45 ∨ parsed > maximum then none else some parsed
  match text.dropWhile isspace with
  | 45 :: body => unsigned true body
  | 43 :: body => unsigned false body
  | body => unsigned false body

/-- An option with a number: the number, if the option is this one, and the word and the rest that the following
conditions see.  They see the next word once `parse_number` has been called with it. -/
def take_number (name : String) (maximum : Nat) (word : Bytes) (rest : List Bytes) : Option Nat × Bytes × List Bytes :=
  match rest with
  | text :: rest' => if word = ascii name then (parse_number text maximum, text, rest') else (none, word, rest)
  | [] => (none, word, rest)

/-- The loop of `parse` with `n` turns left. -/
def parse_words : Nat → List Bytes → options → Option options
  | _, [], o => if o.interface = none then none else some o
  | 0, _ :: _, _ => none
  | n + 1, word :: rest, o =>
      if word = ascii "--device" ∧ rest ≠ [] then parse_words n rest.tail { o with device := rest.head? }
      else
        match take_number "--bitrate" 1000000 word rest with
        | (some (value + 1), _, rest) => parse_words n rest { o with bitrate := value + 1 }
        | (_, word, rest) =>
            if word = ascii "--29bit" then parse_words n rest { o with connect_flags := CAN_29BIT_ID }
            else if word = ascii "--transmit" then parse_words n rest { o with transmit := true }
            else
              match take_number "--stats" 86400 word rest with
              | (some value, _, rest) => parse_words n rest { o with stats_seconds := value }
              | (none, word, rest) =>
                  if word.head? ≠ some 45 ∧ o.interface = none then parse_words n rest { o with interface := some word }
                  else none

/-- `parse`, without the name of the program. -/
def parse (argv : List Bytes) : Option options := parse_words argv.length argv {}

example : parse [ascii "--bitrate", ascii "125000", ascii "--transmit", ascii "can0"] =
    some { bitrate := 125000, transmit := true, interface := some (ascii "can0") } := by decide
-- a bit rate that is not a number is taken for the interface
example : parse [ascii "--bitrate", ascii "125k"] = some { interface := some (ascii "125k") } := by decide

/-! ## threads -/

def batch : Nat := 32

def EINTR : Int := 4

def fatal (status : Int) : Bool :=
  status = ERR_DEVICE_NOT_CONNECTED || status = ERR_INVALID_CHANNEL_ID || status = ERR_INVALID_DEVICE_ID

/-- Where `host_to_vehicle` stands. -/
inductive HostPhase
  | testing
  | polling
  /-- About to receive, with the messages that are in the batch. -/
  | receiving (messages : List PASSTHRU_MSG)
  /-- Has received a frame that does not go on; about to count it. -/
  | refusing (messages : List PASSTHRU_MSG)
  | writing (messages : List PASSTHRU_MSG)
  /-- The batch is written; about to count what was sent of it, and then what was not. -/
  | sent (count sent : Nat) (status : Int)
  | rest (count : Nat) (status : Int)
  /-- About to set `failed`, and then to leave the loop or to go on. -/
  | failing (leaves : Bool)
  deriving DecidableEq, Repr

/-- Where `main` stands; at the labels of its end with the result. -/
inductive MainPhase
  | opening_interface
  | opening
  | connecting
  | filtering
  | creating_reader
  | creating_reporter
  | host (p : HostPhase)
  | joining_reader
  | joining_reporter
  | stop_filter (result : Int)
  | disconnect (result : Int)
  | close_device (result : Int)
  | close_socket (result : Int)
  | exited (result : Int)
  deriving DecidableEq, Repr

/-- Where the thread in `vehicle_to_host` stands. -/
inductive ReaderPhase
  | testing
  /-- About to read a batch without waiting, or one message with a wait. -/
  | draining
  | blocking
  | overflowed (messages : List PASSTHRU_MSG)
  | failing
  /-- About to write a frame; those behind it are still to come. -/
  | forwarding (frame : can_frame) (frames : List can_frame)
  | counting (written : Bool) (frames : List can_frame)
  | exited
  deriving DecidableEq, Repr

/-- Where the thread in `print_stats` stands. -/
inductive ReporterPhase
  | testing
  | waiting (waited : Nat)
  | sleeping (waited : Nat)
  | deciding
  | printing
  | exited
  deriving DecidableEq, Repr

/-- `struct bridge`, the flag of the signal handler and the threads.  A thread is none before it is created and once
it was joined.  The counters are the sums that the source keeps in `atomic_ulong`: nothing is decided by them, and
they are equal to those as long as they stay below `2 ^ 64`. -/
structure Bridge where
  options : options
  stopping : Bool := false
  failed : Bool := false
  to_bus : Nat := 0
  to_host : Nat := 0
  refused : Nat := 0
  overflows : Nat := 0
  host_drops : Nat := 0
  device : UInt32 := 0
  channel : UInt32 := 0
  filter : UInt32 := 0
  main : MainPhase := .opening_interface
  reader : Option ReaderPhase := none
  reporter : Option ReporterPhase := none

namespace Bridge

/-- The loops are to end. -/
def Ends (b : Bridge) : Prop := b.stopping = true ∨ b.failed = true

instance (b : Bridge) : Decidable b.Ends := inferInstanceAs (Decidable (_ ∨ _))

/-! ## steps -/

inductive MainStep
  /-- `open_interface`: the index of the interface, the socket and what `bind` returns. -/
  | open_interface (index : Nat) (fd bind : Int)
  | PassThruOpen (status : Int) (device : UInt32)
  | PassThruConnect (status : Int) (channel : UInt32)
  | PassThruStartMsgFilter (status : Int) (filter : UInt32)
  /-- `pthread_create`, with what it returns. -/
  | create (error : Int)
  | test
  | poll (ready errno : Int)
  /-- A whole frame, or nothing. -/
  | recv (frame : Option can_frame)
  | PassThruWriteMsgs (sent : Nat) (status : Int)
  | count
  | fail
  | join
  | PassThruStopMsgFilter
  | PassThruDisconnect
  | PassThruClose
  | close
  deriving DecidableEq, Repr

inductive ReaderStep
  | test
  | PassThruReadMsgs (messages : List PASSTHRU_MSG) (status : Int)
  | count
  | fail
  /-- Whether `write` takes the whole frame. -/
  | write (whole : Bool)
  deriving DecidableEq, Repr

inductive ReporterStep
  | test
  | sleep
  | print
  deriving DecidableEq, Repr

inductive Label
  | signal
  | main (a : MainStep)
  | reader (a : ReaderStep)
  | reporter (a : ReporterStep)
  deriving DecidableEq, Repr

/-- The receive loop goes on until the batch is full. -/
def received (messages : List PASSTHRU_MSG) : HostPhase :=
  if messages.length < batch then .receiving messages else .writing messages

/-- The write loop of one pass of `vehicle_to_host`. -/
def forward : List can_frame → ReaderPhase
  | [] => .testing
  | frame :: frames => .forwarding frame frames

/-- What a frame of the interface becomes: a message for the vehicle, if the bridge transmits. -/
def accepts (b : Bridge) (frame : can_frame) : Option PASSTHRU_MSG :=
  if b.options.transmit then from_socketcan frame else none

/-- One step of `host_to_vehicle`; `main` goes on from there. -/
def host (b : Bridge) : HostPhase → MainStep → Option Bridge
  | .testing, .test => some { b with main := if b.Ends then .joining_reader else .host .polling }
  | .polling, .poll ready errno =>
      some { b with
        main := .host (if ready < 0 ∧ errno ≠ EINTR then .failing true
          else if ready ≤ 0 then .testing else .receiving []) }
  | .receiving messages, .recv frame =>
      match frame with
      | none => some { b with main := .host (if messages = [] then .testing else .writing messages) }
      | some frame =>
          match b.accepts frame with
          | some message => some { b with main := .host (received (messages ++ [message])) }
          | none => some { b with main := .host (.refusing messages) }
  | .refusing messages, .count => some { b with refused := b.refused + 1, main := .host (.receiving messages) }
  | .writing messages, .PassThruWriteMsgs sent status =>
      -- the library never counts more than it was given
      if sent ≤ messages.length then some { b with main := .host (.sent messages.length sent status) } else none
  | .sent count sent status, .count =>
      some { b with
        to_bus := b.to_bus + sent
        main := .host (if sent < count then .rest (count - sent) status
          else if fatal status then .failing false else .testing) }
  | .rest count status, .count =>
      some { b with refused := b.refused + count, main := .host (if fatal status then .failing false else .testing) }
  | .failing leaves, .fail => some { b with failed := true, main := if leaves then .joining_reader else .host .testing }
  | _, _ => none

/-- One step of `main`. -/
def mainStep (b : Bridge) : MainPhase → MainStep → Option Bridge
  | .opening_interface, .open_interface index fd bind =>
      some { b with main := if index = 0 ∨ fd < 0 ∨ bind < 0 then .exited 1 else .opening }
  | .opening, .PassThruOpen status device =>
      if status ≠ 0 then some { b with main := .close_socket 1 }
      else some { b with device := device, main := .connecting }
  | .connecting, .PassThruConnect status channel =>
      if status ≠ 0 then some { b with main := .close_device 1 }
      else some { b with channel := channel, main := .filtering }
  | .filtering, .PassThruStartMsgFilter status filter =>
      if status ≠ 0 then some { b with main := .disconnect 1 }
      else some { b with filter := filter, main := .creating_reader }
  | .creating_reader, .create error =>
      if error ≠ 0 then some { b with main := .stop_filter 1 }
      else some { b with
        reader := some .testing
        main := if b.options.stats_seconds = 0 then .host .testing else .creating_reporter }
  | .creating_reporter, .create error =>
      some { b with reporter := if error = 0 then some .testing else none, main := .host .testing }
  | .host p, a => b.host p a
  | .joining_reader, .join =>
      if b.reader = some .exited then some { b with reader := none, main := .joining_reporter } else none
  | .joining_reporter, .join =>
      if b.reporter = none ∨ b.reporter = some .exited then
        some { b with reporter := none, main := .stop_filter (if b.failed then 1 else 0) }
      else none
  | .stop_filter result, .PassThruStopMsgFilter => some { b with main := .disconnect result }
  | .disconnect result, .PassThruDisconnect => some { b with main := .close_device result }
  | .close_device result, .PassThruClose => some { b with main := .close_socket result }
  | .close_socket result, .close => some { b with main := .exited result }
  | _, _ => none

/-- What a read comes to. -/
def heard (messages : List PASSTHRU_MSG) (status : Int) : ReaderPhase :=
  if status = ERR_BUFFER_OVERFLOW then .overflowed messages
  else if fatal status then .failing
  else forward (vehicle_to_host messages)

/-- One step of the thread in `vehicle_to_host`. -/
def readerStep (b : Bridge) : ReaderPhase → ReaderStep → Option Bridge
  | .testing, .test => some { b with reader := some (if b.Ends then .exited else .draining) }
  | .draining, .PassThruReadMsgs messages status =>
      -- no more than was asked for, and nothing from an empty buffer
      if messages.length ≤ batch ∧ (status = ERR_BUFFER_EMPTY → messages = []) then
        some { b with reader := some (if status = ERR_BUFFER_EMPTY then .blocking else heard messages status) }
      else none
  | .blocking, .PassThruReadMsgs messages status =>
      if messages.length ≤ 1 ∧ (status = ERR_BUFFER_EMPTY → messages = []) then
        some { b with reader := some (heard messages status) }
      else none
  | .overflowed messages, .count =>
      some { b with overflows := b.overflows + 1, reader := some (forward (vehicle_to_host messages)) }
  | .failing, .fail => some { b with failed := true, reader := some .exited }
  | .forwarding _ frames, .write whole => some { b with reader := some (.counting whole frames) }
  | .counting whole frames, .count =>
      some { b with
        to_host := if whole then b.to_host + 1 else b.to_host
        host_drops := if whole then b.host_drops else b.host_drops + 1
        reader := some (forward frames) }
  | _, _ => none

/-- One step of the thread in `print_stats`. -/
def reporterStep (b : Bridge) : ReporterPhase → ReporterStep → Option Bridge
  | .testing, .test => some { b with reporter := some (if b.Ends then .exited else .waiting 0) }
  | .waiting waited, .test =>
      some { b with
        reporter := some (if waited < b.options.stats_seconds * 10 ∧ ¬ b.Ends then .sleeping waited else .deciding) }
  | .sleeping waited, .sleep => some { b with reporter := some (.waiting (waited + 1)) }
  | .deciding, .test => some { b with reporter := some (if b.Ends then .exited else .printing) }
  | .printing, .print => some { b with reporter := some .testing }
  | _, _ => none

/-- One step of the program.  A signal is caught once the interface is open, and changes nothing when it comes again. -/
def step (b : Bridge) : Label → Option Bridge
  | .signal => if b.stopping ∨ b.main = .opening_interface then none else some { b with stopping := true }
  | .main a => b.mainStep b.main a
  | .reader a => b.reader.bind fun p => b.readerStep p a
  | .reporter a => b.reporter.bind fun p => b.reporterStep p a

/-- `main` with these arguments: the program, or the code it exits with at once. -/
def start (argv : List Bytes) : Except Int Bridge :=
  if argv = [ascii "--help"] ∨ argv = [ascii "-h"] then .error 0
  else
    match parse argv with
    | none => .error 2
    | some o => .ok { options := o }

/-! ## what a run leaves behind -/

/-- What the program holds: each thing with the handles it was got with. -/
inductive Hold
  | socket
  | device (d : UInt32)
  | channel (d c : UInt32)
  | filter (d c f : UInt32)
  | reader (d c f : UInt32)
  deriving DecidableEq, Repr

/-- What is kept of a run. -/
structure Log where
  ops : List (Resource.Op Hold) := []
  /-- The frames that were received of the interface, and the batches that were written to the vehicle. -/
  taken : List can_frame := []
  batches : List (List PASSTHRU_MSG) := []
  /-- The messages that were read of the vehicle, and those of the read that failed for good. -/
  read : List PASSTHRU_MSG := []
  lost : List PASSTHRU_MSG := []
  /-- How many reads said that the buffer had run over. -/
  overflows : Nat := 0
  /-- The frames that were written to the interface, and whether it took them. -/
  written : List (can_frame × Bool) := []

namespace Log

/-- The operations of a step. -/
def operations (b : Bridge) : Label → List (Resource.Op Hold)
  | .main (.open_interface index fd bind) =>
      if index = 0 ∨ fd < 0 then [] else .acquire .socket :: if bind < 0 then [.release .socket] else []
  | .main (.PassThruOpen status d) => if status ≠ 0 then [] else [.acquire (.device d)]
  | .main (.PassThruConnect status c) =>
      .use (.device b.device) :: if status ≠ 0 then [] else [.acquire (.channel b.device c)]
  | .main (.PassThruStartMsgFilter status f) =>
      .use (.channel b.device b.channel) ::
        if status ≠ 0 then [] else [.acquire (.filter b.device b.channel f)]
  | .main (.create error) =>
      if b.main = .creating_reader ∧ error = 0 then [.acquire (.reader b.device b.channel b.filter)] else []
  | .main (.poll ..) | .main (.recv _) | .reader (.write _) => [.use .socket]
  | .main (.PassThruWriteMsgs ..) | .reader (.PassThruReadMsgs ..) => [.use (.channel b.device b.channel)]
  | .main .join => if b.main = .joining_reader then [.release (.reader b.device b.channel b.filter)] else []
  | .main .PassThruStopMsgFilter =>
      [.use (.channel b.device b.channel), .release (.filter b.device b.channel b.filter)]
  | .main .PassThruDisconnect => [.release (.channel b.device b.channel)]
  | .main .PassThruClose => [.release (.device b.device)]
  | .main .close => [.release .socket]
  | _ => []

/-- The traffic of a step. -/
def traffic (b : Bridge) (a : Label) (log : Log) : Log :=
  match a with
  | .main (.recv (some frame)) => { log with taken := log.taken ++ [frame] }
  | .main (.PassThruWriteMsgs ..) =>
      match b.main with
      | .host (.writing messages) => { log with batches := log.batches ++ [messages] }
      | _ => log
  | .reader (.PassThruReadMsgs messages status) =>
      { log with
        read := log.read ++ messages
        lost := if fatal status then log.lost ++ messages else log.lost
        overflows := if status = ERR_BUFFER_OVERFLOW then log.overflows + 1 else log.overflows }
  | .reader (.write whole) =>
      match b.reader with
      | some (.forwarding frame _) => { log with written := log.written ++ [(frame, whole)] }
      | _ => log
  | _ => log

def note (b : Bridge) (a : Label) (_ : Bridge) (log : Log) : Log :=
  { traffic b a log with ops := log.ops ++ operations b a }

end Log

/-- The steps of the program with their log. -/
def logged : Bridge × Log → Label → Option (Bridge × Log) := Run.recording step Log.note

end Bridge

end SocketCan

end Mongoose
