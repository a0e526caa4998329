import Mongoose.Ascii
import Mongoose.J2534
import Mongoose.Lib.Twin
import Mongoose.Tools.ScriptRunner

/-!
# Mongoose.Tools.Steps

The steps of the script runner.

`run_step` interprets the tokens of a line: it looks symbols, numbers, flags, data and
handles up, makes a library call and names the handle that comes of it.  In a dry run it
does all of this but the call.  What the library, the clock and the memory answer is a
`Library` on a state of its own.  The lines that the steps print are left out.
-/

namespace Mongoose

namespace ScriptRunner

/-! ## how a step stops -/

/-- Why a step does not end well. -/
inductive Stop
  /-- A complaint, and the step returns 1. -/
  | complained (text : Bytes)
  /-- `die`: a complaint, and `exit(2)`. -/
  | died (text : Bytes)
  /-- The library call returned an error. -/
  | failed (operation : String) (result : Int)
  /-- `ReadMsgs` returned more than it was asked for. -/
  | overrun (got : UInt32)
  | out_of_memory
  /-- The readings of the clock that a read loop was given do not end it. -/
  | unfinished
  deriving DecidableEq, Repr

namespace Stop

/-- It is not the script that is at fault. -/
def Outside : Stop → Prop
  | .complained _ | .died _ => False
  | _ => True

end Stop

def complain {α : Type} (text : String) (about : Bytes := []) (rest : String := "") : Except Stop α :=
  .error (.complained (ascii text ++ about ++ ascii rest))

def die {α : Type} (text : String) (about : Bytes := []) : Except Stop α := .error (.died (ascii text ++ about))

/-! ## numbers and symbols -/

/-- A digit of a base up to 16. -/
def digit_of (base : Nat) (c : UInt8) : Option Nat := (digit c).filter fun d => d < base

/-- The digits at the front of a text, and what is behind them. -/
def digits (base : Nat) : Bytes → List Nat × Bytes
  | [] => ([], [])
  | c :: text =>
      match digit_of base c with
      | none => ([], c :: text)
      | some d => ((d :: (digits base text).1), (digits base text).2)

/-- The base that `strtoull` finds for itself, and where the digits begin. -/
def detect_base : Bytes → Nat × Bytes
  | 48 :: x :: d :: text =>
      if (x = 120 ∨ x = 88) ∧ (digit d).isSome then (16, d :: text) else (8, 48 :: x :: d :: text)
  | 48 :: text => (8, 48 :: text)
  | text => (10, text)

/-- `strtoull` with base 0: the value and the end.  Without digits the end is the text. -/
def strtoull (text : Bytes) : Nat × Bytes :=
  let unsigned (negative : Bool) (body : Bytes) : Nat × Bytes :=
    let (base, body) := detect_base body
    let (ds, rest) := digits base body
    let value := ds.foldl (fun v d => v * base + d) 0
    if ds = [] then (0, text)
    else if value ≥ 2 ^ 64 then (2 ^ 64 - 1, rest)
    else (if negative then (2 ^ 64 - value) % 2 ^ 64 else value, rest)
  match text.dropWhile isspace with
  | 45 :: body => unsigned true body
  | 43 :: body => unsigned false body
  | body => unsigned false body

def number (text : Bytes) : Except Stop UInt32 :=
  let (value, rest) := strtoull text
  if text = [] ∨ rest ≠ [] ∨ value > 0xffffffff then die "invalid number: " text else .ok (UInt32.ofNat value)

example : number (ascii "0x1F") = .ok 31 := by decide
-- a negative number wraps before it is compared
example : number (ascii "-18446744073709551615") = .ok 1 := by decide

def lower (c : UInt8) : UInt8 := if 65 ≤ c ∧ c ≤ 90 then c + 32 else c

/-- Equal up to case. -/
def eq (a b : Bytes) : Bool := a.map lower = b.map lower

def ISO15765_ADDR_TYPE : UInt32 := 0x80

abbrev Table := List (String × UInt32)

def protocols : Table :=
  [("J1850VPW", J1850VPW), ("J1850PWM", 2), ("ISO9141", 3), ("ISO14230", 4), ("CAN", CAN), ("ISO15765", ISO15765),
    ("CAN_PS", 0x8004), ("ISO15765_PS", 0x8005)]

def filter_types : Table := [("PASS", PASS_FILTER), ("BLOCK", BLOCK_FILTER), ("FLOW", FLOW_CONTROL_FILTER)]

def ioctls : Table :=
  [("GET_CONFIG", GET_CONFIG), ("SET_CONFIG", SET_CONFIG), ("READ_VBATT", READ_VBATT),
    ("CLEAR_TX_BUFFER", CLEAR_TX_BUFFER), ("CLEAR_RX_BUFFER", CLEAR_RX_BUFFER),
    ("CLEAR_PERIODIC_MSGS", CLEAR_PERIODIC_MSGS), ("CLEAR_MSG_FILTERS", CLEAR_MSG_FILTERS),
    ("READ_PROG_VOLTAGE", READ_PROG_VOLTAGE)]

def tx_flags : Table :=
  [("NONE", 0), ("CAN_29BIT_ID", CAN_29BIT_ID), ("ISO15765_FRAME_PAD", ISO15765_FRAME_PAD),
    ("ISO15765_ADDR_TYPE", ISO15765_ADDR_TYPE)]

def lookup (table : Table) (text : Bytes) : Except Stop UInt32 :=
  match table.find? fun entry => eq (ascii entry.1) text with
  | some entry => .ok entry.2
  | none => number text

def bar : UInt8 := 124
def comma : UInt8 := 44
def equals : UInt8 := 61

/-- Flag words may be OR-ed with a vertical bar. -/
def lookup_flags (table : Table) (text : Bytes) : Except Stop UInt32 :=
  if text.length ≥ 160 then die "flags too long: " text
  else (text.splitOn bar).foldlM (fun value part => (value ||| ·) <$> lookup table part) 0

/-- Pairs of hexadecimal digits. -/
def hex_pairs : Bytes → Option Bytes
  | [] => some []
  | [_] => none
  | hi :: lo :: text => do
      let hi ← digit hi
      let lo ← digit lo
      let rest ← hex_pairs text
      some (UInt8.ofNat (hi * 16 + lo) :: rest)

/-- The whole data field as hex; the identifier is in its first four bytes. -/
def set_data (message : PASSTHRU_MSG) (hex : Bytes) : Except Stop PASSTHRU_MSG :=
  if hex.length % 2 ≠ 0 ∨ hex.length / 2 > dataCapacity then die "bad hex: " hex
  else
    match hex_pairs hex with
    | none => die "bad hex: " hex
    | some bytes =>
        .ok { message with
          Data := dataField bytes, length_Data := length_dataField bytes, DataSize := UInt32.ofNat (hex.length / 2) }

/-! ## handles -/

def SLOTS : Nat := 128

/-- `sizeof(slots[0].name)`. -/
def name_size : Nat := 24

/-- The handles that a script has named. -/
abbrev Handles := List (Bytes × UInt32)

/-- The first slot of that name takes the handle. -/
def replace (name : Bytes) (handle : UInt32) : Handles → Handles
  | [] => []
  | slot :: slots => if eq slot.1 name then (slot.1, handle) :: slots else slot :: replace name handle slots

def slot_set (slots : Handles) (name : Bytes) (handle : UInt32) : Except Stop Handles :=
  if name.length ≥ name_size then die "handle name too long: " name
  else if slots.any fun slot => eq slot.1 name then .ok (replace name handle slots)
  else if slots.length = SLOTS then die "too many handles"
  else .ok (slots ++ [(name, handle)])

/-- A bare number is used verbatim. -/
def slot_get (slots : Handles) (name : Bytes) : Except Stop UInt32 :=
  match slots.find? fun slot => eq slot.1 name with
  | some slot => .ok slot.2
  | none => if name.head?.any fun c => 48 ≤ c && c ≤ 57 then number name else die "unknown handle: " name

/-! ## the library -/

inductive LibraryCall
  | PassThruOpen (name : Option Bytes)
  | PassThruClose (device : UInt32)
  | PassThruReadVersion (device : UInt32)
  | PassThruConnect (device protocol flags baud : UInt32)
  | PassThruDisconnect (channel : UInt32)
  | PassThruStartMsgFilter (channel type : UInt32) (mask pattern : PASSTHRU_MSG) (flow : Option PASSTHRU_MSG)
  | PassThruStopMsgFilter (channel filter : UInt32)
  | PassThruReadMsgs (channel count timeout : UInt32)
  | PassThruWriteMsgs (channel : UInt32) (message : PASSTHRU_MSG) (timeout : UInt32)
  | PassThruStartPeriodicMsg (channel : UInt32) (message : PASSTHRU_MSG) (interval : UInt32)
  | PassThruStopPeriodicMsg (channel periodic : UInt32)
  | GetConfig (channel : UInt32) (parameters : List UInt32)
  | SetConfig (channel : UInt32) (parameters : List (UInt32 × UInt32))
  | ReadVbatt (device : UInt32)
  | PassThruIoctl (handle ioctl_id : UInt32)
  deriving DecidableEq, Repr

/-- What a call returns, and the handle or the count it stores. -/
structure Reply where
  result : Int := STATUS_NOERROR
  value : UInt32 := 1
  deriving DecidableEq, Repr

/-- The library, the clock and the memory. -/
structure Library (σ : Type) where
  call : LibraryCall → σ → Reply × σ
  monotonic_ms : σ → Nat × σ
  calloc : σ → Bool × σ

/-- The state of a run. -/
structure Runner (σ : Type) where
  slots : Handles := []
  library : σ
  deriving Repr

abbrev Steps (σ α : Type) := Proc Stop (Runner σ) α

section steps

variable {σ : Type} (library : Library σ)

/-- What the library or the machine answers. -/
def ask {α : Type} (question : σ → α × σ) : Steps σ α := do
  let runner ← Proc.read
  let (answer, state) := question runner.library
  Proc.alter fun runner => { runner with library := state }
  pure answer

variable (dry : Bool)

/-- `CALL`: in a dry run every library call becomes a success that produced nothing. -/
def CALL (call : LibraryCall) : Steps σ Reply := if dry then pure {} else ask (library.call call)

/-- A call whose failure fails the step. -/
def perform (operation : String) (call : LibraryCall) : Steps σ UInt32 := do
  let reply ← CALL library dry call
  if reply.result ≠ STATUS_NOERROR then throw (.failed operation reply.result)
  pure reply.value

def get (name : Bytes) : Steps σ UInt32 := do
  let runner ← Proc.read
  Proc.of (slot_get runner.slots name)

def set (name : Bytes) (handle : UInt32) : Steps σ Unit := do
  let runner ← Proc.read
  let slots ← Proc.of (slot_set runner.slots name handle)
  Proc.alter fun runner => { runner with slots := slots }

/-- `NEED`: there are fewer than `n` tokens. -/
def NEED (token : List Bytes) (n : Nat) : Steps σ Unit :=
  Proc.of (complain "step " (token.headD []) (" needs " ++ toString (n - 1) ++ " arguments"))

/-! ## the verbs -/

def sleep : List Bytes → Steps σ Unit
  | _ :: ms :: _ => do let _ ← Proc.of (number ms)
  | token => NEED token 2

/-- `open HANDLE` -/
def open_device (open_name : Option Bytes) : List Bytes → Steps σ Unit
  | _ :: name :: _ => do
      let device ← perform library dry "Open" (.PassThruOpen open_name)
      set name device
  | token => NEED token 2

/-- A step of one handle and a call: `close HANDLE`, `version HANDLE`, `disconnect CHAN`, `vbatt DEV`. -/
def on_handle (operation : String) (call : UInt32 → LibraryCall) : List Bytes → Steps σ Unit
  | _ :: name :: _ => do
      let handle ← get name
      let _ ← perform library dry operation (call handle)
  | token => NEED token 2

def close : List Bytes → Steps σ Unit := on_handle library dry "Close" .PassThruClose
def version : List Bytes → Steps σ Unit := on_handle library dry "ReadVersion" .PassThruReadVersion
def disconnect : List Bytes → Steps σ Unit := on_handle library dry "Disconnect" .PassThruDisconnect
def vbatt : List Bytes → Steps σ Unit := on_handle library dry "Ioctl READ_VBATT" .ReadVbatt

/-- A step of a channel and something on it: `stopfilter CHAN FILTER`, `stopperiodic CHAN NAME`. -/
def on_handles (operation : String) (call : UInt32 → UInt32 → LibraryCall) : List Bytes → Steps σ Unit
  | _ :: channel :: name :: _ => do
      let channel ← get channel
      let handle ← get name
      let _ ← perform library dry operation (call channel handle)
  | token => NEED token 3

def stopfilter : List Bytes → Steps σ Unit := on_handles library dry "StopMsgFilter" .PassThruStopMsgFilter
def stopperiodic : List Bytes → Steps σ Unit := on_handles library dry "StopPeriodicMsg" .PassThruStopPeriodicMsg

/-- `connect DEV PROTOCOL FLAGS BAUD CHAN` -/
def connect : List Bytes → Steps σ Unit
  | _ :: device :: protocol :: flags :: baud :: name :: _ => do
      let protocol ← Proc.of (lookup protocols protocol)
      let flags ← Proc.of (lookup_flags tx_flags flags)
      let baud ← Proc.of (number baud)
      let device ← get device
      let channel ← perform library dry "Connect" (.PassThruConnect device protocol flags baud)
      set name channel
  | token => NEED token 6

/-- `filter CHAN TYPE PROTOCOL FLAGS MASK PATTERN [FLOW] NAME` -/
def filter : List Bytes → Steps σ Unit
  | verb :: channel :: type :: protocol :: flags :: mask :: pattern :: flow :: rest => do
      let type ← Proc.of (lookup filter_types type)
      let protocol ← Proc.of (lookup protocols protocol)
      let flags ← Proc.of (lookup_flags tx_flags flags)
      let message : PASSTHRU_MSG := { ProtocolID := protocol, TxFlags := flags }
      if type = FLOW_CONTROL_FILTER then
        match rest with
        | [] => NEED [verb] 9
        | name :: _ =>
            let mask ← Proc.of (set_data message mask)
            let pattern ← Proc.of (set_data message pattern)
            let flow ← Proc.of (set_data message flow)
            let channel ← get channel
            let id ← perform library dry "StartMsgFilter" (.PassThruStartMsgFilter channel type mask pattern (some flow))
            set name id
      else
        let mask ← Proc.of (set_data message mask)
        let pattern ← Proc.of (set_data message pattern)
        let channel ← get channel
        let id ← perform library dry "StartMsgFilter" (.PassThruStartMsgFilter channel type mask pattern none)
        -- without a flow message the name stands in its place
        set flow id
  | token => NEED token 8

/-- The rounds of a read loop, while `more` says so of the milliseconds since it `started`. -/
def read_rounds (channel wanted timeout : UInt32) (more : Option (Nat → Bool)) (started : Nat) : Nat → Steps σ Unit
  | 0 => throw .unfinished
  | rounds + 1 => do
      let reply ← ask (library.call (.PassThruReadMsgs channel wanted timeout))
      if reply.value > wanted then throw (.overrun reply.value)
      -- an empty buffer is a normal outcome for a timed read
      if reply.result ≠ STATUS_NOERROR ∧ reply.result ≠ ERR_BUFFER_EMPTY ∧ reply.result ≠ ERR_TIMEOUT then
        throw (.failed "ReadMsgs" reply.result)
      match more with
      | none => pure ()
      | some more =>
          let now ← ask library.monotonic_ms
          if more (now - started) then read_rounds channel wanted timeout (some more) started rounds

/-- The buffer, the clock and the loop of a read; a dry run has none of it. -/
def reading (rounds : Nat) (channel wanted timeout : UInt32) (more : Option (Nat → Bool)) : Steps σ Unit :=
  if dry then pure ()
  else do
    let allocated ← ask library.calloc
    if ¬ allocated then throw .out_of_memory
    let started ← ask library.monotonic_ms
    read_rounds library channel wanted timeout more started rounds

/-- `readstats CHAN COUNT TIMEOUT SECONDS` -/
def readstats (rounds : Nat) : List Bytes → Steps σ Unit
  | _ :: channel :: wanted :: timeout :: seconds :: _ => do
      let channel ← get channel
      let wanted ← Proc.of (number wanted)
      let timeout ← Proc.of (number timeout)
      let seconds ← Proc.of (number seconds)
      if wanted = 0 ∨ wanted > 1024 then Proc.of (complain "readstats count must be 1..1024")
      reading library dry rounds channel wanted timeout (some fun elapsed => elapsed < seconds.toNat * 1000)
  | token => NEED token 5

/-- `read CHAN COUNT TIMEOUT`, or with `readfor` also `SECONDS`. -/
def read (readfor : Bool) (rounds : Nat) : List Bytes → Steps σ Unit
  | verb :: channel :: wanted :: timeout :: rest => do
      let channel ← get channel
      let wanted ← Proc.of (number wanted)
      let timeout ← Proc.of (number timeout)
      let seconds ← Proc.of (match readfor, rest with
        | false, _ => .ok 0
        | true, [] => complain "step " verb " needs 4 arguments"
        | true, seconds :: _ => number seconds)
      if wanted = 0 ∨ wanted > 256 then Proc.of (complain "read count must be 1..256")
      reading library dry rounds channel wanted timeout
        (if seconds = 0 then none else some fun elapsed => elapsed < seconds.toNat * 1000)
  | token => NEED token 4

/-- `write CHAN PROTOCOL FLAGS HEX TIMEOUT` -/
def write : List Bytes → Steps σ Unit
  | _ :: channel :: protocol :: flags :: hex :: timeout :: _ => do
      let protocol ← Proc.of (lookup protocols protocol)
      let flags ← Proc.of (lookup_flags tx_flags flags)
      let message ← Proc.of (set_data { ProtocolID := protocol, TxFlags := flags } hex)
      let timeout ← Proc.of (number timeout)
      let channel ← get channel
      let _ ← perform library dry "WriteMsgs" (.PassThruWriteMsgs channel message timeout)
  | token => NEED token 6

/-- `periodic CHAN PROTOCOL FLAGS HEX INTERVAL_MS NAME` -/
def periodic : List Bytes → Steps σ Unit
  | _ :: channel :: protocol :: flags :: hex :: interval :: name :: _ => do
      let protocol ← Proc.of (lookup protocols protocol)
      let flags ← Proc.of (lookup_flags tx_flags flags)
      let message ← Proc.of (set_data { ProtocolID := protocol, TxFlags := flags } hex)
      let interval ← Proc.of (number interval)
      let channel ← get channel
      let id ← perform library dry "StartPeriodicMsg" (.PassThruStartPeriodicMsg channel message interval)
      set name id
  | token => NEED token 7

/-- The first 64 parts of a list of parameters; the others are not looked at. -/
def parts (text : Bytes) : Except Stop (List Bytes) :=
  if text.length ≥ 512 then complain "parameter list too long" else .ok ((text.splitOn comma).take 64)

/-- `PARAM=VALUE` -/
def assignment (part : Bytes) : Except Stop (UInt32 × UInt32) :=
  match part.dropWhile fun c => c ≠ equals with
  | [] => complain "setconfig needs PARAM=VALUE"
  | _ :: value => do
      let parameter ← number (part.takeWhile fun c => c ≠ equals)
      let value ← number value
      .ok (parameter, value)

/-- `getconfig CHAN PARAM[,PARAM...]`: a rejected selector is itself a finding. -/
def getconfig : List Bytes → Steps σ Unit
  | _ :: channel :: text :: _ => do
      let parts ← Proc.of (parts text)
      let parameters ← Proc.of (parts.mapM number)
      let channel ← get channel
      let _ ← CALL library dry (.GetConfig channel parameters)
  | token => NEED token 3

/-- `setconfig CHAN PARAM=VALUE[,...]` -/
def setconfig : List Bytes → Steps σ Unit
  | _ :: channel :: text :: _ => do
      let parts ← Proc.of (parts text)
      let parameters ← Proc.of (parts.mapM assignment)
      let channel ← get channel
      let _ ← perform library dry "Ioctl SET_CONFIG" (.SetConfig channel parameters)
  | token => NEED token 3

/-- `ioctl HANDLE NAME`, for those without an argument. -/
def ioctl : List Bytes → Steps σ Unit
  | _ :: handle :: name :: _ => do
      let id ← Proc.of (lookup ioctls name)
      if id = GET_CONFIG ∨ id = SET_CONFIG ∨ id = READ_VBATT ∨ id = READ_PROG_VOLTAGE then
        Proc.of (complain "use getconfig/setconfig/vbatt for " name)
      let handle ← get handle
      let _ ← perform library dry "Ioctl" (.PassThruIoctl handle id)
  | token => NEED token 3

/-- The step of a line, by its verb. -/
def run_step (open_name : Option Bytes) (rounds : Nat) (token : List Bytes) : Steps σ Unit :=
  let verb := token.headD []
  if eq verb (ascii "sleep") then sleep token
  else if eq verb (ascii "mark") then pure ()
  else if eq verb (ascii "open") then open_device library dry open_name token
  else if eq verb (ascii "close") then close library dry token
  else if eq verb (ascii "version") then version library dry token
  else if eq verb (ascii "connect") then connect library dry token
  else if eq verb (ascii "disconnect") then disconnect library dry token
  else if eq verb (ascii "filter") then filter library dry token
  else if eq verb (ascii "stopfilter") then stopfilter library dry token
  else if eq verb (ascii "readstats") then readstats library dry rounds token
  else if eq verb (ascii "read") then read library dry false rounds token
  else if eq verb (ascii "readfor") then read library dry true rounds token
  else if eq verb (ascii "write") then write library dry token
  else if eq verb (ascii "periodic") then periodic library dry token
  else if eq verb (ascii "stopperiodic") then stopperiodic library dry token
  else if eq verb (ascii "getconfig") then getconfig library dry token
  else if eq verb (ascii "setconfig") then setconfig library dry token
  else if eq verb (ascii "vbatt") then vbatt library dry token
  else if eq verb (ascii "ioctl") then ioctl library dry token
  else Proc.of (complain "unknown step: " verb)

/-! ## the script -/

/-- A runner, and why its last step stopped if it did. -/
abbrev Running (σ : Type) := Runner σ × Option Stop

/-- The step as `script_run` takes it. -/
def taken (step : List Bytes → Steps σ Unit) (state : Running σ) (_ : Nat) (token : List Bytes) : Bool × Running σ :=
  match (step token).exec state.1 with
  | (.ok _, runner) => (false, runner, none)
  | (.error stop, runner) => (true, runner, some stop)

/-- A script, run dry or on a library. -/
def script (open_name : Option Bytes) (rounds : Nat) (start : σ) (file : Bytes) : Outcome (Running σ) :=
  script_run (taken (run_step library dry open_name rounds)) ({ library := start }, none) file

end steps

end ScriptRunner

end Mongoose
