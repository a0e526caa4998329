import Mongoose.Session

/-!
# Mongoose.Tty

The write side of the tty transport.

`send` writes a frame to a device that may take any part of it at a time.  A step of it is
one system call with its outcome: a reading of the clock, a `write` or a `poll`.  What
`send` does in between is in the step that follows.
-/

namespace Mongoose

/-! ## errno -/

def EPERM : Int := 1
def ENOENT : Int := 2
def EINTR : Int := 4
def EIO : Int := 5
def ENXIO : Int := 6
def EAGAIN : Int := 11
def EWOULDBLOCK : Int := EAGAIN
def EACCES : Int := 13
def EBUSY : Int := 16
def ENODEV : Int := 19
def EPIPE : Int := 32
def ETIMEDOUT : Int := 110

def POLLERR : Nat := 0x008
def POLLHUP : Nat := 0x010
def POLLNVAL : Nat := 0x020

def errno_status (code : Int) : Int :=
  if code = ENODEV ∨ code = ENXIO ∨ code = ENOENT ∨ code = EIO ∨ code = EPIPE then ERR_DEVICE_NOT_CONNECTED
  else if code = EBUSY then ERR_DEVICE_IN_USE
  else if code = ETIMEDOUT then ERR_TIMEOUT
  else ERR_FAILED

/-- A permission problem comes with a hint. -/
def describe (strerror : Int → String) (code : Int) : String :=
  strerror code ++ if code = EACCES ∨ code = EPERM then "; join group dialout" else ""

/-- The milliseconds that `poll` is given, of the nanoseconds that are left. -/
def poll_budget (left : Int) : Int := max 1 (min 60000 ((left + 999999) / 1000000))

/-! ## send -/

/-- The members that `send` looks at. -/
structure Tty where
  fd : Int
  started : Bool
  stopping : Bool

/-- Where a send stands. -/
inductive SendPhase
  /-- About to read the clock for its deadline. -/
  | starting
  /-- Something was sent; about to compare the clock with the deadline. -/
  | checking
  | writing
  /-- The device took nothing; about to see how much time is left. -/
  | waiting
  | polling (budget : Int)
  | returned
  | threw (error : Exception)
  deriving DecidableEq, Repr

/-- A send and its locals. -/
structure Sending where
  data : Bytes
  timeout : Nat
  deadline : Int := 0
  sent : Nat := 0
  phase : SendPhase := .starting
  deriving DecidableEq, Repr

/-- A system call of a send, with what it returns, the error it sets and the events it reports. -/
inductive SystemCall
  | now (t : Int)
  | write (wrote : Int) (errno : Int)
  | poll (ready : Int) (errno : Int) (revents : Nat)
  deriving DecidableEq, Repr

/-- The checks of a send. -/
def Tty.send (tty : Tty) (data : Bytes) (timeout : Nat) : Except Exception Sending := do
  if data.length > 65536 ∨ data = [] ∨ timeout = 0 then
    throw (.invalid_argument "invalid tty write size or timeout")
  if tty.stopping ∨ tty.started = false ∨ tty.fd < 0 then
    throw (.Error ERR_DEVICE_NOT_CONNECTED "tty transport stopped")
  pure { data := data, timeout := timeout }

namespace Sending

def timed_out : Exception := .Error ERR_TIMEOUT "tty write timed out; no byte reached the adapter"

def partial_write : Exception := .Error ERR_FAILED "partial tty write; command delivery is ambiguous"

/-- What follows the loop. -/
def finish (s : Sending) : Sending :=
  { s with
    phase :=
      if s.sent = 0 then .threw timed_out
      else if s.sent ≠ s.data.length then .threw partial_write
      else .returned }

/-- The head of the loop. -/
def loop (s : Sending) : Sending :=
  if s.sent < s.data.length then { s with phase := if s.sent > 0 then .checking else .writing }
  else s.finish

/-- The device took `n` bytes. -/
def advance (s : Sending) (n : Nat) : Sending := { s with sent := s.sent + n }

def throws (s : Sending) (error : Exception) : Sending := { s with phase := .threw error }

/-- One system call, and what the send makes of it.  A device takes no more than it is offered. -/
def step (strerror : Int → String) (s : Sending) : SystemCall → Option Sending
  | .now t =>
      match s.phase with
      | .starting => some { s with deadline := t + milliseconds s.timeout }.loop
      | .checking => some (if t ≥ s.deadline then s.finish else { s with phase := .writing })
      | .waiting =>
          let left := s.deadline - t
          some (if left ≤ 0 then s.finish else { s with phase := .polling (poll_budget left) })
      | _ => none
  | .write wrote errno =>
      match s.phase with
      | .writing =>
          if wrote > (s.data.length - s.sent : Nat) then none
          else if wrote > 0 then some (s.advance wrote.toNat).loop
          else if wrote < 0 ∧ errno = EINTR then some s.loop
          else if wrote < 0 ∧ errno ≠ EAGAIN ∧ errno ≠ EWOULDBLOCK then
            some (s.throws (.Error (errno_status errno) ("tty write: " ++ describe strerror errno)))
          else some { s with phase := .waiting }
      | _ => none
  | .poll ready errno revents =>
      match s.phase with
      | .polling _ =>
          if ready < 0 ∧ errno = EINTR then some s.loop
          else if ready < 0 then
            some (s.throws (.Error (errno_status errno) ("tty write poll: " ++ describe strerror errno)))
          else if ready = 0 then some s.finish
          else if revents &&& (POLLERR ||| POLLHUP ||| POLLNVAL) ≠ 0 then
            some (s.throws (.Error ERR_DEVICE_NOT_CONNECTED "adapter disconnected during write"))
          else some s.loop
      | _ => none

/-- What the device has been given: each `write` is offered what was not sent yet. -/
def given (s : Sending) (e : SystemCall) (_ : Sending) (bytes : Bytes) : Bytes :=
  match e with
  | .write wrote _ => bytes ++ (s.data.drop s.sent).take wrote.toNat
  | _ => bytes

end Sending

end Mongoose
