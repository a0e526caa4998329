import Mongoose.Lib.Resource
import Mongoose.Tty

/-!
# Mongoose.Tty.Line

One `Tty` and its threads: the worker that pumps inbound bytes, and any number of threads
inside `send` and `stop`.

A label is what one thread does between two operations that others can see, with what the
kernel, the trace and the callbacks answer.  `step` performs it, or refuses it when a mutex
is held or the thread is elsewhere, so the runs of `step` are the interleavings of all
threads.  A `send` gives `io_mutex_` back in the step that ends it, and a `stop` both of
its mutexes.
-/

namespace Mongoose

def read_chunk : Nat := 8192

def POLLIN : Nat := 0x001

/-! ## threads -/

/-- Where the worker stands. -/
inductive PumpPhase
  /-- About to test `stopping_`. -/
  | top
  | polling
  | reading
  /-- Has read a chunk, about to trace it. -/
  | tracing (bytes : Bytes)
  /-- About to hand a chunk to the receiver. -/
  | delivering (bytes : Bytes)
  /-- In `fault`: about to set `stopping_`, and then to report. -/
  | faulting (reason : String)
  | reporting (reason : String)
  | exited
  deriving DecidableEq, Repr

/-- Where a `stop` stands. -/
inductive StopPhase
  /-- About to lock `stop_mutex_`. -/
  | entering
  /-- Holds it, about to test `closed_`. -/
  | locked
  /-- Has set `stopping_`, about to ring the eventfd. -/
  | waking
  | joining
  /-- About to lock `io_mutex_`. -/
  | joined
  /-- Holds both, about to clean up. -/
  | cleaning
  | done
  deriving DecidableEq, Repr

/-- A thread inside `send` or `stop`. -/
inductive Visit
  /-- About to lock `io_mutex_`. -/
  | entering (data : Bytes) (timeout : Nat)
  /-- Holds it, about to check the members. -/
  | checking (data : Bytes) (timeout : Nat)
  /-- About to trace the write. -/
  | tracing (sending : Sending)
  | writing (sending : Sending)
  | sent
  | threw (error : Exception)
  | stop (phase : StopPhase)
  deriving DecidableEq, Repr

namespace Visit

/-- The thread holds `io_mutex_`. -/
def Writes : Visit → Prop
  | .checking .. | .tracing _ | .writing _ | .stop .cleaning => True
  | _ => False

/-- The thread holds `stop_mutex_`. -/
def Stops : Visit → Prop
  | .stop .entering | .stop .done => False
  | .stop _ => True
  | _ => False

/-- The call is over. -/
def Over : Visit → Prop
  | .sent | .threw _ | .stop .done => True
  | _ => False

end Visit

/-! ## the transport -/

/-- The members of the class, a mutex being the thread that holds it.  `worker` is none
before there is a thread and once it has been joined. -/
structure TtyMembers (ι : Type) extends Tty where
  wake : Int
  /-- This instance set TIOCEXCL. -/
  exclusive : Bool
  closed : Bool := false
  worker : Option PumpPhase := none
  io_mutex : Option ι := none
  stop_mutex : Option ι := none

/-- The transport and the threads inside it. -/
structure Line (ι : Type) where
  tty : TtyMembers ι
  threads : ι → Option Visit := fun _ => none

/-- Descriptor operations: the system calls that only use one, and `close`. -/
abbrev FdOp := Resource.Op Int

/-- `cleanup`: TIOCEXCL is cleared, and both descriptors are closed. -/
def TtyMembers.cleanup {ι : Type} (tty : TtyMembers ι) : List FdOp × TtyMembers ι :=
  ((if tty.fd ≥ 0 then (if tty.exclusive then [.use tty.fd] else []) ++ [.release tty.fd] else []) ++
      (if tty.wake ≥ 0 then [.release tty.wake] else []),
    { tty with
      fd := if tty.fd ≥ 0 then -1 else tty.fd
      exclusive := if tty.fd ≥ 0 then false else tty.exclusive
      wake := if tty.wake ≥ 0 then -1 else tty.wake })

/-! ## steps -/

inductive SendStep
  /-- `send` is called; bad arguments are refused at once. -/
  | enter (data : Bytes) (timeout : Nat)
  | lock
  | check
  /-- The trace returns, or throws. -/
  | trace
  | traceThrows (error : Exception)
  | call (e : SystemCall)

inductive StopStep
  | enter
  | lock
  | test
  | wake
  | join
  | lock_io
  | cleanup
  deriving DecidableEq, Repr

inductive PumpStep
  | test
  | poll (ready errno : Int) (revents wake_revents : Nat)
  /-- `read` fails with an error, or returns the bytes it put into the buffer. -/
  | read (result : Except Int Bytes)
  /-- The trace and the receiver return, or throw. -/
  | trace
  | receive
  | throws (what : String)
  | fault
  | report

namespace Line

variable {ι : Type} [DecidableEq ι]

inductive Label (ι : Type)
  | send (i : ι) (a : SendStep)
  | stop (i : ι) (a : StopStep)
  | pump (a : PumpStep)

/-- The members and one thread after a step. -/
def put (l : Line ι) (tty : TtyMembers ι) (i : ι) (v : Visit) : Line ι :=
  { tty := tty, threads := Function.update l.threads i (some v) }

@[simp] theorem put_tty (l : Line ι) (tty : TtyMembers ι) (i : ι) (v : Visit) : (l.put tty i v).tty = tty := rfl

@[simp] theorem put_threads_self (l : Line ι) (tty : TtyMembers ι) (i : ι) (v : Visit) :
    (l.put tty i v).threads i = some v :=
  Function.update_self ..

theorem put_threads_of_ne (l : Line ι) (tty : TtyMembers ι) (v : Visit) {i j : ι} (h : j ≠ i) :
    (l.put tty i v).threads j = l.threads j :=
  Function.update_of_ne h ..

/-- A fact about every thread after one of them has moved. -/
theorem forall_put {P : ι → Visit → Prop} {l : Line ι} {tty : TtyMembers ι} {i : ι} {v : Visit}
    (hold : ∀ j u, l.threads j = some u → j ≠ i → P j u) (hnew : P i v) (j : ι) (u : Visit)
    (h : (l.put tty i v).threads j = some u) : P j u := by
  by_cases hj : j = i
  · subst hj
    rw [put_threads_self] at h
    exact Option.some.inj h ▸ hnew
  · exact hold j u (by rwa [put_threads_of_ne _ _ _ hj] at h) hj

/-- `invalid tty write size or timeout`. -/
def bad_arguments (data : Bytes) (timeout : Nat) : Prop := data.length > 65536 ∨ data = [] ∨ timeout = 0

instance (data : Bytes) (timeout : Nat) : Decidable (bad_arguments data timeout) :=
  inferInstanceAs (Decidable (_ ∨ _))

/-- A send after a system call: over, or still writing. -/
def after_call (s : Sending) : Visit :=
  match s.phase with
  | .returned => .sent
  | .threw error => .threw error
  | _ => .writing s

/-- `io_mutex_` after a send has come to `v`. -/
def io_after (i : ι) : Visit → Option ι
  | .writing _ => some i
  | _ => none

/-- One step of a thread inside `send`. -/
def send (strerror : Int → String) (tty : TtyMembers ι) (i : ι) (v : Option Visit) :
    SendStep → Option (TtyMembers ι × Visit)
  | .enter data timeout =>
      if v = none then
        some (tty, if bad_arguments data timeout then
          .threw (.invalid_argument "invalid tty write size or timeout") else .entering data timeout)
      else none
  | .lock =>
      match v with
      | some (.entering data timeout) =>
          if tty.io_mutex = none then some ({ tty with io_mutex := some i }, .checking data timeout) else none
      | _ => none
  | .check =>
      match v with
      | some (.checking data timeout) =>
          match tty.toTty.send data timeout with
          | .error e => some ({ tty with io_mutex := none }, .threw e)
          | .ok sending => some (tty, .tracing sending)
      | _ => none
  | .trace =>
      match v with
      | some (.tracing sending) => some (tty, .writing sending)
      | _ => none
  | .traceThrows error =>
      match v with
      | some (.tracing _) => some ({ tty with io_mutex := none }, .threw error)
      | _ => none
  | .call e =>
      match v with
      | some (.writing sending) => (sending.step strerror e).map fun s =>
          ({ tty with io_mutex := io_after i (after_call s) }, after_call s)
      | _ => none

/-- One step of a thread inside `stop`. -/
def stop (tty : TtyMembers ι) (i : ι) (v : Option Visit) : StopStep → Option (TtyMembers ι × Visit)
  | .enter => if v = none then some (tty, .stop .entering) else none
  | .lock =>
      if v = some (.stop .entering) ∧ tty.stop_mutex = none then
        some ({ tty with stop_mutex := some i }, .stop .locked)
      else none
  | .test =>
      if v = some (.stop .locked) then
        if tty.closed then some ({ tty with stop_mutex := none }, .stop .done)
        else some ({ tty with stopping := true }, .stop .waking)
      else none
  | .wake => if v = some (.stop .waking) then some (tty, .stop .joining) else none
  | .join =>
      if v = some (.stop .joining) ∧ (tty.worker = none ∨ tty.worker = some .exited) then
        some ({ tty with worker := none }, .stop .joined)
      else none
  | .lock_io =>
      if v = some (.stop .joined) ∧ tty.io_mutex = none then
        some ({ tty with io_mutex := some i }, .stop .cleaning)
      else none
  | .cleanup =>
      if v = some (.stop .cleaning) then
        some ({ tty.cleanup.2 with closed := true, io_mutex := none, stop_mutex := none }, .stop .done)
      else none

/-- One step of the worker. -/
def pump (strerror : Int → String) (tty : TtyMembers ι) (p : PumpPhase) : PumpStep → Option (TtyMembers ι)
  | .test =>
      if p = .top then some { tty with worker := some (if tty.stopping then .exited else .polling) } else none
  | .poll ready errno revents wake_revents =>
      if p = .polling then
        some { tty with
          worker := some (
            if ready < 0 then
              if errno = EINTR then .top else .faulting ("tty poll: " ++ describe strerror errno)
            else if ready = 0 then .top
            -- stop() rang the eventfd
            else if wake_revents &&& POLLIN ≠ 0 then .exited
            else if revents &&& (POLLERR ||| POLLHUP ||| POLLNVAL) ≠ 0 then .faulting "adapter disconnected"
            else if revents &&& POLLIN = 0 then .top
            else .reading) }
      else none
  | .read result =>
      if p = .reading then
        match result with
        | .error errno =>
            some { tty with
              worker := some (if errno = EINTR ∨ errno = EAGAIN ∨ errno = EWOULDBLOCK then .top
                else .faulting ("tty read: " ++ describe strerror errno)) }
        | .ok bytes =>
            if bytes.length ≤ read_chunk then
              -- with VMIN=0/VTIME=0 a zero-length read is legal and is not end of file
              some { tty with worker := some (if bytes = [] then .top else .tracing bytes) }
            else none
      else none
  | .trace =>
      match p with
      | .tracing bytes => some { tty with worker := some (.delivering bytes) }
      | _ => none
  | .receive =>
      match p with
      | .delivering _ => some { tty with worker := some .top }
      | _ => none
  | .throws what =>
      match p with
      | .tracing _ | .delivering _ => some { tty with worker := some (.faulting what) }
      | _ => none
  | .fault =>
      match p with
      | .faulting reason => some { tty with stopping := true, worker := some (.reporting reason) }
      | _ => none
  | .report =>
      match p with
      | .reporting _ => some { tty with worker := some .exited }
      | _ => none

/-- One step of the transport. -/
def step (strerror : Int → String) (l : Line ι) : Label ι → Option (Line ι)
  | .send i a => (send strerror l.tty i (l.threads i) a).map fun r => l.put r.1 i r.2
  | .stop i a => (stop l.tty i (l.threads i) a).map fun r => l.put r.1 i r.2
  | .pump a => l.tty.worker.bind fun p => (pump strerror l.tty p a).map fun tty => { l with tty := tty }

/-! ## start -/

/-- A transport whose device is open and configured, not started yet. -/
def opened (fd : Int) (exclusive : Bool) : Line ι :=
  { tty := { fd := fd, wake := -1, started := false, stopping := false, exclusive := exclusive } }

/-- `stop` where nothing else runs and there is no worker. -/
def stopped (l : Line ι) : List FdOp × Line ι :=
  let tty := { l.tty with stopping := true }
  ((if tty.wake ≥ 0 then [.use tty.wake] else []) ++ tty.cleanup.1,
    { l with tty := { tty.cleanup.2 with closed := true } })

/-- `start`: the eventfd, then the worker; a failure of either stops the transport.  `eventfd` is what the
call returns, with the error it sets, and `thread` what the constructor of the thread throws. -/
def start (strerror : Int → String) (l : Line ι) (eventfd errno : Int) (thread : Option Exception) :
    Except Exception Unit × List FdOp × Line ι :=
  if l.tty.started ∨ l.tty.closed then
    (.error (.Error ERR_FAILED "transport cannot be restarted"), [], l)
  else
    let l := { l with tty := { l.tty with started := true, wake := eventfd } }
    if eventfd < 0 then
      (.error (.Error (errno_status errno) ("eventfd: " ++ describe strerror errno)), l.stopped)
    else
      match thread with
      | some e => (.error e, [.acquire eventfd] ++ l.stopped.1, l.stopped.2)
      | none => (.ok (), [.acquire eventfd], { l with tty := { l.tty with worker := some .top } })

/-! ## what a run leaves behind -/

/-- What is kept of a run. -/
structure Log (ι : Type) where
  /-- The descriptor operations in order. -/
  fds : List FdOp := []
  /-- The chunks that `read` returned, and those the receiver took. -/
  read : List Bytes := []
  delivered : List Bytes := []
  failures : List String := []
  /-- The sends that are over, in the order in which they had `io_mutex_`, with their threads. -/
  ended : List (ι × Sending) := []
  /-- What the device accepted. -/
  written : Bytes := []

namespace Log

/-- A send is over. -/
def note_end (i : ι) (s : Sending) (log : Log ι) : Log ι :=
  match s.phase with
  | .returned | .threw _ => { log with ended := log.ended ++ [(i, s)] }
  | _ => log

/-- A system call of a send. -/
def note_call (strerror : Int → String) (fd : Int) (i : ι) (s : Sending) (e : SystemCall) (log : Log ι) : Log ι :=
  let log := match e with
    | .now _ => log
    | .write .. | .poll .. => { log with fds := log.fds ++ [.use fd] }
  match s.step strerror e with
  | none => log
  | some t => note_end i t { log with written := s.given e t log.written }

def note (strerror : Int → String) (l : Line ι) (a : Label ι) (_ : Line ι) (log : Log ι) : Log ι :=
  match a with
  | .send i (.call e) =>
      match l.threads i with
      | some (.writing s) => log.note_call strerror l.tty.fd i s e
      | _ => log
  | .stop _ .wake => if l.tty.wake ≥ 0 then { log with fds := log.fds ++ [.use l.tty.wake] } else log
  | .stop _ .cleanup => { log with fds := log.fds ++ l.tty.cleanup.1 }
  | .pump (.poll ..) => { log with fds := log.fds ++ [.use l.tty.fd, .use l.tty.wake] }
  | .pump (.read (.error _)) => { log with fds := log.fds ++ [.use l.tty.fd] }
  | .pump (.read (.ok bytes)) =>
      { log with
        fds := log.fds ++ [.use l.tty.fd]
        read := if bytes = [] then log.read else log.read ++ [bytes] }
  | .pump .receive =>
      match l.tty.worker with
      | some (.delivering bytes) => { log with delivered := log.delivered ++ [bytes] }
      | _ => log
  | .pump .report =>
      match l.tty.worker with
      | some (.reporting reason) => { log with failures := log.failures ++ [reason] }
      | _ => log
  | _ => log

end Log

/-- The steps of a transport with their log. -/
def logged (strerror : Int → String) : Line ι × Log ι → Label ι → Option (Line ι × Log ι) :=
  Run.recording (step strerror) (Log.note strerror)

end Line

end Mongoose
