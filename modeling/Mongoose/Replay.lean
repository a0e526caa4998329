import Mathlib.Data.List.Forall2
import Mongoose.Codec.Hex
import Mongoose.J2534
import Mongoose.Lib.Run
import Mongoose.Lib.Text

/-!
# Mongoose.Replay

Recorded exchanges in place of an adapter.

A replay file has a row for each frame that is expected and for each chunk that answers it,
both in hexadecimal.  `read_eq_ok` says which files are accepted and for which exchanges,
and `plays_file` what comes of them: whoever uses the transport, what it took and what it
delivered are the rows of the file in order, as far as it has come.
-/

namespace Mongoose

open Text

/-- A frame, and the chunks that answer it (`in` in the source). -/
structure Replay.Exchange where
  out : Bytes
  inbound : List Bytes := []
  deriving DecidableEq, Repr

/-- A transport that plays recorded exchanges. -/
structure Replay where
  exchanges : List Replay.Exchange
  started : Bool := false
  stopped : Bool := false
  deriving DecidableEq, Repr

namespace Replay

/-! ## the file -/

/-- `row >> direction`, and the rest of the row. -/
def split_row (line : Bytes) : Bytes × Bytes :=
  let row := line.dropWhile isspace
  (row.takeWhile fun c => !isspace c, row.dropWhile fun c => !isspace c)

def malformed : Exception := .invalid_argument "replay requires OUT hex followed by IN hex chunks"

/-- One line of the file; `35` is the sign of a comment. -/
def read_row (exchanges : List Exchange) (line : Bytes) : Except Exception (List Exchange) :=
  if line = [] ∨ line.head? = some 35 then .ok exchanges
  else
    let (direction, data) := split_row line
    if direction = ascii "OUT" then do
      let out ← unhex data
      .ok (exchanges ++ [{ out := out }])
    else if direction = ascii "IN" then
      match exchanges.getLast? with
      | none => .error malformed
      | some last => do
          let chunk ← unhex data
          .ok (exchanges.dropLast ++ [{ last with inbound := last.inbound ++ [chunk] }])
    else .error malformed

/-- The lines that `getline` finds. -/
def rows (file : Bytes) : List Bytes := (lines 10 file).map Line.content

def read (file : Bytes) : Except Exception (List Exchange) := (rows file).foldlM read_row []

/-! ## what the rows say -/

/-- A frame that is expected, or a chunk that is delivered. -/
inductive Entry
  | out (bytes : Bytes)
  | chunk (bytes : Bytes)
  deriving DecidableEq, Repr

/-- The rows of some exchanges. -/
def entries (exchanges : List Exchange) : List Entry :=
  exchanges.flatMap fun x => .out x.out :: x.inbound.map .chunk

/-- The entry a line stands for: none if it is empty or a comment. -/
def Denotes (line : Bytes) (e : Option Entry) : Prop :=
  if line = [] ∨ line.head? = some 35 then e = none
  else
    match e with
    | none => False
    | some (.out bytes) => (split_row line).1 = ascii "OUT" ∧ spelt (split_row line).2 = nibbles bytes
    | some (.chunk bytes) => (split_row line).1 = ascii "IN" ∧ spelt (split_row line).2 = nibbles bytes

/-- A chunk more. -/
theorem entries_chunk (xs : List Exchange) (x : Exchange) (chunk : Bytes) :
    entries (xs ++ [{ x with inbound := x.inbound ++ [chunk] }]) = entries (xs ++ [x]) ++ [.chunk chunk] := by
  simp [entries]

/-- No exchange begins with a chunk. -/
theorem entries_ne_chunk {xs : List Exchange} {chunk : Bytes} {es : List Entry} : entries xs ≠ .chunk chunk :: es := by
  cases xs <;> simp [entries]

/-- The chunks of an exchange end where the next begins. -/
theorem chunks_inj {a b : List Bytes} {xs ys : List Exchange}
    (h : a.map .chunk ++ entries xs = b.map .chunk ++ entries ys) : a = b ∧ entries xs = entries ys := by
  induction a generalizing b with
  | nil =>
      cases b with
      | nil => exact ⟨rfl, h⟩
      | cons c b => exact absurd h entries_ne_chunk
  | cons c a ih =>
      cases b with
      | nil => exact absurd h.symm entries_ne_chunk
      | cons d b =>
          obtain ⟨hcd, h⟩ := List.cons.inj h
          obtain ⟨hab, h⟩ := ih h
          exact ⟨by rw [Entry.chunk.inj hcd, hab], h⟩

theorem entries_inj {xs ys : List Exchange} (h : entries xs = entries ys) : xs = ys := by
  induction xs generalizing ys with
  | nil =>
      cases ys with
      | nil => rfl
      | cons y ys => simp [entries] at h
  | cons x xs ih =>
      cases ys with
      | nil => simp [entries] at h
      | cons y ys =>
          obtain ⟨xout, xin⟩ := x
          obtain ⟨yout, yin⟩ := y
          obtain ⟨hout, hrest⟩ := List.cons.inj h
          have hchunks : xin.map .chunk ++ entries xs = yin.map .chunk ++ entries ys := hrest
          obtain ⟨hin, htail⟩ := chunks_inj hchunks
          have hout : xout = yout := Entry.out.inj hout
          rw [ih htail, hout, hin]

variable {xs ys : List Exchange} {line : Bytes} {file : Bytes}

theorem denotes_of_read_row (h : read_row xs line = .ok ys) :
    ∃ e, Denotes line e ∧ entries ys = entries xs ++ e.toList := by
  rw [read_row] at h
  split at h
  · next hskip =>
      cases h
      exact ⟨none, by simp [Denotes, hskip], by simp⟩
  next hskip =>
  dsimp only at h
  split at h
  · next hdir =>
      obtain ⟨out, hout, h⟩ := bind_ok h
      cases h
      refine ⟨some (.out out), ?_, by simp [entries]⟩
      rw [Denotes, if_neg hskip]
      exact ⟨hdir, unhex_eq_ok.mp hout⟩
  · split at h
    · next hdir =>
        cases hlast : xs.getLast? with
        | none =>
            rw [hlast] at h
            cases h
        | some last =>
            rw [hlast] at h
            obtain ⟨chunk, hchunk, h⟩ := bind_ok h
            cases h
            refine ⟨some (.chunk chunk), ?_, ?_⟩
            · rw [Denotes, if_neg hskip]
              exact ⟨hdir, unhex_eq_ok.mp hchunk⟩
            · rw [entries_chunk, List.dropLast_append_getLast? last hlast]
              rfl
    · cases h

theorem read_row_of_denotes {e : Option Entry} {es : List Entry} (h : Denotes line e)
    (hys : entries ys = entries xs ++ (e.toList ++ es)) :
    ∃ zs, read_row xs line = .ok zs ∧ entries zs = entries xs ++ e.toList := by
  unfold Denotes at h
  split at h
  · next hskip =>
      subst h
      exact ⟨xs, by rw [read_row, if_pos hskip], by simp⟩
  next hskip =>
  match e with
  | none => exact h.elim
  | some (.out bytes) =>
      refine ⟨xs ++ [{ out := bytes }], ?_, by simp [entries]⟩
      rw [read_row, if_neg hskip]
      dsimp only
      rw [if_pos h.1, unhex_eq_ok.mpr h.2]
      rfl
  | some (.chunk bytes) =>
      -- a chunk has an exchange before it
      obtain rfl | ⟨init, last, rfl⟩ := List.eq_nil_or_concat' xs
      · exact absurd hys entries_ne_chunk
      · refine ⟨init ++ [{ last with inbound := last.inbound ++ [bytes] }], ?_, entries_chunk ..⟩
        have hdir : (split_row line).1 ≠ ascii "OUT" := by
          rw [h.1]
          decide
        rw [read_row, if_neg hskip]
        dsimp only
        rw [if_neg hdir, if_pos h.1, List.getLast?_concat, unhex_eq_ok.mpr h.2]
        simp [bind, Except.bind]

theorem foldlM_eq_ok {lines : List Bytes} :
    lines.foldlM read_row xs = .ok ys ↔ ∃ es : List (Option Entry), List.Forall₂ Denotes lines es ∧
      entries ys = entries xs ++ es.flatMap Option.toList := by
  induction lines generalizing xs with
  | nil =>
      simp only [List.foldlM_nil, List.forall₂_nil_left_iff, exists_eq_left, List.flatMap_nil, List.append_nil]
      constructor
      · intro h
        cases h
        rfl
      · intro h
        rw [entries_inj h]
        rfl
  | cons line lines ih =>
      rw [List.foldlM_cons]
      constructor
      · intro h
        obtain ⟨zs, hrow, h⟩ := bind_ok h
        obtain ⟨e, he, hzs⟩ := denotes_of_read_row hrow
        obtain ⟨es, hes, hys⟩ := ih.mp h
        exact ⟨e :: es, .cons he hes, by rw [hys, hzs, List.flatMap_cons, List.append_assoc]⟩
      · intro h
        obtain ⟨es, hes, hys⟩ := h
        cases hes with
        | @cons _ e _ es he hes =>
            rw [List.flatMap_cons] at hys
            obtain ⟨zs, hrow, hzs⟩ := read_row_of_denotes he hys
            rw [hrow]
            exact ih.mpr ⟨es, hes, by rw [hys, hzs, List.append_assoc]⟩

/-- **Which files are accepted**, and for what: those whose rows are the entries of some exchanges. -/
theorem read_eq_ok :
    read file = .ok xs ↔ ∃ es : List (Option Entry), List.Forall₂ Denotes (rows file) es ∧
      entries xs = es.flatMap Option.toList :=
  foldlM_eq_ok

/-! ## the transport -/

/-- `start`; the error is a `logic_error`. -/
def start (r : Replay) : Except String Replay :=
  if r.started ∨ r.stopped then .error "replay cannot restart" else .ok { r with started := true }

/-- `send`, with the chunks that the receiver is given. -/
def send (r : Replay) (bytes : Bytes) : Except Exception (List Bytes × Replay) :=
  if ¬ r.started ∨ r.stopped then .error (.Error ERR_DEVICE_NOT_CONNECTED "replay stopped")
  else
    match r.exchanges with
    | [] => .error (.Error ERR_FAILED "replay OUT differs from expected frame")
    | exchange :: exchanges =>
        if bytes = exchange.out then .ok (exchange.inbound, { r with exchanges := exchanges })
        else .error (.Error ERR_FAILED "replay OUT differs from expected frame")

def stop (r : Replay) : Replay := { r with stopped := true }

def assert_finished (r : Replay) : Except Exception Unit :=
  if r.exchanges ≠ [] then .error (.Error ERR_FAILED "replay has unconsumed exchanges") else .ok ()

inductive Call
  | start
  | send (bytes : Bytes)
  | stop
  deriving DecidableEq, Repr

/-- The transport after a call, which changes nothing if it throws. -/
def step (r : Replay) : Call → Option Replay
  | .start => some ((start r).toOption.getD r)
  | .send bytes => some (((send r bytes).toOption.map Prod.snd).getD r)
  | .stop => some r.stop

/-- What was taken and what was delivered. -/
def note (r : Replay) (call : Call) (_ : Replay) (log : List Entry) : List Entry :=
  match call with
  | .send bytes =>
      match send r bytes with
      | .ok (chunks, _) => log ++ .out bytes :: chunks.map .chunk
      | .error _ => log
  | _ => log

variable {r r' : Replay} {log : List Entry} {bytes : Bytes} {chunks : List Bytes}

theorem send_eq_ok : send r bytes = .ok (chunks, r') ↔ r.started = true ∧ r.stopped = false ∧
    ∃ exchanges, r.exchanges = { out := bytes, inbound := chunks } :: exchanges ∧
      r' = { r with exchanges := exchanges } := by
  obtain ⟨exchanges, started, stopped⟩ := r
  cases started <;> cases stopped <;> simp only [send, Bool.false_eq_true, Bool.true_eq_false, reduceCtorEq,
    false_and, true_and, or_true, or_false, not_true, not_false_iff, if_true, if_false]
  cases exchanges with
  | nil => simp
  | cons x xs =>
      obtain ⟨out, inbound⟩ := x
      by_cases hout : bytes = out
      · subst hout
        simp [eq_comm]
      · simp [hout, Ne.symm hout]

/-- A call moves entries from what is to come to what has been. -/
theorem note_step {call : Call} (h : step r call = some r') :
    note r call r' log ++ entries r'.exchanges = log ++ entries r.exchanges := by
  cases call with
  | start =>
      cases h
      rw [start]
      split <;> rfl
  | stop =>
      cases h
      rfl
  | send bytes =>
      cases h
      cases hsend : send r bytes with
      | error e => simp [note, hsend, Except.toOption]
      | ok x =>
          obtain ⟨chunks, r'⟩ := x
          obtain ⟨-, -, exchanges, hr, rfl⟩ := send_eq_ok.mp hsend
          simp [note, hsend, Except.toOption, hr, entries]

/-- **A replay plays its file.**  What has been taken and delivered are the rows of the file from the first on, the
next row is the one frame that is taken now, and the replay is finished when all rows have been played. -/
theorem plays_file (hread : read file = .ok xs) {calls : List Call}
    (hrun : Run.run (Run.recording step note) ({ exchanges := xs }, []) calls = some (r, log)) :
    ∃ es : List (Option Entry), List.Forall₂ Denotes (rows file) es ∧ log <+: es.flatMap Option.toList ∧
      (assert_finished r = .ok () ↔ log = es.flatMap Option.toList) ∧
      ∀ bytes, (∃ x, send r bytes = .ok x) ↔ r.started = true ∧ r.stopped = false ∧
        log ++ [.out bytes] <+: es.flatMap Option.toList := by
  obtain ⟨es, hes, hxs⟩ := foldlM_eq_ok.mp hread
  have hxs : entries xs = es.flatMap Option.toList := hxs
  have hplayed : log ++ entries r.exchanges = entries xs := by
    refine Run.invariant (I := fun x : Replay × List Entry => x.2 ++ entries x.1.exchanges = entries xs) ?_ rfl hrun
    intro m call t hm hstep
    obtain ⟨r, log⟩ := m
    obtain ⟨r', log'⟩ := t
    obtain ⟨hone, rfl⟩ := Run.recording_eq_some_iff.mp hstep
    exact (note_step hone).trans hm
  refine ⟨es, hes, ?_⟩
  rw [← hxs, ← hplayed]
  refine ⟨List.prefix_append .., ?_, fun bytes => ?_⟩
  · rw [assert_finished]
    cases r.exchanges <;> simp [entries]
  · simp only [Prod.exists, send_eq_ok, List.prefix_append_right_inj]
    cases r.exchanges with
    | nil => simp [entries]
    | cons x xs =>
        have hnext : [.out bytes] <+: entries (x :: xs) ↔ bytes = x.out := by simp [entries]
        rw [hnext]
        constructor
        · rintro ⟨chunks, r', hstarted, hstopped, exchanges, hx, -⟩
          exact ⟨hstarted, hstopped, by rw [(List.cons.inj hx).1]⟩
        · rintro ⟨hstarted, hstopped, rfl⟩
          exact ⟨x.inbound, _, hstarted, hstopped, xs, rfl, rfl⟩

/-- A comment, and one exchange whose frame is broken up and in capitals. -/
def one_exchange : Bytes := ascii "# one\nOUT 0A ff\nIN 01\n"

theorem plays_file_one :
    ∃ es : List (Option Entry), List.Forall₂ Denotes (rows one_exchange) es ∧
      [.out [0x0a, 0xff], .chunk [1]] <+: es.flatMap Option.toList ∧
      (assert_finished { exchanges := [], started := true } = .ok () ↔
        [.out [0x0a, 0xff], .chunk [1]] = es.flatMap Option.toList) ∧
      ∀ bytes, (∃ x, send { exchanges := [], started := true } bytes = .ok x) ↔ true = true ∧ false = false ∧
        [.out [0x0a, 0xff], .chunk [1]] ++ [.out bytes] <+: es.flatMap Option.toList :=
  @plays_file [{ out := [0x0a, 0xff], inbound := [[1]] }] one_exchange { exchanges := [], started := true }
    [.out [0x0a, 0xff], .chunk [1]] (by decide) [.start, .send [0x0a, 0xff]] (by decide)

end Replay

end Mongoose
