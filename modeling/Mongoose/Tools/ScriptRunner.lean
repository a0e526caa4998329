import Mongoose.Bytes
import Mongoose.Lib.Text

/-!
# Mongoose.Tools.ScriptRunner

The loop of the script runner over the lines of a file.

`script_run` reads with `fgets` into a buffer, looks for signs that what it got is not
a whole line, and runs the tokens of the rest.  `follow` is what it is for: the lines
one after the other, and a stop at the first that is too long or has a NUL.  The two
agree unless that line begins with the NUL, or is the last one, short and unterminated.
-/

namespace Mongoose

namespace ScriptRunner

open Text

def MAX_TOKENS : Nat := 12

/-- `sizeof(line)`. -/
def line_size : Nat := 512

def newline : UInt8 := 10
def hash : UInt8 := 35

/-- The separators of `strtok`: space, tab, carriage return and newline. -/
def blank (b : UInt8) : Bool := b = 32 || b = 9 || b = 13 || b = 10

/-! ## reading -/

/-- What one `fgets` leaves: the buffer, the file behind it and `feof`. -/
structure Chunk where
  line : Bytes
  rest : Bytes
  feof : Bool
  deriving DecidableEq, Repr

/-- Bytes up to a newline or a full buffer; `feof` is set when the file ended before either. -/
def fgets (size : Nat) (file : Bytes) : Option Chunk :=
  if file.isEmpty then none
  else
    let line := readLine newline (size - 1) file
    some
      { line := line
        rest := file.drop line.length
        feof := line.getLast? ≠ some newline && line.length < size - 1 }

/-- There is a next chunk until the file is empty. -/
theorem fgets_cases (file : Bytes) : file = [] ∨ ∃ chunk, fgets line_size file = some chunk := by
  by_cases hne : file = []
  · exact .inl hne
  · exact .inr ⟨_, by rw [fgets, if_neg (by simpa using hne)]⟩

/-- A chunk takes something of the file. -/
theorem length_rest {file : Bytes} {chunk : Chunk} (h : fgets line_size file = some chunk) :
    chunk.rest.length < file.length := by
  rw [fgets] at h
  split at h
  · cases h
  next hne =>
    cases h
    have hne : file ≠ [] := fun hf => hne (by simp [hf])
    have hpos : 0 < (readLine newline (line_size - 1) file).length := readLine_pos hne
    have hfile := List.length_pos_iff.mpr hne
    simp only [List.length_drop]
    omega

/-- The C string in a buffer. -/
def c_string (line : Bytes) : Bytes := line.takeWhile fun b => b ≠ 0

/-- The signs that a buffer is not a whole line, and the complaint. -/
def refusal (chunk : Chunk) : Option String :=
  let text := c_string chunk.line
  if text.length = line_size - 1 ∧ text.getLast? ≠ some newline ∧ ¬ chunk.feof then
    some "line too long (over 510 characters)"
  else if text.length ≠ 0 ∧ text.getLast? ≠ some newline ∧ ¬ chunk.feof then
    some "line has an embedded NUL"
  else none

/-- The `strtok` loop, with room for some more tokens. -/
def tokenize : Nat → Bytes → List Bytes
  | 0, _ => []
  | room + 1, text =>
      match token blank text with
      | none => []
      | some (t, rest) => t :: tokenize room rest

/-- The tokens in front of a comment. -/
def tokens (text : Bytes) : List Bytes := tokenize MAX_TOKENS (text.takeWhile fun b => b ≠ hash)

/-! ## running -/

/-- How a run ended: the steps it took, and the line it failed at, if it did, with the
complaint about the line. -/
structure Outcome (σ : Type) where
  state : σ
  steps : List (List Bytes) := []
  failed : Option Nat := none
  complaint : Option String := none
  deriving DecidableEq, Repr

/-- A step before the rest of a run. -/
def Outcome.after {σ : Type} (step : List Bytes) (o : Outcome σ) : Outcome σ :=
  { o with steps := step :: o.steps }

section run

variable {σ : Type} (run_step : σ → Nat → List Bytes → Bool × σ)

/-- The loop of `script_run` from a line on; `run_step` says whether the step failed. -/
def script_loop (state : σ) (script_line : Nat) (file : Bytes) : Outcome σ :=
  match _h : fgets line_size file with
  | none => { state := state }
  | some chunk =>
      match refusal chunk with
      | some complaint => { state := state, failed := some script_line, complaint := some complaint }
      | none =>
          let step := tokens (c_string chunk.line)
          if step.isEmpty then script_loop state (script_line + 1) chunk.rest
          else
            let (failed, state) := run_step state script_line step
            if failed then { state := state, steps := [step], failed := some script_line }
            else (script_loop state (script_line + 1) chunk.rest).after step
termination_by file.length
decreasing_by all_goals exact length_rest ‹_›

def script_run (state : σ) (file : Bytes) : Outcome σ := script_loop run_step state 1 file

/-! ## whole lines -/

/-- A line is too long for the buffer, or has a NUL. -/
def Refused (l : Line UInt8) : Prop := l.content.length > line_size - 2 ∨ 0 ∈ l.content

instance (l : Line UInt8) : Decidable (Refused l) := inferInstanceAs (Decidable (_ ∨ _))

/-- The tokens of a whole line. -/
def step (l : Line UInt8) : List Bytes :=
  (fields blank (l.content.takeWhile fun b => b ≠ hash)).take MAX_TOKENS

/-- The lines run one after the other, whole, up to the first that is refused. -/
def follow (state : σ) (script_line : Nat) : List (Line UInt8) → Outcome σ
  | [] => { state := state }
  | l :: ls =>
      if Refused l then { state := state, failed := some script_line }
      else if (step l).isEmpty then follow state (script_line + 1) ls
      else
        let (failed, state) := run_step state script_line (step l)
        if failed then { state := state, steps := [step l], failed := some script_line }
        else (follow state (script_line + 1) ls).after (step l)

/-- The refused line that a run over whole lines comes to, if it does. -/
def reached (state : σ) (script_line : Nat) : List (Line UInt8) → Option (Line UInt8)
  | [] => none
  | l :: ls =>
      if Refused l then some l
      else if (step l).isEmpty then reached state (script_line + 1) ls
      else
        let (failed, state) := run_step state script_line (step l)
        if failed then none else reached state (script_line + 1) ls

/-- Two runs took the same steps and failed at the same line, or both at none. -/
def Agree (o w : Outcome σ) : Prop := o.steps = w.steps ∧ o.state = w.state ∧ o.failed = w.failed

/-- The run takes the steps of whole lines, and stops with failure at the very line that is
the first to be refused or whose step fails, or runs to the end. -/
def WholeLines (state : σ) (file : Bytes) : Prop :=
  Agree (script_run run_step state file) (follow run_step state 1 (lines newline file))

/-- A refused line that the signs give away: it does not begin with a NUL, and is not a
short last line without its newline. -/
def Detected (l : Line UInt8) : Prop :=
  l.content.head? ≠ some 0 ∧ (l.terminated = true ∨ l.content.length > line_size - 2)

end run

/-! ## what a buffer holds -/

section chunks

variable {c : Bytes} {chunk : Chunk}

/-- A short line is read whole. -/
theorem fgets_whole (h : newline ∉ c) (hle : c.length ≤ line_size - 2) (rest : Bytes) :
    fgets line_size (c ++ newline :: rest) = some { line := c ++ [newline], rest := rest, feof := false } := by
  have hlt : c.length < line_size - 1 := by unfold line_size at *; omega
  rw [fgets, if_neg (by simp)]
  simp only [readLine_terminated h hlt]
  simp

/-- So is a short last line without its newline, at whose end the file is. -/
theorem fgets_last (h : newline ∉ c) (hne : c ≠ []) (hle : c.length ≤ line_size - 2) :
    fgets line_size c = some { line := c, rest := [], feof := true } := by
  have hlt : c.length < line_size - 1 := by unfold line_size at *; omega
  have hlast : c.getLast? ≠ some newline := fun hl => h (List.mem_of_getLast? hl)
  rw [fgets, if_neg (by simpa using hne)]
  simp only [readLine_last h (Nat.le_of_lt hlt)]
  simp [hlast, hlt]

/-- A line that is too long is cut. -/
theorem fgets_long (h : newline ∉ c) (hlt : c.length > line_size - 2) (rest : Bytes) :
    fgets line_size (c ++ rest) =
      some { line := c.take (line_size - 1), rest := (c ++ rest).drop (line_size - 1), feof := false } := by
  have hlen : (c.take (line_size - 1)).length = line_size - 1 := by
    rw [List.length_take]
    unfold line_size at *
    omega
  have hne : (c ++ rest).isEmpty = false := by
    cases c with
    | nil => simp [line_size] at hlt
    | cons a c => rfl
  rw [fgets, hne, if_neg (by simp), readLine_cut h (by unfold line_size at *; omega)]
  simp [hlen]

/-- Without a NUL the text is the whole buffer. -/
theorem c_string_of_not_mem (h : 0 ∉ c) : c_string (c ++ [newline]) = c ++ [newline] ∧ c_string c = c := by
  have hall : ∀ b ∈ c, (b ≠ 0 : Bool) = true := fun b hb => by
    simpa using fun hz : b = 0 => h (hz ▸ hb)
  constructor
  · exact List.takeWhile_eq_self_iff.mpr fun b hb => by
      obtain hb | hb := List.mem_append.mp hb
      · exact hall b hb
      · obtain rfl := List.mem_singleton.mp hb
        decide
  · exact List.takeWhile_eq_self_iff.mpr hall

/-- The text is empty if the buffer begins with a NUL. -/
theorem c_string_eq_nil {line : Bytes} (h : line ≠ []) : c_string line = [] ↔ line.head? = some 0 := by
  cases line with
  | nil => exact absurd rfl h
  | cons b line => by_cases hb : b = 0 <;> simp [c_string, hb]

/-- A buffer before the end of the file that shows something without a newline is refused. -/
theorem refusal_isSome (hfeof : chunk.feof = false) (hnewline : newline ∉ c_string chunk.line) :
    (refusal chunk).isSome = true ↔ c_string chunk.line ≠ [] := by
  have hlast : (c_string chunk.line).getLast? ≠ some newline := fun hl => hnewline (List.mem_of_getLast? hl)
  rw [refusal]
  by_cases hlen : (c_string chunk.line).length = 0
  · simp [List.length_eq_zero_iff.mp hlen, line_size]
  · simp only [hfeof, hlast, hlen, ne_eq, not_false_eq_true, Bool.false_eq_true, and_true, if_true,
      ← List.length_eq_zero_iff]
    split <;> simp

/-- A cut line gives a sign unless it begins with a NUL. -/
theorem refusal_long (h : newline ∉ c) (hlt : c.length > line_size - 2) (rest : Bytes) :
    (refusal { line := c.take (line_size - 1), rest := rest, feof := false }).isSome = true ↔
      c.head? ≠ some 0 := by
  have hne : c.take (line_size - 1) ≠ [] := by
    intro hnil
    have hlen := congrArg List.length hnil
    simp only [List.length_take, List.length_nil, line_size] at hlen hlt
    omega
  have hnewline : newline ∉ c_string (c.take (line_size - 1)) := fun hm =>
    h (List.mem_of_mem_take ((List.takeWhile_sublist _).mem hm))
  rw [refusal_isSome rfl hnewline, ne_eq, c_string_eq_nil hne, List.head?_take, if_neg (by simp [line_size])]

/-- And so does a whole line with a NUL. -/
theorem refusal_nul (h : newline ∉ c) (hnul : 0 ∈ c) (rest : Bytes) :
    (refusal { line := c ++ [newline], rest := rest, feof := false }).isSome = true ↔
      c.head? ≠ some 0 := by
  have htext : c_string (c ++ [newline]) = c_string c := by
    rw [c_string, List.takeWhile_append, if_neg]
    · rfl
    · intro hlen
      have hc := (List.takeWhile_prefix _).eq_of_length hlen
      simpa using List.takeWhile_eq_self_iff.mp hc 0 hnul
  have hnewline : newline ∉ c_string (c ++ [newline]) := by
    rw [htext]
    exact fun hm => h ((List.takeWhile_sublist _).mem hm)
  rw [refusal_isSome rfl hnewline, htext, ne_eq, c_string_eq_nil (List.ne_nil_of_mem hnul)]

/-- At the end of the file nothing is refused. -/
theorem refusal_of_feof (h : chunk.feof = true) : refusal chunk = none := by
  simp [refusal, h]

/-- Nor is a text with its newline. -/
theorem refusal_of_newline (h : (c_string chunk.line).getLast? = some newline) : refusal chunk = none := by
  simp [refusal, h]

/-- The tokens are the fields of the text, as many as there is room for. -/
theorem tokenize_eq (room : Nat) (text : Bytes) : tokenize room text = (fields blank text).take room := by
  induction room generalizing text with
  | zero => rfl
  | succ room ih =>
      rw [tokenize]
      split
      · next h => rw [token_none h, List.take_nil]
      · next h => rw [token_some h, ih, List.take_succ_cons]

/-- The newline makes no difference to the tokens. -/
theorem tokens_whole (c : Bytes) :
    tokens (c ++ [newline]) = (fields blank (c.takeWhile fun b => b ≠ hash)).take MAX_TOKENS ∧
      tokens c = (fields blank (c.takeWhile fun b => b ≠ hash)).take MAX_TOKENS := by
  refine ⟨?_, tokenize_eq _ _⟩
  rw [tokens, tokenize_eq]
  congr 1
  rw [List.takeWhile_append]
  split
  · next hlen =>
      have hc : (c.takeWhile fun b => b ≠ hash) = c := (List.takeWhile_prefix _).eq_of_length hlen
      rw [show [newline].takeWhile (fun b => decide (b ≠ hash)) = [newline] from rfl,
        fields_split (show blank newline = true by decide), fields_nil, List.append_nil, hc]
  · rfl

end chunks

/-! ## the loop -/

section loop

variable {σ : Type} {run_step : σ → Nat → List Bytes → Bool × σ} {state : σ} {script_line : Nat}
  {file : Bytes} {chunk : Chunk}

theorem script_loop_nil : script_loop run_step state script_line [] = { state := state } := by
  rw [script_loop]
  rfl

/-- A refused chunk ends the run. -/
theorem script_loop_refused {complaint : String} (h : fgets line_size file = some chunk)
    (hr : refusal chunk = some complaint) :
    script_loop run_step state script_line file =
      { state := state, failed := some script_line, complaint := some complaint } := by
  rw [script_loop]
  split
  · next hn => rw [h] at hn; cases hn
  · next chunk' hs =>
      obtain rfl := Option.some.inj (h.symm.trans hs)
      rw [hr]

/-- A chunk that passes is a step, unless it is blank. -/
theorem script_loop_passed (h : fgets line_size file = some chunk) (hr : refusal chunk = none) :
    script_loop run_step state script_line file =
      if (tokens (c_string chunk.line)).isEmpty then
        script_loop run_step state (script_line + 1) chunk.rest
      else if (run_step state script_line (tokens (c_string chunk.line))).1 then
        { state := (run_step state script_line (tokens (c_string chunk.line))).2
          steps := [tokens (c_string chunk.line)], failed := some script_line }
      else
        (script_loop run_step (run_step state script_line (tokens (c_string chunk.line))).2
          (script_line + 1) chunk.rest).after (tokens (c_string chunk.line)) := by
  rw [script_loop]
  split
  · next hn => rw [h] at hn; cases hn
  · next chunk' hs =>
      obtain rfl := Option.some.inj (h.symm.trans hs)
      rw [hr]

/-- A run fails at the line it is at or at a later one. -/
theorem le_failed {k : Nat} (h : (script_loop run_step state script_line file).failed = some k) :
    script_line ≤ k := by
  induction hlen : file.length using Nat.strongRecOn generalizing file state script_line with
  | _ n ih =>
      obtain rfl | ⟨chunk, hf⟩ := fgets_cases file
      · rw [script_loop_nil] at h
        cases h
      have hlt := length_rest hf
      cases hr : refusal chunk with
      | some complaint =>
          rw [script_loop_refused hf hr] at h
          cases h
          exact Nat.le_refl _
      | none =>
          rw [script_loop_passed hf hr] at h
          split at h
          · exact Nat.le_of_succ_le (ih _ (hlen ▸ hlt) h rfl)
          · split at h
            · cases h
              exact Nat.le_refl _
            · exact Nat.le_of_succ_le (ih _ (hlen ▸ hlt) h rfl)

/-- Where the first line is not refused, both runs take it and go on. -/
theorem agree_line {l : Line UInt8} {ls : List (Line UInt8)} (h : fgets line_size file = some chunk)
    (hr : refusal chunk = none) (ht : tokens (c_string chunk.line) = step l) (hl : ¬ Refused l)
    (ih : ∀ state script_line,
      Agree (script_loop run_step state script_line chunk.rest) (follow run_step state script_line ls) ↔
        ∀ x, reached run_step state script_line ls = some x → Detected x) :
    Agree (script_loop run_step state script_line file) (follow run_step state script_line (l :: ls)) ↔
      ∀ x, reached run_step state script_line (l :: ls) = some x → Detected x := by
  rw [script_loop_passed h hr, ht, follow, reached, if_neg hl, if_neg hl]
  by_cases hblank : (step l).isEmpty = true
  · rw [if_pos hblank, if_pos hblank, if_pos hblank]
    exact ih state (script_line + 1)
  · rw [if_neg hblank, if_neg hblank, if_neg hblank]
    obtain ⟨failed, next⟩ := run_step state script_line (step l)
    cases failed with
    | true => simp [Agree]
    | false => simpa [Agree, Outcome.after] using ih next (script_line + 1)

/-- Where it is refused, they agree if the buffer gives a sign: a run that goes on fails
later or not at all. -/
theorem agree_refused {l : Line UInt8} {ls : List (Line UInt8)} (h : fgets line_size file = some chunk)
    (hl : Refused l) (hsign : (refusal chunk).isSome = true ↔ Detected l) :
    Agree (script_loop run_step state script_line file) (follow run_step state script_line (l :: ls)) ↔
      ∀ x, reached run_step state script_line (l :: ls) = some x → Detected x := by
  have hreached : (∀ x, reached run_step state script_line (l :: ls) = some x → Detected x) ↔ Detected l := by
    simp [reached, hl]
  rw [hreached, ← hsign, follow, if_pos hl, Agree]
  cases hr : refusal chunk with
  | some complaint => simp [script_loop_refused h hr]
  | none =>
      rw [script_loop_passed h hr]
      simp only [Option.isSome_none, Bool.false_eq_true, iff_false]
      by_cases hblank : (tokens (c_string chunk.line)).isEmpty = true
      · rw [if_pos hblank]
        intro hagree
        have hle := le_failed hagree.2.2
        omega
      · rw [if_neg hblank]
        split <;> simp [Outcome.after]

/-- **The runner takes whole lines exactly when the first refused line it comes to is
one that the signs give away.** -/
theorem whole_lines_iff (run_step : σ → Nat → List Bytes → Bool × σ) (state : σ) (file : Bytes) :
    WholeLines run_step state file ↔
      ∀ l, reached run_step state 1 (lines newline file) = some l → Detected l := by
  rw [WholeLines, script_run]
  generalize 1 = script_line
  induction file using line_induction newline generalizing state script_line with
  | nil =>
      rw [script_loop_nil]
      simp [lines, follow, reached, Agree]
  | last c hne hc =>
      rw [lines_last hc hne]
      by_cases hlong : c.length > line_size - 2
      · have h := fgets_long hc hlong []
        rw [List.append_nil] at h
        exact agree_refused h (.inl hlong) (by simp [refusal_long hc hlong, Detected, hlong])
      have h := fgets_last hc hne (Nat.le_of_not_lt hlong)
      by_cases hnul : 0 ∈ c
      · exact agree_refused h (.inr hnul) (by simp [refusal_of_feof, Detected, hlong])
      · refine agree_line h (refusal_of_feof rfl) ?_ (by simp [Refused, hlong, hnul]) fun state n => ?_
        · rw [(c_string_of_not_mem hnul).2]
          exact (tokens_whole c).2
        · rw [script_loop_nil]
          simp [follow, reached, Agree]
  | cons c rest hc ih =>
      rw [lines_terminated hc]
      by_cases hlong : c.length > line_size - 2
      · exact agree_refused (fgets_long hc hlong _) (.inl hlong) (by simp [refusal_long hc hlong, Detected])
      have h := fgets_whole hc (Nat.le_of_not_lt hlong) rest
      by_cases hnul : 0 ∈ c
      · exact agree_refused h (.inr hnul) (by simp [refusal_nul hc hnul, Detected])
      · refine agree_line h (refusal_of_newline ?_) ?_ (by simp [Refused, hlong, hnul]) ih
        · rw [(c_string_of_not_mem hnul).1]
          simp
        · rw [(c_string_of_not_mem hnul).1]
          exact (tokens_whole c).1

/-- A line that begins with a NUL is skipped and the next one runs: the file is refused
from its first line on, and the step of its second is taken. -/
theorem not_whole_lines :
    ¬ WholeLines (fun (state : List (List Bytes)) _ step => (false, state ++ [step])) []
      [0, newline, 109, newline] := by
  have h1 : fgets line_size [0, newline, 109, newline] =
      some { line := [0, newline], rest := [109, newline], feof := false } := by decide
  have h2 : fgets line_size [109, newline] = some { line := [109, newline], rest := [], feof := false } := by
    decide
  intro h
  have hsteps := h.1
  rw [script_run, script_loop_passed h1 (by decide), if_pos (by decide), script_loop_passed h2 (by decide),
    if_neg (by decide), if_neg (by decide)] at hsteps
  cases hsteps

end loop

end ScriptRunner

end Mongoose
