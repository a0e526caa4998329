import Mongoose.Tools.Steps

/-!
# Mongoose.Tools.DryRun

What a dry run of a script says about a run on a library.

Both look up the same symbols, numbers and names; the handles differ, but not which names
have one.  So whatever the library answers, a run goes the way of the dry run until a call
fails, `script_dry_iff`.
-/

namespace Mongoose

namespace ScriptRunner

open Proc

variable {σ τ α β : Type}

/-- Two runners have named the same handles. -/
def SameNames (s : Runner σ) (t : Runner τ) : Prop := s.slots.map Prod.fst = t.slots.map Prod.fst

/-- Two runs of steps. -/
abbrev Beside (V : α → β → Prop) (m : Steps σ α) (n : Steps τ β) : Prop := Twin SameNames Stop.Outside V m n

/-! ## handles -/

section handles

variable {slots slots' : Handles} {name : Bytes}

/-- Two tables with the same names find the same slots. -/
theorem slot_get_names (name : Bytes) (h : slots.map Prod.fst = slots'.map Prod.fst) :
    (∃ a b, slot_get slots name = .ok a ∧ slot_get slots' name = .ok b) ∨
      ∃ e, slot_get slots name = .error e ∧ slot_get slots' name = .error e := by
  have hfind : (slots.find? fun slot => eq slot.1 name).map Prod.fst =
      (slots'.find? fun slot => eq slot.1 name).map Prod.fst := by
    have hmap (l : Handles) : (l.find? fun slot => eq slot.1 name).map Prod.fst =
        (l.map Prod.fst).find? fun n => eq n name := by
      rw [List.find?_map]
      rfl
    rw [hmap, hmap, h]
  rw [slot_get, slot_get]
  cases hs : slots.find? fun slot => eq slot.1 name <;> cases ht : slots'.find? fun slot => eq slot.1 name
  · -- no such name on either side
    have hsame (x : Except Stop UInt32) :
        (∃ a b, x = .ok a ∧ x = .ok b) ∨ ∃ e, x = .error e ∧ x = .error e := by cases x <;> simp
    exact hsame _
  · rw [hs, ht] at hfind
    cases hfind
  · rw [hs, ht] at hfind
    cases hfind
  · exact .inl ⟨_, _, rfl, rfl⟩

/-- Storing a handle changes no name. -/
theorem replace_names (slots : Handles) (name : Bytes) (handle : UInt32) :
    (replace name handle slots).map Prod.fst = slots.map Prod.fst := by
  induction slots with
  | nil => rfl
  | cons slot slots ih =>
      rw [replace]
      split <;> simp [ih]

/-- Two tables with the same names are stored to alike. -/
theorem slot_set_names (name : Bytes) (h : slots.map Prod.fst = slots'.map Prod.fst) (a b : UInt32) :
    (∃ l l', slot_set slots name a = .ok l ∧ slot_set slots' name b = .ok l' ∧ l.map Prod.fst = l'.map Prod.fst) ∨
      ∃ e, slot_set slots name a = .error e ∧ slot_set slots' name b = .error e := by
  have hany : (slots.any fun slot => eq slot.1 name) = slots'.any fun slot => eq slot.1 name := by
    have hmap (l : Handles) : (l.any fun slot => eq slot.1 name) = (l.map Prod.fst).any fun n => eq n name := by
      rw [List.any_map]
      rfl
    rw [hmap, hmap, h]
  have hlength : slots.length = slots'.length := by simpa using congrArg List.length h
  rw [slot_set, slot_set, hany, hlength]
  split
  · exact .inr ⟨_, rfl, rfl⟩
  · split
    · exact .inl ⟨_, _, rfl, rfl, by rw [replace_names, replace_names, h]⟩
    · split
      · exact .inr ⟨_, rfl, rfl⟩
      · exact .inl ⟨_, _, rfl, rfl, by simp [h]⟩

/-- A token reads a handle in both runs or in neither. -/
theorem beside_get : Beside (fun _ _ => True) (get name : Steps σ UInt32) (get name : Steps τ UInt32) := by
  intro s t hst
  obtain ⟨a, b, ha, hb⟩ | ⟨e, ha, hb⟩ := slot_get_names name hst
  · simp only [get, exec_bind, exec_read, exec_of, ha, hb]
    exact .ended trivial hst
  · simp only [get, exec_bind, exec_read, exec_of, ha, hb]
    exact .threw hst

/-- So it stores one. -/
theorem beside_set {a b : UInt32} : Beside Eq (set name a : Steps σ Unit) (set name b : Steps τ Unit) := by
  intro s t hst
  obtain ⟨l, l', ha, hb, hnames⟩ | ⟨e, ha, hb⟩ := slot_set_names name hst a b
  · simp only [set, exec_bind, exec_read, exec_of, exec_alter, ha, hb]
    exact .ended rfl hnames
  · simp only [set, exec_bind, exec_read, exec_of, ha, hb]
    exact .threw hst

end handles

/-! ## steps -/

variable {library : Library σ} {library' : Library τ} {s : Runner σ} {t : Runner τ}

/-- A question to the library, whatever is made of the answer. -/
theorem aside_ask {question : τ → β × τ} : Aside (SameNames (σ := σ)) Stop.Outside (ask question : Steps τ β) := by
  intro s t hst
  simp only [ask, exec_bind, exec_read, exec_alter, exec_pure]
  exact hst

/-- A call to the library has no counterpart in a dry run, which goes on as if it had succeeded. -/
theorem beside_call {call call' : LibraryCall} :
    Beside (fun _ _ => True) (CALL library true call) (CALL library' false call') :=
  aside_ask.twin fun _ => trivial

/-- A call that the dry run takes for a success. -/
theorem beside_perform {operation : String} {call call' : LibraryCall} :
    Beside (fun _ _ => True) (perform library true operation call) (perform library' false operation call') := by
  refine Aside.twin (.bind aside_ask fun reply => ?_) fun _ => trivial
  exact .ite _ (.bind (.throw trivial) fun _ => .pure _) (.pure _)

/-- The rounds of a read leave the dry run where it was, and stop for nothing that it checks. -/
theorem aside_read_rounds {channel wanted timeout : UInt32} {more : Option (Nat → Bool)} {started rounds : Nat} :
    Aside (SameNames (σ := σ)) Stop.Outside (read_rounds library' channel wanted timeout more started rounds) := by
  induction rounds with
  | zero => exact .throw trivial
  | succ rounds ih =>
      refine .bind aside_ask fun reply => .ite _ (.bind (.throw trivial) fun _ => ?_) ?_
      all_goals
        refine .ite _ (.bind (.throw trivial) fun _ => ?_) ?_
        all_goals
          cases more with
          | none => exact .pure _
          | some more => exact .bind aside_ask fun now => .ite _ ih (.pure _)

/-- So a read as a whole. -/
theorem beside_reading {rounds : Nat} {channel channel' wanted timeout : UInt32} {more : Option (Nat → Bool)} :
    Beside Eq (reading library true rounds channel wanted timeout more)
      (reading library' false rounds channel' wanted timeout more) := by
  refine Aside.twin (.bind aside_ask fun allocated => ?_) fun _ => rfl
  refine .ite _ (.bind (.throw trivial) fun _ => ?_) ?_
  all_goals exact .bind aside_ask fun started => aside_read_rounds

/-! ## verbs -/

variable {token : List Bytes} {rounds : Nat} {open_name : Option Bytes} {operation : String}

theorem beside_sleep : Beside Eq (sleep token : Steps σ Unit) (sleep token : Steps τ Unit) := by
  unfold sleep
  split
  · exact .of_bind fun _ => .pure rfl
  · exact .of _

/-- Opening stores a handle in both runs. -/
theorem beside_open_device :
    Beside Eq (open_device library true open_name token) (open_device library' false open_name token) := by
  unfold open_device
  split
  · exact beside_perform.bind fun _ _ _ => beside_set
  · exact .of _

/-- A call on a handle finds it in both runs or in neither. -/
theorem beside_on_handle {call : UInt32 → LibraryCall} :
    Beside Eq (on_handle library true operation call token) (on_handle library' false operation call token) := by
  unfold on_handle
  split
  · exact beside_get.bind fun _ _ _ => beside_perform.bind fun _ _ _ => .pure rfl
  · exact .of _

/-- So does a call on two. -/
theorem beside_on_handles {call : UInt32 → UInt32 → LibraryCall} :
    Beside Eq (on_handles library true operation call token) (on_handles library' false operation call token) := by
  unfold on_handles
  split
  · exact beside_get.bind fun _ _ _ => beside_get.bind fun _ _ _ => beside_perform.bind fun _ _ _ => .pure rfl
  · exact .of _

/-- A connect reads its arguments before it calls. -/
theorem beside_connect : Beside Eq (connect library true token) (connect library' false token) := by
  unfold connect
  split
  · refine .of_bind fun protocol => .of_bind fun flags => .of_bind fun baud => ?_
    exact beside_get.bind fun _ _ _ => beside_perform.bind fun _ _ _ => beside_set
  · exact .of _

/-- A filter too. -/
theorem beside_filter : Beside Eq (filter library true token) (filter library' false token) := by
  unfold filter
  split
  · refine .of_bind fun type => .of_bind fun protocol => .of_bind fun flags => .ite _ ?_ ?_
    · split
      · exact .of _
      · refine .of_bind fun mask => .of_bind fun pattern => .of_bind fun flow => ?_
        exact beside_get.bind fun _ _ _ => beside_perform.bind fun _ _ _ => beside_set
    · refine .of_bind fun mask => .of_bind fun pattern => ?_
      exact beside_get.bind fun _ _ _ => beside_perform.bind fun _ _ _ => beside_set
  · exact .of _

theorem beside_readstats :
    Beside Eq (readstats library true rounds token) (readstats library' false rounds token) := by
  unfold readstats
  split
  · refine beside_get.bind fun _ _ _ => .of_bind fun wanted => .of_bind fun timeout => .of_bind fun seconds => ?_
    exact .ite _ (.of_bind fun _ => beside_reading) beside_reading
  · exact .of _

/-- And a read. -/
theorem beside_read {readfor : Bool} :
    Beside Eq (read library true readfor rounds token) (read library' false readfor rounds token) := by
  unfold read
  split
  · refine beside_get.bind fun _ _ _ => .of_bind fun wanted => .of_bind fun timeout => .of_bind fun seconds => ?_
    exact .ite _ (.of_bind fun _ => beside_reading) beside_reading
  · exact .of _

/-- And a write, whose message is parsed in both runs. -/
theorem beside_write : Beside Eq (write library true token) (write library' false token) := by
  unfold write
  split
  · refine .of_bind fun protocol => .of_bind fun flags => .of_bind fun message => .of_bind fun timeout => ?_
    exact beside_get.bind fun _ _ _ => beside_perform.bind fun _ _ _ => .pure rfl
  · exact .of _

/-- And a periodic message. -/
theorem beside_periodic : Beside Eq (periodic library true token) (periodic library' false token) := by
  unfold periodic
  split
  · refine .of_bind fun protocol => .of_bind fun flags => .of_bind fun message => .of_bind fun interval => ?_
    exact beside_get.bind fun _ _ _ => beside_perform.bind fun _ _ _ => beside_set
  · exact .of _

theorem beside_getconfig : Beside Eq (getconfig library true token) (getconfig library' false token) := by
  unfold getconfig
  split
  · refine .of_bind fun parts => .of_bind fun parameters => ?_
    exact beside_get.bind fun _ _ _ => beside_call.bind fun _ _ _ => .pure rfl
  · exact .of _

/-- And a set, whose pairs are parsed in both runs. -/
theorem beside_setconfig : Beside Eq (setconfig library true token) (setconfig library' false token) := by
  unfold setconfig
  split
  · refine .of_bind fun parts => .of_bind fun parameters => ?_
    exact beside_get.bind fun _ _ _ => beside_perform.bind fun _ _ _ => .pure rfl
  · exact .of _

theorem beside_ioctl : Beside Eq (ioctl library true token) (ioctl library' false token) := by
  unfold ioctl
  split
  · refine .of_bind fun id => .ite _ (.of_bind fun _ => ?_) ?_
    all_goals exact beside_get.bind fun _ _ _ => beside_perform.bind fun _ _ _ => .pure rfl
  · exact .of _

/-- **A step on a library goes as it does dry**, or is stopped from outside. -/
theorem beside_run_step :
    Beside Eq (run_step library true open_name rounds token) (run_step library' false open_name rounds token) := by
  refine .ite _ beside_sleep (.ite _ (.pure rfl) (.ite _ beside_open_device (.ite _ beside_on_handle ?_)))
  refine .ite _ beside_on_handle (.ite _ beside_connect (.ite _ beside_on_handle (.ite _ beside_filter ?_)))
  refine .ite _ beside_on_handles (.ite _ beside_readstats (.ite _ beside_read (.ite _ beside_read ?_)))
  refine .ite _ beside_write (.ite _ beside_periodic (.ite _ beside_on_handles (.ite _ beside_getconfig ?_)))
  exact .ite _ beside_setconfig (.ite _ beside_on_handle (.ite _ beside_ioctl (.of _)))

/-! ## scripts -/

/-- The run on a library takes the steps of the dry run, and ends as it does unless it was stopped from outside. -/
inductive Foretold (dry : Outcome (Running σ)) (live : Outcome (Running τ)) : Prop
  | stopped (stop : Stop) : live.failed.isSome → live.state.2 = some stop → stop.Outside →
      live.steps <+: dry.steps → Foretold dry live
  | same : live.steps = dry.steps → live.failed = dry.failed → live.complaint = dry.complaint →
      live.state.2 = dry.state.2 → SameNames dry.state.1 live.state.1 → Foretold dry live

/-- A step in front of both. -/
theorem Foretold.after {dry : Outcome (Running σ)} {live : Outcome (Running τ)} (h : Foretold dry live)
    (step : List Bytes) : Foretold (dry.after step) (live.after step) := by
  cases h with
  | stopped stop hfailed hstop hout hsteps =>
      exact .stopped stop hfailed hstop hout (List.cons_prefix_cons.mpr ⟨rfl, hsteps⟩)
  | same hsteps hfailed hcomplaint hstop hnames =>
      exact .same (congrArg (step :: ·) hsteps) hfailed hcomplaint hstop hnames

section loop

variable {step : List Bytes → Steps σ Unit} {step' : List Bytes → Steps τ Unit} {script_line : Nat} {token : List Bytes}

/-- A step that ends well is taken. -/
theorem taken_ok {s : Running σ} {runner : Runner σ} (h : (step token).exec s.1 = (.ok (), runner)) :
    taken step s script_line token = (false, runner, none) := by
  rw [taken, h]

/-- A step that stops is taken as failed. -/
theorem taken_error {s : Running σ} {runner : Runner σ} {stop : Stop}
    (h : (step token).exec s.1 = (.error stop, runner)) :
    taken step s script_line token = (true, runner, some stop) := by
  rw [taken, h]

/-- Steps that go alike make loops that do. -/
theorem foretold_loop (hstep : ∀ token, Beside Eq (step token) (step' token)) (file : Bytes) (script_line : Nat)
    {s : Running σ} {t : Running τ} (hnames : SameNames s.1 t.1) (hstop : t.2 = s.2) :
    Foretold (script_loop (taken step) s script_line file) (script_loop (taken step') t script_line file) := by
  induction hlen : file.length using Nat.strongRecOn generalizing file script_line s t with
  | _ n ih =>
      obtain rfl | ⟨chunk, hf⟩ := fgets_cases file
      · rw [script_loop_nil, script_loop_nil]
        exact .same rfl rfl rfl hstop hnames
      · have hless := hlen ▸ length_rest hf
        cases hr : refusal chunk with
        | some complaint =>
            rw [script_loop_refused hf hr, script_loop_refused hf hr]
            exact .same rfl rfl rfl hstop hnames
        | none =>
            rw [script_loop_passed hf hr, script_loop_passed hf hr]
            generalize tokens (c_string chunk.line) = token
            by_cases hempty : token.isEmpty
            · rw [if_pos hempty, if_pos hempty]
              exact ih _ hless chunk.rest _ hnames hstop rfl
            · rw [if_neg hempty, if_neg hempty]
              have halike := hstep token s.1 t.1 hnames
              cases hx : (step token).exec s.1
              cases hy : (step' token).exec t.1
              rw [hx, hy] at halike
              cases halike with
              | stopped he =>
                  rw [taken_error hy, if_pos rfl]
                  refine .stopped _ rfl rfl he ?_
                  split
                  · exact List.prefix_rfl
                  · exact List.cons_prefix_cons.mpr ⟨rfl, List.nil_prefix⟩
              | threw hst =>
                  rw [taken_error hx, taken_error hy, if_pos rfl, if_pos rfl]
                  exact .same rfl rfl rfl rfl hst
              | ended hab hst =>
                  rw [taken_ok hx, taken_ok hy, if_neg (by simp), if_neg (by simp)]
                  exact (ih _ hless chunk.rest _ hst rfl rfl).after token

end loop

/-- **A dry run foretells a run on a library.** -/
theorem script_as_dry (library : Library σ) (open_name : Option Bytes) (rounds : Nat) (start : σ) (file : Bytes) :
    Foretold (script library true open_name rounds start file) (script library false open_name rounds start file) :=
  foretold_loop (fun _ => beside_run_step) file 1 rfl rfl

end ScriptRunner

end Mongoose
