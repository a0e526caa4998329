import Mongoose.Api.Within
import Mongoose.Lib.Mirror

/-!
# Mongoose.Api.Adapter

An abstract adapter that keeps tables of entries.

An entry is added under a handle that is fresh in its table, which the answer
carries unless it is too short.  A removal and a clear act on the table they name,
a close empties the tables of filters, and a command the adapter refuses does
nothing; one that is left without an answer may or may not have been carried out.
-/

namespace Mongoose

/-! ## table commands -/

namespace Command

/-- The table a table command names. -/
def table (c : Command) : Option UInt8 := c.payload.head?

/-- The handle a removal names. -/
def handle (c : Command) : Nat := le32At c.payload 4

end Command

/-- The handle of an answer that is long enough to carry one. -/
def Exchange.handle (e : Exchange) : Option Nat :=
  e.response.bind fun body => if 24 ≤ body.length then some (le32At body 20) else none

/-- A removal names its table and its handle. -/
theorem remove_payload_eq (table : UInt8) (handle : Nat) :
    remove_payload table handle =
      .ok ([table, 0, 0, 0] ++ bytes16 handle ++ bytes16 (high16 handle)) := by
  have hlow : put16 [table, 0, 0, 0, 0, 0, 0, 0] 4 handle =
      .ok ([table, 0, 0, 0] ++ bytes16 handle ++ [0, 0]) := put16_of_le _ (by simp)
  have hhigh : put16 ([table, 0, 0, 0] ++ bytes16 handle ++ [0, 0]) 6 (high16 handle) =
      .ok ([table, 0, 0, 0] ++ bytes16 handle ++ bytes16 (high16 handle)) :=
    put16_of_le _ (by simp [bytes16])
  rw [remove_payload, hlow]
  exact hhigh

/-- What a removal names is read back from its payload. -/
theorem remove_payload_ok {table : UInt8} {handle : Nat} {payload : Bytes} (hlt : handle < 2 ^ 32)
    (h : remove_payload table handle = .ok payload) :
    payload.head? = some table ∧ le32At payload 4 = handle := by
  rw [remove_payload_eq] at h
  cases h
  refine ⟨rfl, ?_⟩
  simp only [le32At, le16At, bytes16, high16, List.cons_append, List.nil_append, List.getD_cons_succ,
    List.getD_cons_zero, UInt8.toNat_ofNat']
  omega

/-! ## the adapter -/

/-- The handles in each table. -/
abbrev Tables := UInt8 → Set Nat

/-- The tables that hold filters. -/
def filter_tables : List UInt8 := [table_pass, table_block, table_flow_control]

namespace Tables

def empty : Tables := fun _ => ∅

/-- What a command that is carried out does; a new entry goes under a handle of
the adapter's choice. -/
def exec (a : Tables) (c : Command) (handle : Nat) : Tables := fun t =>
  if c.opcode = 0x0d ∧ c.table = some t then insert handle (a t)
  else if c.opcode = 0x0e ∧ c.table = some t then a t \ {c.handle}
  else if c.opcode = 0x10 ∧ c.table = some t then ∅
  else if c.opcode = 7 ∧ t ∈ filter_tables then ∅
  else a t

/-- A new entry's handle is fresh in its table, and is the one the answer carries. -/
def Fresh (a : Tables) (e : Exchange) (handle : Nat) : Prop :=
  e.command.opcode = 0x0d →
    (∀ t, e.command.table = some t → handle ∉ a t) ∧ ∀ h, e.handle = some h → h = handle

/-- One exchange: a refused command is not carried out, an accepted one is, and
one that is left without an answer may be. -/
inductive Step (a : Tables) (e : Exchange) : Tables → Prop
  | kept : e.accepted = false → Step a e a
  | done (handle : Nat) : e.accepted = true ∨ e.response = none → a.Fresh e handle →
      Step a e (a.exec e.command handle)

/-- The tables that an adapter may have after a log; they start empty. -/
inductive Runs : List Exchange → Tables → Prop
  | start : Runs [] empty
  | step {log : List Exchange} {a a' : Tables} {e : Exchange} :
      Runs log a → Step a e a' → Runs (log ++ [e]) a'

variable {a a' : Tables} {e : Exchange} {log : List Exchange}

/-- One more exchange is one more step. -/
theorem runs_concat_iff : Runs (log ++ [e]) a' ↔ ∃ a, Runs log a ∧ Step a e a' := by
  constructor
  · intro h
    generalize hlog : log ++ [e] = all at h
    cases h with
    | start => simp at hlog
    | step hr hs =>
        obtain ⟨rfl, he⟩ := List.append_inj' hlog rfl
        cases he
        exact ⟨_, hr, hs⟩
  · rintro ⟨a, hr, hs⟩
    exact .step hr hs

/-- The tables start empty. -/
theorem runs_nil (h : Runs [] a) : a = empty := by
  generalize hlog : ([] : List Exchange) = log at h
  cases h with
  | start => rfl
  | step => simp at hlog

/-- An answered command was carried out exactly if it was accepted. -/
theorem Step.answered (h : Step a e a') (hr : e.response ≠ none) :
    (e.accepted = false ∧ a' = a) ∨
      (e.accepted = true ∧ ∃ handle, a.Fresh e handle ∧ a' = a.exec e.command handle) := by
  cases h with
  | kept hacc => exact .inl ⟨hacc, rfl⟩
  | done handle hacc hfresh => exact .inr ⟨hacc.resolve_right hr, handle, hfresh, rfl⟩

/-- A refused command leaves the tables. -/
theorem Step.refused (h : Step a e a') (hr : e.response ≠ none) (hacc : e.accepted = false) :
    a' = a := by
  obtain ⟨-, rfl⟩ | ⟨hacc', -⟩ := h.answered hr
  · rfl
  · rw [hacc] at hacc'
    cases hacc'

/-- An accepted command has an answer. -/
theorem response_of_accepted (hacc : e.accepted = true) : e.response ≠ none := by
  intro hr
  simp [Exchange.accepted, hr] at hacc

/-- An accepted one is carried out. -/
theorem Step.accepted (h : Step a e a') (hacc : e.accepted = true) :
    ∃ handle, a.Fresh e handle ∧ a' = a.exec e.command handle := by
  obtain ⟨hacc', -⟩ | ⟨-, h⟩ := h.answered (response_of_accepted hacc)
  · rw [hacc] at hacc'
    cases hacc'
  · exact h

/-- A command that is no table command and no close does nothing to the tables. -/
theorem Step.other (h : Step a e a') (hop : e.command.opcode ∉ [7, 0x0d, 0x0e, 0x10]) : a' = a := by
  simp only [List.mem_cons, List.not_mem_nil, or_false, not_or] at hop
  obtain ⟨h7, hd, he, h10⟩ := hop
  cases h with
  | kept => rfl
  | done handle =>
      funext t
      simp [exec, h7, hd, he, h10]

/-- Commands that touch no table can be left out. -/
theorem runs_append_other {es : List Exchange}
    (hes : ∀ e ∈ es, e.command.opcode ∉ [7, 0x0d, 0x0e, 0x10]) (h : Runs (log ++ es) a) :
    Runs log a := by
  induction es using List.reverseRecOn generalizing a with
  | nil => simpa using h
  | append_singleton es e ih =>
      rw [← List.append_assoc, runs_concat_iff] at h
      obtain ⟨b, hb, hs⟩ := h
      obtain rfl := hs.other (hes e (List.mem_append_right _ List.mem_cons_self))
      exact ih (fun x hx => hes x (List.mem_append_left _ hx)) hb

/-- An adapter can carry out everything it accepted; what adds no entry leaves the tables empty. -/
theorem runs_of_accepted {es : List Exchange}
    (hes : ∀ e ∈ es, e.accepted = true ∧ e.command.opcode ≠ 0x0d) : Runs es empty := by
  induction es using List.reverseRecOn with
  | nil => exact .start
  | append_singleton es e ih =>
      obtain ⟨hacc, hop⟩ := hes e (List.mem_append_right _ List.mem_cons_self)
      have hexec : empty.exec e.command 0 = empty := by
        funext t
        simp [exec, empty, hop]
      have hstep : Step empty e (empty.exec e.command 0) := .done 0 (.inl hacc) fun h => absurd h hop
      rw [hexec] at hstep
      exact .step (ih fun x hx => hes x (List.mem_append_left _ hx)) hstep

/-! ## the filters -/

/-- The filters, with the tables they are in. -/
def filters (a : Tables) : Set Filter := {f | f.table ∈ filter_tables ∧ f.handle ∈ a f.table}

/-- A filter is in one of the filter tables, under its handle. -/
theorem mem_filters {f : Filter} : f ∈ a.filters ↔ f.table ∈ filter_tables ∧ f.handle ∈ a f.table :=
  Iff.rfl

/-- At first there are none. -/
theorem filters_empty : empty.filters = ∅ := by
  ext f
  simp [mem_filters, empty]

theorem periodic_not_filter : table_periodic ∉ filter_tables := by decide

variable {c : Command} {handle : Nat} {t t' : UInt8}

/-- An entry is added to its table. -/
theorem exec_add (hop : c.opcode = 0x0d) (ht : c.table = some t) :
    a.exec c handle t' = if t' = t then insert handle (a t') else a t' := by
  by_cases h : t' = t
  · subst h
    simp [exec, hop, ht]
  · simp [exec, hop, ht, h, Ne.symm h]

/-- It is removed from its table. -/
theorem exec_remove (hop : c.opcode = 0x0e) (ht : c.table = some t) :
    a.exec c handle t' = if t' = t then a t' \ {c.handle} else a t' := by
  by_cases h : t' = t
  · subst h
    simp [exec, hop, ht]
  · simp [exec, hop, ht, h, Ne.symm h]

/-- A clear empties its table. -/
theorem exec_clear (hop : c.opcode = 0x10) (ht : c.table = some t) :
    a.exec c handle t' = if t' = t then ∅ else a t' := by
  by_cases h : t' = t
  · subst h
    simp [exec, hop, ht]
  · simp [exec, hop, ht, h, Ne.symm h]

/-- A close empties the filter tables, but not the periodic one. -/
theorem exec_close (hop : c.opcode = 7) :
    a.exec c handle t' = if t' ∈ filter_tables then ∅ else a t' := by
  simp [exec, hop]

/-- A new filter. -/
theorem filters_add (hop : c.opcode = 0x0d) (ht : c.table = some t) (hmem : t ∈ filter_tables) :
    (a.exec c handle).filters = insert ⟨handle, t⟩ a.filters := by
  ext ⟨h, t'⟩
  simp only [mem_filters, Set.mem_insert_iff, exec_add hop ht, Filter.mk.injEq]
  by_cases htt : t' = t
  · subst htt
    simp [hmem]
  · simp [htt]

/-- A removal takes its filter. -/
theorem filters_remove (hop : c.opcode = 0x0e) (ht : c.table = some t) :
    (a.exec c handle).filters = a.filters \ {⟨c.handle, t⟩} := by
  ext ⟨h, t'⟩
  simp only [mem_filters, Set.mem_sdiff, Set.mem_singleton_iff, exec_remove hop ht, Filter.mk.injEq]
  by_cases htt : t' = t
  · subst htt
    simp [and_assoc]
  · simp [htt]

/-- A clear takes the filters of its table. -/
theorem filters_clear (hop : c.opcode = 0x10) (ht : c.table = some t) :
    (a.exec c handle).filters = {f ∈ a.filters | decide (f.table ≠ t)} := by
  ext ⟨h, t'⟩
  simp only [mem_filters, Set.mem_ofPred_eq, exec_clear hop ht, decide_eq_true_eq]
  by_cases htt : t' = t
  · simp [htt]
  · simp [htt]

/-- A close takes all. -/
theorem filters_close (hop : c.opcode = 7) : (a.exec c handle).filters = ∅ := by
  ext f
  simp only [mem_filters, exec_close hop, Set.mem_empty_iff_false, iff_false, not_and]
  intro hmem
  simp [hmem]

/-- Only an add puts a handle in a table. -/
theorem exec_subset (hop : c.opcode ≠ 0x0d) : a.exec c handle t ⊆ a t := by
  intro h
  rw [exec, if_neg (fun hadd => hop hadd.1)]
  split_ifs
  · exact fun hh => hh.1
  · exact False.elim
  · exact False.elim
  · exact id

/-- What adds nothing only takes. -/
theorem Step.subset (h : Step a e a') (hop : e.command.opcode ≠ 0x0d) : a' t ⊆ a t := by
  cases h with
  | kept => exact Set.Subset.rfl
  | done => exact exec_subset hop

/-- Smaller tables hold fewer filters. -/
theorem filters_subset (h : ∀ t, a' t ⊆ a t) : a'.filters ⊆ a.filters :=
  fun f hf => ⟨hf.1, h f.table hf.2⟩

/-- A table command leaves the filters alone if it names another table. -/
theorem filters_eq (hop : c.opcode ≠ 7) (ht : c.table = some table_periodic) :
    (a.exec c handle).filters = a.filters := by
  ext ⟨h, t⟩
  simp only [mem_filters]
  refine and_congr_right fun hmem => ?_
  have hne : t ≠ table_periodic := fun h => periodic_not_filter (h ▸ hmem)
  simp [exec, hop, ht, Ne.symm hne]

/-- And the periodic messages if it names a table of filters, or is a close. -/
theorem periodic_eq (ht : c.opcode ≠ 7 → ∃ t ∈ filter_tables, c.table = some t) :
    a.exec c handle table_periodic = a table_periodic := by
  by_cases h7 : c.opcode = 7
  · rw [exec_close h7, if_neg periodic_not_filter]
  · obtain ⟨t, hmem, ht⟩ := ht h7
    have hne : t ≠ table_periodic := fun h => periodic_not_filter (h ▸ hmem)
    simp [exec, h7, ht, hne]

/-- Opens, closes and set-ups may empty the tables of filters, and do no more. -/
theorem Step.reset (h : Step a e a') (hop : e.command.opcode ∈ [6, 7, 0x12]) :
    a' table_periodic = a table_periodic ∧ a'.filters ⊆ a.filters := by
  have hne : e.command.opcode ∉ [0x0d, 0x0e, 0x10] := by
    simp only [List.mem_cons, List.not_mem_nil, or_false] at hop ⊢
    omega
  simp only [List.mem_cons, List.not_mem_nil, or_false, not_or] at hne
  refine ⟨?_, filters_subset fun t => h.subset hne.1⟩
  cases h with
  | kept => rfl
  | done handle =>
      by_cases h7 : e.command.opcode = 7
      · exact periodic_eq fun hne => absurd h7 hne
      · simp [exec, hne, h7]

/-- What opens and closes a channel leaves the periodic table, and adds no filter. -/
theorem runs_append_reset {es : List Exchange} (hes : ∀ e ∈ es, e.command.opcode ∈ [6, 7, 0x12])
    (h : Runs (log ++ es) a') :
    ∃ a, Runs log a ∧ a' table_periodic = a table_periodic ∧ a'.filters ⊆ a.filters := by
  induction es using List.reverseRecOn generalizing a' with
  | nil => exact ⟨a', by simpa using h, rfl, Set.Subset.rfl⟩
  | append_singleton es e ih =>
      rw [← List.append_assoc, runs_concat_iff] at h
      obtain ⟨b, hb, hs⟩ := h
      obtain ⟨a, ha, hperiodic, hfilters⟩ := ih (fun x hx => hes x (List.mem_append_left _ hx)) hb
      obtain ⟨hperiodic', hfilters'⟩ := hs.reset (hes e (List.mem_append_right _ List.mem_cons_self))
      exact ⟨a, ha, hperiodic'.trans hperiodic, hfilters'.trans hfilters⟩

end Tables

end Mongoose
