import Mathlib.Tactic.Common

/-!
# Mongoose.Lib.Prog

Programs over a state that may throw, and weakest preconditions for them.

A `Prog ε σ α` reads and changes a state `σ` and ends with a value or an
exception; the state an exception leaves is kept.  It may also refuse, when no
run from that state exists.  `wp m Q E s` says that wherever `m` ends from `s`
the value satisfies `Q`, or the exception `E`: partial correctness, with a
refusal satisfying everything.  The `wp` of each construct is a `simp` lemma, so
a program is run symbolically by `simp`, and a called program is replaced by its
triple with `Triple.call`.
-/

/-- A program with exceptions `ε`, a state `σ` and results `α`. -/
abbrev Prog (ε σ α : Type) := ExceptT ε (StateT σ Option) α

namespace Prog

variable {ε σ α β : Type}

/-- Every end of a program from a state. -/
def exec (m : Prog ε σ α) (s : σ) : Option (Except ε α × σ) := m s

/-! ## primitives -/

/-- There is no run. -/
def refuse : Prog ε σ α := fun _ => none

def read : Prog ε σ σ := fun s => some (.ok s, s)

def alter (f : σ → σ) : Prog ε σ Unit := fun s => some (.ok (), f s)

/-- An operation that touches no state. -/
def of (x : Except ε α) : Prog ε σ α := fun s => some (x, s)

def throw_if (c : Prop) [Decidable c] (e : ε) : Prog ε σ Unit := if c then throw e else pure ()

/-- `try { … } catch (...) { error = std::current_exception(); }`. -/
def attempt (m : Prog ε σ Unit) : Prog ε σ (Option ε) :=
  tryCatch (m >>= fun _ => pure none) fun e => pure (some e)

/-- Run a program if a condition holds. -/
def when (c : Prop) [Decidable c] (m : Prog ε σ Unit) : Prog ε σ Unit := if c then m else pure ()

/-- `if (error) std::rethrow_exception(error);`. -/
def rethrow : Option ε → Prog ε σ Unit
  | none => pure ()
  | some e => throw e

/-! ## executing -/

section exec

variable (s : σ)

/-- A value ends a program where it stands. -/
@[simp] theorem exec_pure (a : α) : (pure a : Prog ε σ α).exec s = some (.ok a, s) := rfl

/-- So does an exception. -/
@[simp] theorem exec_throw (e : ε) : (throw e : Prog ε σ α).exec s = some (.error e, s) := rfl

/-- A program goes on from where the one before ended with a value. -/
theorem exec_bind (m : Prog ε σ α) (f : α → Prog ε σ β) :
    (m >>= f).exec s = (m.exec s).bind fun r =>
      match r.1 with
      | .ok a => (f a).exec r.2
      | .error e => some (.error e, r.2) := by
  change (Option.bind (m s) fun r => ExceptT.bindCont f r.1 r.2) = _
  refine congrArg _ (funext fun r => ?_)
  obtain ⟨x, t⟩ := r
  cases x <;> rfl

/-- A handler goes on from where the exception was thrown. -/
theorem exec_tryCatch (m : Prog ε σ α) (h : ε → Prog ε σ α) :
    (tryCatch m h : Prog ε σ α).exec s = (m.exec s).bind fun r =>
      match r.1 with
      | .ok a => some (.ok a, r.2)
      | .error e => (h e).exec r.2 := by
  change (Option.bind (m s) fun r => _) = _
  refine congrArg _ (funext fun r => ?_)
  obtain ⟨x, t⟩ := r
  cases x <;> rfl

end exec

/-! ## weakest preconditions -/

/-- Wherever the program ends, its value satisfies `Q` or its exception `E`. -/
def wp (m : Prog ε σ α) (Q : α → σ → Prop) (E : ε → σ → Prop) (s : σ) : Prop :=
  ∀ r t, m.exec s = some (r, t) →
    match r with
    | .ok a => Q a t
    | .error e => E e t

section wp

variable {m : Prog ε σ α} {Q : α → σ → Prop} {E : ε → σ → Prop} {s : σ}

/-- The two kinds of end, apart. -/
theorem wp_iff : wp m Q E s ↔ (∀ a t, m.exec s = some (.ok a, t) → Q a t) ∧
    ∀ e t, m.exec s = some (.error e, t) → E e t := by
  refine ⟨fun h => ⟨fun a t => h (.ok a) t, fun e t => h (.error e) t⟩, fun h r t hr => ?_⟩
  cases r with
  | ok a => exact h.1 a t hr
  | error e => exact h.2 e t hr

/-- What holds however a program ends holds where it ends. -/
theorem wp_end {P : σ → Prop} {r : Except ε α} {t : σ} (h : wp m (fun _ => P) (fun _ => P) s)
    (hr : m.exec s = some (r, t)) : P t := by
  cases r with
  | ok a => exact h _ t hr
  | error e => exact h _ t hr

/-- A weaker condition holds of the end as well. -/
theorem wp_mono {Q' : α → σ → Prop} {E' : ε → σ → Prop} (h : wp m Q E s)
    (hQ : ∀ a t, Q a t → Q' a t) (hE : ∀ e t, E e t → E' e t) : wp m Q' E' s :=
  wp_iff.mpr ⟨fun a t ht => hQ a t ((wp_iff.mp h).1 a t ht),
    fun e t ht => hE e t ((wp_iff.mp h).2 e t ht)⟩

/-- Every end satisfies the trivial condition. -/
theorem wp_trivial : wp m (fun _ _ => True) (fun _ _ => True) s :=
  wp_iff.mpr ⟨fun _ _ _ => trivial, fun _ _ _ => trivial⟩

/-- Two conditions can be shown of the same end one by one. -/
theorem wp_and {Q' : α → σ → Prop} {E' : ε → σ → Prop} (h : wp m Q E s) (h' : wp m Q' E' s) :
    wp m (fun a t => Q a t ∧ Q' a t) (fun e t => E e t ∧ E' e t) s :=
  wp_iff.mpr ⟨fun a t ht => ⟨(wp_iff.mp h).1 a t ht, (wp_iff.mp h').1 a t ht⟩,
    fun e t ht => ⟨(wp_iff.mp h).2 e t ht, (wp_iff.mp h').2 e t ht⟩⟩

/-- A value satisfies its condition where the program stands. -/
@[simp] theorem wp_pure (a : α) : wp (pure a) Q E s ↔ Q a s := by
  simp [wp_iff]

/-- An exception satisfies its own. -/
@[simp] theorem wp_throw (e : ε) : wp (throw e) Q E s ↔ E e s := by
  simp [wp_iff]

/-- A program without a run satisfies everything. -/
@[simp] theorem wp_refuse : wp refuse Q E s := fun _ _ h => nomatch h

/-- What is read is the state. -/
@[simp] theorem wp_read {Q : σ → σ → Prop} : wp read Q E s ↔ Q s s := by
  simp [wp_iff, exec, read]

/-- The state is altered and no value comes of it. -/
@[simp] theorem wp_alter {Q : Unit → σ → Prop} (f : σ → σ) : wp (alter f) Q E s ↔ Q () (f s) := by
  rw [wp_iff]
  constructor
  · rintro ⟨hok, -⟩
    exact hok () _ rfl
  · intro h
    constructor <;> intro a t ht <;> cases ht
    exact h

/-- An operation ends as it says, in the same state. -/
@[simp] theorem wp_of (x : Except ε α) :
    wp (of x) Q E s ↔ (∀ a, x = .ok a → Q a s) ∧ ∀ e, x = .error e → E e s := by
  cases x <;> simp [wp_iff, exec, of]

/-- Sequencing: the condition of the first is that of the second. -/
@[simp] theorem wp_bind {m : Prog ε σ β} {f : β → Prog ε σ α} :
    wp (m >>= f) Q E s ↔ wp m (fun b t => wp (f b) Q E t) E s := by
  simp only [wp_iff, exec_bind, Option.bind_eq_some_iff]
  constructor
  · rintro ⟨hok, herr⟩
    exact ⟨fun b t hb => ⟨fun a u ha => hok a u ⟨_, hb, ha⟩, fun e u he => herr e u ⟨_, hb, he⟩⟩,
      fun e t he => herr e t ⟨_, he, rfl⟩⟩
  · rintro ⟨hok, herr⟩
    constructor
    · rintro a u ⟨⟨x, t⟩, hx, ha⟩
      cases x with
      | ok b => exact (hok b t hx).1 a u ha
      | error e => cases ha
    · rintro e u ⟨⟨x, t⟩, hx, he⟩
      cases x with
      | ok b => exact (hok b t hx).2 e u he
      | error e' => cases he; exact herr e t hx

/-- A handler takes over where an exception ends the program. -/
@[simp] theorem wp_tryCatch {h : ε → Prog ε σ α} :
    wp (tryCatch m h : Prog ε σ α) Q E s ↔ wp m Q (fun e t => wp (h e) Q E t) s := by
  simp only [wp_iff, exec_tryCatch, Option.bind_eq_some_iff]
  constructor
  · rintro ⟨hok, herr⟩
    exact ⟨fun a t ha => hok a t ⟨_, ha, rfl⟩,
      fun e t he => ⟨fun a u ha => hok a u ⟨_, he, ha⟩, fun e' u he' => herr e' u ⟨_, he, he'⟩⟩⟩
  · rintro ⟨hok, herr⟩
    constructor
    · rintro a u ⟨⟨x, t⟩, hx, ha⟩
      cases x with
      | ok b => cases ha; exact hok a t hx
      | error e => exact (herr e t hx).1 a u ha
    · rintro e u ⟨⟨x, t⟩, hx, he⟩
      cases x with
      | ok b => cases he
      | error e' => exact (herr e' t hx).2 e u he

/-- A check throws, or the program goes on past it. -/
@[simp] theorem wp_throw_if {Q : Unit → σ → Prop} (c : Prop) [Decidable c] (e : ε) :
    wp (throw_if c e) Q E s ↔ (c → E e s) ∧ (¬ c → Q () s) := by
  by_cases hc : c <;> simp [throw_if, hc]

/-- A conditional program runs, or the state is as before. -/
@[simp] theorem wp_when {m : Prog ε σ Unit} {Q : Unit → σ → Prop} (c : Prop) [Decidable c] :
    wp (when c m) Q E s ↔ (c → wp m Q E s) ∧ (¬ c → Q () s) := by
  by_cases hc : c <;> simp [when, hc]

/-- An attempt ends with the exception as a value. -/
@[simp] theorem wp_attempt {m : Prog ε σ Unit} {Q : Option ε → σ → Prop} :
    wp (attempt m) Q E s ↔ wp m (fun _ t => Q none t) (fun e t => Q (some e) t) s := by
  rw [attempt, wp_tryCatch, wp_bind]
  simp

/-- An exception that was kept is thrown now. -/
@[simp] theorem wp_rethrow {Q : Unit → σ → Prop} (o : Option ε) :
    wp (rethrow o) Q E s ↔ (o = none → Q () s) ∧ ∀ e, o = some e → E e s := by
  cases o <;> simp [rethrow]

/-- Either branch under its condition. -/
theorem wp_ite (c : Prop) [Decidable c] (m n : Prog ε σ α) :
    wp (if c then m else n) Q E s ↔ (c → wp m Q E s) ∧ (¬ c → wp n Q E s) := by
  by_cases hc : c <;> simp [hc]

end wp

/-! ## triples -/

/-- From every state with `P` the program ends with `Q`, or throws with `E`. -/
def Triple (P : σ → Prop) (m : Prog ε σ α) (Q : α → σ → Prop) (E : ε → σ → Prop) : Prop :=
  ∀ s, P s → wp m Q E s

/-- A called program is what its triple says. -/
theorem Triple.call {P : σ → Prop} {m : Prog ε σ α} {Q Q' : α → σ → Prop} {E E' : ε → σ → Prop}
    {s : σ} (h : Triple P m Q E) (hs : P s) (hQ : ∀ a t, Q a t → Q' a t)
    (hE : ∀ e t, E e t → E' e t) : wp m Q' E' s :=
  wp_mono (h s hs) hQ hE

/-- The program keeps an invariant, also when it throws. -/
def Keeps (I : σ → Prop) (m : Prog ε σ α) : Prop := Triple I m (fun _ => I) fun _ => I

namespace Keeps

variable {I : σ → Prop} {m : Prog ε σ α}

/-- A value keeps every invariant. -/
theorem pure (a : α) : Keeps I (Pure.pure a : Prog ε σ α) := fun _ h => (wp_pure a).mpr h

/-- So does an exception. -/
theorem throw (e : ε) : Keeps I (throw e : Prog ε σ α) := fun _ h => (wp_throw e).mpr h

/-- So does a program without a run. -/
theorem refuse : Keeps I (refuse : Prog ε σ α) := fun _ _ => wp_refuse

/-- So does an operation on no state. -/
theorem of (x : Except ε α) : Keeps I (of x : Prog ε σ α) :=
  fun _ h => (wp_of x).mpr ⟨fun _ _ => h, fun _ _ => h⟩

/-- So does a check. -/
theorem throw_if (c : Prop) [Decidable c] (e : ε) : Keeps I (throw_if c e) :=
  fun _ h => (wp_throw_if c e).mpr ⟨fun _ => h, fun _ => h⟩

/-- An alteration keeps what it keeps of every state. -/
theorem alter {f : σ → σ} (h : ∀ s, I s → I (f s)) : Keeps I (alter f : Prog ε σ Unit) :=
  fun s hs => (wp_alter f).mpr (h s hs)

/-- What both programs keep their sequence keeps. -/
theorem bind {m : Prog ε σ β} {f : β → Prog ε σ α} (hm : Keeps I m) (hf : ∀ b, Keeps I (f b)) :
    Keeps I (m >>= f) :=
  fun s hs => wp_bind.mpr (wp_mono (hm s hs) (fun b t ht => hf b t ht) fun _ _ => id)

/-- Past a program that keeps the invariant, in a program that does not. -/
theorem call {m : Prog ε σ β} {f : β → Prog ε σ α} {Q : α → σ → Prop} {E : ε → σ → Prop} {s : σ}
    (hm : Keeps I m) (hs : I s) (hE : ∀ e t, I t → E e t) (hf : ∀ b t, I t → wp (f b) Q E t) :
    wp (m >>= f) Q E s :=
  wp_bind.mpr (Triple.call hm hs hf hE)

/-- What is read is the state. -/
theorem read_bind {f : σ → Prog ε σ α} (h : ∀ s, I s → wp (f s) (fun _ => I) (fun _ => I) s) :
    Keeps I (read >>= f) :=
  fun s hs => wp_bind.mpr (wp_read.mpr (h s hs))

/-- What a program and its handler keep both keep together. -/
theorem tryCatch {h : ε → Prog ε σ α} (hm : Keeps I m) (hh : ∀ e, Keeps I (h e)) :
    Keeps I (tryCatch m h : Prog ε σ α) :=
  fun s hs => wp_tryCatch.mpr (wp_mono (hm s hs) (fun _ _ => id) fun e t ht => hh e t ht)

/-- Reading keeps every invariant. -/
theorem read : Keeps I (Prog.read : Prog ε σ σ) := fun _ hs => wp_read.mpr hs

/-- So does throwing an exception that was kept. -/
theorem rethrow (o : Option ε) : Keeps I (rethrow o : Prog ε σ Unit) := by
  cases o
  · exact .pure _
  · exact .throw _

/-- What both branches keep the choice keeps. -/
theorem ite (c : Prop) [Decidable c] {n : Prog ε σ α} (hm : Keeps I m) (hn : Keeps I n) :
    Keeps I (if c then m else n) := by
  split
  · exact hm
  · exact hn

/-- A conditional program keeps what the program keeps. -/
theorem when {c : Prop} [Decidable c] {m : Prog ε σ Unit} (h : Keeps I m) : Keeps I (when c m) :=
  ite c h (.pure _)

/-- So does an attempt of it. -/
theorem attempt {m : Prog ε σ Unit} (h : Keeps I m) : Keeps I (attempt m) :=
  tryCatch (h.bind fun _ => .pure _) fun _ => .pure _

end Keeps

/-! ## programs that always run -/

/-- Whatever the state, the program has a run from it. -/
def Ends (m : Prog ε σ α) : Prop := ∀ s, ∃ r t, m.exec s = some (r, t)

namespace Ends

variable {m : Prog ε σ α}

/-- A value is an end. -/
theorem pure (a : α) : Ends (Pure.pure a : Prog ε σ α) := fun s => ⟨.ok a, s, rfl⟩

/-- So is an exception. -/
theorem throw (e : ε) : Ends (throw e : Prog ε σ α) := fun s => ⟨.error e, s, rfl⟩

/-- The state can always be read. -/
theorem read : Ends (Prog.read : Prog ε σ σ) := fun s => ⟨.ok s, s, rfl⟩

/-- And altered. -/
theorem alter (f : σ → σ) : Ends (Prog.alter f : Prog ε σ Unit) := fun s => ⟨.ok (), f s, rfl⟩

/-- An operation on no state ends as it says. -/
theorem of (x : Except ε α) : Ends (Prog.of x : Prog ε σ α) := fun s => ⟨x, s, rfl⟩

/-- A program that ends is gone on from, or left by its exception. -/
theorem bind {m : Prog ε σ β} {f : β → Prog ε σ α} (hm : Ends m) (hf : ∀ b, Ends (f b)) : Ends (m >>= f) := by
  intro s
  obtain ⟨r, t, hr⟩ := hm s
  cases r with
  | error e => exact ⟨.error e, t, by rw [exec_bind, hr]; rfl⟩
  | ok b =>
      obtain ⟨r', u, hu⟩ := hf b t
      exact ⟨r', u, by rw [exec_bind, hr]; exact hu⟩

/-- A handler goes on from an exception. -/
theorem tryCatch {h : ε → Prog ε σ α} (hm : Ends m) (hh : ∀ e, Ends (h e)) :
    Ends (tryCatch m h : Prog ε σ α) := by
  intro s
  obtain ⟨r, t, hr⟩ := hm s
  cases r with
  | ok a => exact ⟨.ok a, t, by rw [exec_tryCatch, hr]; rfl⟩
  | error e =>
      obtain ⟨r', u, hu⟩ := hh e t
      exact ⟨r', u, by rw [exec_tryCatch, hr]; exact hu⟩

/-- Either branch ends. -/
theorem ite (c : Prop) [Decidable c] {n : Prog ε σ α} (hm : Ends m) (hn : Ends n) :
    Ends (if c then m else n) := by
  split
  · exact hm
  · exact hn

/-- A check throws or passes. -/
theorem throw_if (c : Prop) [Decidable c] (e : ε) : Ends (Prog.throw_if c e : Prog ε σ Unit) :=
  ite c (.throw e) (.pure _)

/-- A conditional program ends if the program does. -/
theorem when {c : Prop} [Decidable c] {m : Prog ε σ Unit} (h : Ends m) : Ends (when c m) := ite c h (.pure _)

/-- A program for each of a list, if each ends. -/
theorem forM {f : β → Prog ε σ PUnit} (h : ∀ b, Ends (f b)) (bs : List β) : Ends (bs.forM f) := by
  induction bs with
  | nil => exact .pure _
  | cons b bs ih => exact (h b).bind fun _ => ih

end Ends

end Prog
