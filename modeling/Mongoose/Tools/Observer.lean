import Mathlib.Data.Int.Order.Basic
import Mathlib.Data.List.Basic
import Mongoose.J2534
import Mongoose.Lib.Run

/-!
# Mongoose.Tools.Observer

The ignition observer of the test client.

`turn` is one pass of the loop of `check_vehicle_ignition`, section by section, and tells
what it does in a log.  `Permitted` says when a request may be written, by the log so far:
onto a bus that is awake, ten seconds after the last request, which is settled, and not
after two that went unanswered.  `requests_permitted` says that no request is written else.
-/

namespace Mongoose

/-! ## times -/

/-- Times in milliseconds, with the sums and differences that the tool computes of
them: the doubles of `now_ms`, or exact numbers. -/
class Millis (T : Type) extends LinearOrder T, Add T, Sub T where
  ms : Nat → T
  /-- A second and a bit before the start is more than a second before any later time. -/
  early : ∀ {start now : T}, start ≤ now → ms 1000 < now - (start - ms 1001)

open Millis

instance : Millis Int where
  ms n := n
  early h := by
    show (1000 : Int) < _ - (_ - 1001)
    omega

/-! ## the state -/

/-- The variables of the loop that decide anything, and the counters it reports. -/
structure Observer (T : Type) where
  finish : T
  next_tick : T
  last_frame : T
  last_request : T
  sent_at : T
  total : Nat := 0
  tick_frames : Nat := 0
  requests : Nat := 0
  replies : Nat := 0
  unanswered : Nat := 0
  write_failures : Nat := 0
  overflows : Nat := 0
  other_errors : Nat := 0
  transitions : Nat := 0
  streak : Nat := 0
  quiet : Bool := false
  outstanding : Bool := false
  passive : Bool := false
  /-- The loop was left because the channel is gone. -/
  gone : Bool := false
  deriving DecidableEq

/-- What one pass gets from outside: the readings of the clock, and what the driver returns. -/
structure Pass (T : Type) where
  /-- The reading that the loop condition takes, the sample, and the one after a write. -/
  check : T
  now : T
  written : T
  rd : Int := 0
  batch : List PASSTHRU_MSG := []
  wr : Int := 0
  sent : Nat := 1

/-- What is observed, in the order in which it happens. -/
inductive Observed (T : Type)
  /-- A reply to the outstanding request. -/
  | replied
  /-- Frames were received in the pass with this sample. -/
  | received (sample : T)
  | quiet
  /-- The bus went from quiet to active, and requests resumed if they had stopped. -/
  | active (resumed : Bool)
  | unanswered
  /-- A request was written: the sample that permitted it, and the reading after the write. -/
  | written (sample returned : T)
  /-- A second is over in which so many frames were counted. -/
  | tick (frames : Nat) (resumed : Bool)
  deriving DecidableEq

namespace Observer

variable {T : Type}

section passes

variable [Millis T]

/-- Nothing is transmitted until a frame has been received. -/
def start (start : T) (seconds : Nat) : Observer T :=
  { finish := start + ms (seconds * 1000)
    next_tick := start + ms 1000
    last_frame := start - ms 1001
    last_request := start - ms 10000
    sent_at := ms 0 }

/-! ## one pass -/

/-- The errors of a read. -/
def read (p : Pass T) (s : Observer T) : Observer T :=
  if p.rd = ERR_BUFFER_OVERFLOW then { s with overflows := s.overflows + 1 }
  else if p.rd ≠ 0 ∧ p.rd ≠ ERR_BUFFER_EMPTY ∧ p.rd ≠ ERR_TIMEOUT then
    { s with
      other_errors := s.other_errors + 1
      gone := p.rd = ERR_DEVICE_NOT_CONNECTED ∨ p.rd = ERR_INVALID_CHANNEL_ID }
  else s

/-- A positive response of the engine ECU to mode 01 PID 00. -/
def answers (m : PASSTHRU_MSG) : Bool :=
  7 ≤ m.DataSize.toNat ∧ m.Data.getD 2 0 = 0x07 ∧ m.Data.getD 3 0 = 0xe8 ∧ m.Data.getD 5 0 = 0x41 ∧
    m.Data.getD 6 0 = 0x00

/-- The frames of a batch, one after the other. -/
def hear : List PASSTHRU_MSG → Observer T → Observer T × List (Observed T)
  | [], s => (s, [])
  | m :: batch, s =>
      if s.outstanding && answers m then
        let x := hear batch { s with replies := s.replies + 1, outstanding := false, streak := 0 }
        (x.1, .replied :: x.2)
      else hear batch s

/-- The batch as a whole. -/
def count (p : Pass T) (s : Observer T) : Observer T × List (Observed T) :=
  if p.batch.length ≠ 0 then
    ({ s with
        total := s.total + p.batch.length
        tick_frames := s.tick_frames + p.batch.length
        last_frame := p.now },
      [.received p.now])
  else (s, [])

/-- The bus is quiet when no frame has come for a second. -/
def watch (p : Pass T) (s : Observer T) : Observer T × List (Observed T) :=
  let now_quiet : Bool := p.now - s.last_frame > ms 1000
  if now_quiet ≠ s.quiet then
    let s := { s with quiet := now_quiet, transitions := s.transitions + 1 }
    if s.quiet then (s, [.quiet])
    else if s.passive then ({ s with passive := false, streak := 0 }, [.active true])
    else (s, [.active false])
  else (s, [])

/-- A request that has waited for a second goes unanswered. -/
def expire (p : Pass T) (s : Observer T) : Observer T × List (Observed T) :=
  if s.outstanding ∧ p.now - s.sent_at > ms 1000 then
    ({ s with
        unanswered := s.unanswered + 1
        outstanding := false
        streak := s.streak + 1
        passive := s.passive || s.streak + 1 ≥ 2 },
      [.unanswered])
  else (s, [])

/-- The request. -/
def ask (p : Pass T) (s : Observer T) : Observer T × List (Observed T) :=
  if s.quiet = false ∧ s.outstanding = false ∧ s.passive = false ∧ p.now - s.last_request ≥ ms 10000 then
    ({ s with
        write_failures := if p.wr ≠ 0 ∨ p.sent ≠ 1 then s.write_failures + 1 else s.write_failures
        requests := s.requests + 1
        outstanding := true
        sent_at := p.written
        last_request := p.written },
      [.written p.now p.written])
  else (s, [])

/-- The report of each second. -/
def tick (p : Pass T) (s : Observer T) : Observer T × List (Observed T) :=
  if p.now ≥ s.next_tick then
    let resumed : Bool := s.passive && s.tick_frames > 1800
    ({ s with
        passive := if resumed then false else s.passive
        streak := if resumed then 0 else s.streak
        tick_frames := 0
        next_tick := s.next_tick + ms 1000 },
      [.tick s.tick_frames resumed])
  else (s, [])

/-- One section behind another. -/
def andThen (x : Observer T × List (Observed T)) (f : Observer T → Observer T × List (Observed T)) :
    Observer T × List (Observed T) :=
  ((f x.1).1, x.2 ++ (f x.1).2)

/-- The body of the loop. -/
def turn (p : Pass T) (s : Observer T) : Observer T × List (Observed T) :=
  let s := s.read p
  if s.gone then (s, [])
  else
    andThen (andThen (andThen (andThen (andThen (hear p.batch s)
      (count p)) (watch p)) (expire p)) (ask p)) (tick p)

/-- One pass, if the loop goes on. -/
def step (s : Observer T) (p : Pass T) : Option (Observer T) :=
  if s.gone = false ∧ p.check < s.finish then some (s.turn p).1 else none

/-- The log. -/
def record (s : Observer T) (p : Pass T) (_ : Observer T) (log : List (Observed T)) : List (Observed T) :=
  log ++ (s.turn p).2

end passes

/-! ## when a request is permitted -/

/-- No request is written. -/
def Unwritten (es : List (Observed T)) : Prop := ∀ sample returned, .written sample returned ∉ es

/-- The bus wakes, or carries the traffic of an ignition that is on. -/
def Wakes (es : List (Observed T)) : Prop :=
  (∃ resumed, .active resumed ∈ es) ∨ ∃ frames resumed, .tick frames resumed ∈ es ∧ 1800 < frames

/-- Requests are not taken up again after a spell of listening. -/
def Unresumed (es : List (Observed T)) : Prop := .active true ∉ es ∧ ∀ frames, .tick frames true ∉ es

/-- After this log a request may be written in a pass with this sample. -/
structure Permitted [Millis T] (past : List (Observed T)) (sample : T) : Prop where
  /-- Frames came at most a second before. -/
  awake : ∃ t, .received t ∈ past ∧ sample - t ≤ ms 1000
  /-- The last request was written at least ten seconds before, and has had its reply or been given up. -/
  spaced : ∀ a sample' returned b, past = a ++ .written sample' returned :: b → Unwritten b →
    sample - returned ≥ ms 10000 ∧ (.replied ∈ b ∨ .unanswered ∈ b)
  /-- When two requests in a row went unanswered, with no resumption between, the bus has woken since. -/
  heeded : ∀ a b c, past = a ++ .unanswered :: (b ++ .unanswered :: c) → .replied ∉ b → Unresumed b →
    Wakes c

section logs

variable {b es : List (Observed T)}

/-- Where an entry of a log stands when the log grows by one. -/
theorem concat_eq_append_cons_iff {α : Type} {log a b : List α} {e x : α} :
    log ++ [e] = a ++ x :: b ↔
      (b = [] ∧ log = a ∧ e = x) ∨ ∃ b', b = b' ++ [e] ∧ log = a ++ x :: b' := by
  obtain rfl | ⟨b, y, rfl⟩ := List.eq_nil_or_concat' b
  · simp
  · rw [← List.cons_append, ← List.append_assoc, List.append_singleton_inj]
    constructor
    · intro ⟨hl, he⟩
      exact .inr ⟨b, by rw [he], hl⟩
    · intro h
      obtain ⟨hb, -⟩ | ⟨b', hb, hl⟩ := h
      · simp at hb
      · obtain ⟨rfl, rfl⟩ := List.append_singleton_inj.mp hb
        exact ⟨hl, rfl⟩

/-- What held of a log holds of its beginning. -/
theorem Unwritten.of_append (h : Unwritten (b ++ es)) : Unwritten b :=
  fun sample returned hm => h sample returned (List.mem_append_left es hm)

/-- A stretch without a resumption has none in its parts. -/
theorem Unresumed.of_append (h : Unresumed (b ++ es)) : Unresumed b ∧ Unresumed es := by
  simp only [Unresumed, List.mem_append, not_or, forall_and] at h ⊢
  grind

/-- A log that wakes the observer does so whatever follows, -/
theorem Wakes.append_left (h : Wakes b) : Wakes (b ++ es) := by
  obtain ⟨r, hr⟩ | ⟨n, r, hr, hn⟩ := h
  · exact .inl ⟨r, List.mem_append_left es hr⟩
  · exact .inr ⟨n, r, List.mem_append_left es hr, hn⟩

/-- and whatever came before. -/
theorem Wakes.append_right (h : Wakes es) : Wakes (b ++ es) := by
  obtain ⟨r, hr⟩ | ⟨n, r, hr, hn⟩ := h
  · exact .inl ⟨r, List.mem_append_right b hr⟩
  · exact .inr ⟨n, r, List.mem_append_right b hr, hn⟩

end logs

/-! ## the invariant -/

section invariant

variable [Millis T] {t₀ : T} {s s' : Observer T} {e : Observed T} {log : List (Observed T)} {p : Pass T}
  {n m : Nat}

/-- The state knows what the log says of the last frame, the last request and the last
two requests without a reply. -/
structure Kept (t₀ : T) (s : Observer T) (log : List (Observed T)) : Prop where
  heard : s.last_frame = t₀ - ms 1001 ∨ .received s.last_frame ∈ log
  asked : ∀ a sample returned b, log = a ++ .written sample returned :: b → Unwritten b →
    s.last_request = returned ∧ (s.outstanding = false → .replied ∈ b ∨ .unanswered ∈ b)
  once : ∀ a b, log = a ++ .unanswered :: b → .replied ∉ b → Unresumed b →
    s.passive = true ∨ 1 ≤ s.streak
  twice : ∀ a b c, log = a ++ .unanswered :: (b ++ .unanswered :: c) → .replied ∉ b → Unresumed b →
    s.passive = true ∨ Wakes c
  lawful : ∀ past sample returned rest, log = past ++ .written sample returned :: rest →
    Permitted past sample

/-- The observer starts with an empty log. -/
theorem kept_start (seconds : Nat) : Kept t₀ (start t₀ seconds) [] where
  heard := .inl rfl
  asked := by simp
  once := by simp
  twice := by simp
  lawful := by simp

/-- What a section other than the request may do when it tells of `e`. -/
structure Follows (s : Observer T) (e : Observed T) (s' : Observer T) : Prop where
  unwritten : ∀ sample returned, e ≠ .written sample returned
  heard : s'.last_frame = s.last_frame ∨ e = .received s'.last_frame
  asked : s'.last_request = s.last_request
  settled : s'.outstanding = false → s.outstanding = false ∨ e = .replied ∨ e = .unanswered
  once : e ≠ .replied → Unresumed [e] → s.passive = true ∨ 1 ≤ s.streak → s'.passive = true ∨ 1 ≤ s'.streak
  first : e = .unanswered → s'.passive = true ∨ 1 ≤ s'.streak
  second : e = .unanswered → s.passive = true ∨ 1 ≤ s.streak → s'.passive = true
  passive : s.passive = true → s'.passive = true ∨ Wakes [e]

/-- One more entry, with the state that follows it. -/
theorem Kept.follows (h : Kept t₀ s log) (hf : Follows s e s') : Kept t₀ s' (log ++ [e]) where
  heard := by
    rcases hf.heard with hl | rfl
    · rw [hl]
      exact h.heard.imp_right (List.mem_append_left _)
    · exact .inr (by simp)
  asked := by
    intro a sample returned b hb hu
    obtain ⟨-, -, rfl⟩ | ⟨b, rfl, rfl⟩ := concat_eq_append_cons_iff.mp hb
    · exact absurd rfl (hf.unwritten sample returned)
    obtain ⟨hr, ho⟩ := h.asked a sample returned b rfl hu.of_append
    refine ⟨hf.asked.trans hr, fun hout => ?_⟩
    rcases hf.settled hout with hs | rfl | rfl
    · exact (ho hs).imp (List.mem_append_left _) (List.mem_append_left _)
    · simp
    · simp
  once := by
    intro a b hb hn hu
    obtain ⟨-, -, rfl⟩ | ⟨b, rfl, rfl⟩ := concat_eq_append_cons_iff.mp hb
    · exact hf.first rfl
    rw [List.mem_append, List.mem_singleton, not_or] at hn
    exact hf.once (Ne.symm hn.2) hu.of_append.2 (h.once a b rfl hn.1 hu.of_append.1)
  twice := by
    intro a b c hc hn hu
    rw [← List.cons_append, ← List.append_assoc] at hc
    obtain ⟨rfl, hl, rfl⟩ | ⟨c, rfl, hl⟩ := concat_eq_append_cons_iff.mp hc
    · exact .inl (hf.second rfl (h.once a b hl hn hu))
    · rw [List.append_assoc, List.cons_append] at hl
      rcases h.twice a b c hl hn hu with hp | hw
      · exact (hf.passive hp).imp_right Wakes.append_right
      · exact .inr hw.append_left
  lawful := by
    intro past sample returned rest hr
    obtain ⟨-, -, rfl⟩ | ⟨rest, rfl, hl⟩ := concat_eq_append_cons_iff.mp hr
    · exact absurd rfl (hf.unwritten sample returned)
    · exact h.lawful past sample returned rest hl

/-- A permitted request. -/
theorem Kept.written {sample returned : T} (h : Kept t₀ s log) (hp : Permitted log sample) :
    Kept t₀
      { s with
        write_failures := n, requests := m, outstanding := true, sent_at := returned, last_request := returned }
      (log ++ [.written sample returned]) where
  heard := h.heard.imp_right (List.mem_append_left _)
  asked := by
    intro a sample' returned' b hb hu
    obtain ⟨-, -, he⟩ | ⟨b, rfl, -⟩ := concat_eq_append_cons_iff.mp hb
    · cases he
      simp
    · exact absurd (by simp) (hu sample returned)
  once := by
    intro a b hb hn hu
    obtain ⟨-, -, he⟩ | ⟨b, rfl, hl⟩ := concat_eq_append_cons_iff.mp hb
    · cases he
    · exact h.once a b hl (fun hm => hn (List.mem_append_left _ hm)) hu.of_append.1
  twice := by
    intro a b c hc hn hu
    rw [← List.cons_append, ← List.append_assoc] at hc
    obtain ⟨-, -, he⟩ | ⟨c, rfl, hl⟩ := concat_eq_append_cons_iff.mp hc
    · cases he
    · rw [List.append_assoc, List.cons_append] at hl
      exact (h.twice a b c hl hn hu).imp_right Wakes.append_left
  lawful := by
    intro past sample' returned' rest hr
    obtain ⟨-, rfl, he⟩ | ⟨rest, rfl, hl⟩ := concat_eq_append_cons_iff.mp hr
    · cases he
      exact hp
    · exact h.lawful past sample' returned' rest hl

/-! ## the sections -/

/-- A pass that only reads logs nothing. -/
theorem kept_read (p : Pass T) (h : Kept t₀ s log) : Kept t₀ (s.read p) log := by
  unfold read
  split
  · exact { h with }
  split
  · exact { h with }
  · exact h

/-- The frames of a batch are logged in order. -/
theorem kept_hear (batch : List PASSTHRU_MSG) (h : Kept t₀ s log) :
    Kept t₀ (hear batch s).1 (log ++ (hear batch s).2) := by
  induction batch generalizing s log with
  | nil => simpa [hear] using h
  | cons m batch ih =>
      by_cases hm : s.outstanding && answers m
      · rw [hear, if_pos hm, List.append_cons]
        have hf : Follows s .replied
            { s with replies := s.replies + 1, outstanding := false, streak := 0 } := by
          constructor <;> simp +contextual
        exact ih (h.follows hf)
      · rw [hear, if_neg hm]
        exact ih h

/-- So is what a pass counts. -/
theorem kept_count (p : Pass T) (h : Kept t₀ s log) : Kept t₀ (s.count p).1 (log ++ (s.count p).2) := by
  by_cases hb : p.batch.length ≠ 0
  · rw [count, if_pos hb]
    apply h.follows
    constructor <;> simp +contextual
  · rw [count, if_neg hb, List.append_nil]
    exact h

/-- A transition: when it ends a spell of listening, it says so. -/
theorem kept_watch (p : Pass T) (h : Kept t₀ s log) : Kept t₀ (s.watch p).1 (log ++ (s.watch p).2) := by
  simp only [watch]
  split
  · split
    · apply h.follows
      constructor <;> simp +contextual
    split
    · apply h.follows
      constructor <;> simp [Unresumed, Wakes]
    · apply h.follows
      constructor <;> simp +contextual [Wakes]
  · rw [List.append_nil]
    exact h

/-- A second request without a reply stops them. -/
theorem kept_expire (p : Pass T) (h : Kept t₀ s log) : Kept t₀ (s.expire p).1 (log ++ (s.expire p).2) := by
  by_cases hc : s.outstanding ∧ p.now - s.sent_at > ms 1000
  · rw [expire, if_pos hc]
    apply h.follows
    constructor <;> simp +contextual
  · rw [expire, if_neg hc, List.append_nil]
    exact h

/-- A report: when its traffic ends a spell of listening, it says so. -/
theorem kept_tick (p : Pass T) (h : Kept t₀ s log) : Kept t₀ (s.tick p).1 (log ++ (s.tick p).2) := by
  by_cases hc : p.now ≥ s.next_tick
  · rw [tick, if_pos hc]
    apply h.follows
    cases hr : s.passive && decide (s.tick_frames > 1800) with
    | false => constructor <;> simp +contextual
    | true =>
        have hn : 1800 < s.tick_frames := by simp_all
        constructor <;> simp [Unresumed, Wakes, hn]
  · rw [tick, if_neg hc, List.append_nil]
    exact h

/-- After the transitions, the bus is taken for quiet when no frame has come for a second. -/
theorem quiet_watch : (s.watch p).1.quiet = decide (p.now - (s.watch p).1.last_frame > ms 1000) := by
  simp only [watch]
  split
  · split
    · rfl
    split
    · rfl
    · rfl
  · next hq => simpa using (Eq.symm (not_not.mp hq))

/-- The end of a wait for an answer is no frame. -/
theorem quiet_expire : (s.expire p).1.quiet = s.quiet ∧ (s.expire p).1.last_frame = s.last_frame := by
  unfold expire
  split <;> simp

/-- A request is logged if the bus has been quiet long enough. -/
theorem kept_ask (h : Kept t₀ s log) (hclock : t₀ ≤ p.now)
    (hquiet : s.quiet = decide (p.now - s.last_frame > ms 1000)) :
    Kept t₀ (s.ask p).1 (log ++ (s.ask p).2) := by
  by_cases hc : s.quiet = false ∧ s.outstanding = false ∧ s.passive = false ∧ p.now - s.last_request ≥ ms 10000
  · obtain ⟨hq, ho, hp, hl⟩ := hc
    rw [ask, if_pos ⟨hq, ho, hp, hl⟩]
    have hnow : p.now - s.last_frame ≤ ms 1000 := by simpa [hq] using hquiet
    have hpermitted : Permitted log p.now := by
      refine ⟨⟨s.last_frame, h.heard.resolve_left fun he => ?_, hnow⟩, ?_, ?_⟩
      · rw [he] at hnow
        exact absurd (early hclock) (not_lt.mpr hnow)
      · intro a sample returned b hb hu
        obtain ⟨rfl, hs⟩ := h.asked a sample returned b hb hu
        exact ⟨hl, hs ho⟩
      · intro a b c hc hn hu
        exact (h.twice a b c hc hn hu).resolve_left (by simp [hp])
    exact h.written hpermitted
  · rw [ask, if_neg hc, List.append_nil]
    exact h

/-- A whole turn keeps the log. -/
theorem kept_turn (h : Kept t₀ s log) (hclock : t₀ ≤ p.now) :
    Kept t₀ (s.turn p).1 (log ++ (s.turn p).2) := by
  rw [turn]
  split
  · rw [List.append_nil]
    exact kept_read p h
  simp only [andThen, ← List.append_assoc]
  have hcounted := kept_count p (kept_hear p.batch (kept_read p h))
  have hexpired := kept_expire p (kept_watch p hcounted)
  apply kept_tick
  apply kept_ask hexpired hclock
  rw [quiet_expire.1, quiet_expire.2]
  exact quiet_watch

end invariant

/-! ## runs -/

variable [Millis T]

/-- **Whatever is read and however the writes fare, no request is written unless it is permitted**:
the bus is awake, ten seconds have passed, no request is outstanding, and two in a row without a
reply have been heeded. -/
theorem requests_permitted {t₀ : T} {seconds : Nat} {ps : List (Pass T)} {s : Observer T}
    {log : List (Observed T)} (hclock : ∀ p ∈ ps, t₀ ≤ p.now)
    (hrun : Run.run (Run.recording step record) (start t₀ seconds, []) ps = some (s, log)) :
    ∀ past sample returned rest, log = past ++ .written sample returned :: rest →
      Permitted past sample := by
  have hkept : Kept t₀ s log := by
    refine Run.invariant_of_along (I := fun x => Kept t₀ x.1 x.2) (P := fun _ p _ => t₀ ≤ p.now) ?_
      (kept_start seconds) (Run.along_of_mem fun p hp _ _ _ => hclock p hp) hrun
    intro ⟨s, log⟩ p ⟨s', log'⟩ h hp hstep
    obtain ⟨hs, rfl⟩ := Run.recording_eq_some_iff.mp hstep
    obtain ⟨-, rfl⟩ : _ ∧ (s.turn p).1 = s' := by simpa [step] using hs
    exact kept_turn h hp
  exact hkept.lawful

/-- A bus that wakes once, and an ECU that never replies. -/
def woken : List (Pass Int) :=
  [{ check := 0, now := 0, written := 1, batch := [{}] },
    { check := 1002, now := 1002, written := 1002, batch := [{}] },
    { check := 10001, now := 10001, written := 10002, batch := [{}] },
    { check := 11003, now := 11003, written := 11003, batch := [{}] },
    { check := 12100, now := 12100, written := 12100 },
    { check := 20002, now := 20002, written := 20003, batch := [{}] },
    { check := 21004, now := 21004, written := 21004, batch := [{}] },
    { check := 30003, now := 30003, written := 30004, batch := [{}] }]

/-- What comes before the second request without a reply, between it and the third, and after. -/
def beforeWaking : List (Observed Int) :=
  [.received 0, .written 0 1, .received 1002, .unanswered, .tick 2 false, .received 10001,
    .written 10001 10002, .tick 1 false, .received 11003]

def whileWaking : List (Observed Int) :=
  [.tick 1 false, .quiet, .tick 0 false, .received 20002, .active true, .written 20002 20003, .tick 1 false,
    .received 21004]

def afterWaking : List (Observed Int) := [.tick 1 false, .received 30003]

/-- The log of an observer that is woken. -/
theorem log_of_woken :
    (Run.run (Run.recording step record) (start (0 : Int) 600, []) woken).map Prod.snd =
      some ((beforeWaking ++ .unanswered :: (whileWaking ++ .unanswered :: afterWaking)) ++
        [.written 30003 30004, .tick 1 false]) := by
  decide +kernel

theorem requests_permitted_woken :
    Permitted (beforeWaking ++ .unanswered :: (whileWaking ++ .unanswered :: afterWaking)) 30003 := by
  obtain ⟨⟨s, log⟩, hrun, hlog⟩ := Option.map_eq_some_iff.mp log_of_woken
  exact requests_permitted (by decide) hrun _ 30003 30004 [.tick 1 false] hlog

/-- Two requests in a row may go unanswered without the bus having woken since: the first of
them before a spell of listening and the second after it. -/
theorem unheeded_after_waking :
    ∃ s past rest a b c, Run.run (Run.recording step record) (start (0 : Int) 600, []) woken =
        some (s, past ++ .written 30003 30004 :: rest) ∧
      (woken.flatMap fun p => [p.check, p.now, p.written]).Pairwise (· ≤ ·) ∧
      past = a ++ .unanswered :: (b ++ .unanswered :: c) ∧ .replied ∉ b ∧
      (∃ b₁ b₂, b = b₁ ++ .written 20002 20003 :: b₂ ∧ Unwritten b₁ ∧ Unwritten b₂) ∧ ¬ Wakes c := by
  obtain ⟨⟨s, log⟩, hrun, hlog⟩ := Option.map_eq_some_iff.mp log_of_woken
  obtain rfl : log = _ := hlog
  have hone : ∃ b₁ b₂, whileWaking = b₁ ++ .written 20002 20003 :: b₂ ∧ Unwritten b₁ ∧ Unwritten b₂ :=
    ⟨whileWaking.take 5, whileWaking.drop 6, rfl, by simp [Unwritten, whileWaking],
      by simp [Unwritten, whileWaking]⟩
  exact ⟨s, _, _, beforeWaking, whileWaking, afterWaking, hrun, by decide, rfl, by decide, hone,
    by simp [Wakes, afterWaking]⟩

end Observer

end Mongoose
