import Mathlib.Data.List.Infix
import Mathlib.Data.List.TakeWhile
import Mongoose.Ascii
import Mongoose.J2534

/-!
# Mongoose.Selector

The name that `PassThruOpen` is given.

`parse_selector` takes a name apart, and `open_name` reads it from memory first.  `Names`
lists the forms of the manual, each with the adapter that it selects; `open_name_iff` says
that just these are accepted, if they end within 256 bytes.
-/

namespace Mongoose

inductive Backend
  | Tty
  | Usb
  deriving DecidableEq, Repr

/-- Without a serial number the only adapter; without a path its node. -/
structure Selector where
  backend : Backend := .Tty
  serial : Bytes := []
  path : Bytes := []
  deriving DecidableEq, Repr

namespace Selector

def accepted : String := "Open name must be NULL, serial:S, tty:[serial:S|/dev/ttyACMn] or usb:[serial:S]"

/-- What follows a word, if the text begins with it. -/
def consume (text word : Bytes) : Option Bytes :=
  if text.take word.length = word then some (text.drop word.length) else none

/-- The rest of a name behind its backend. -/
def parse_remainder (rest : Bytes) (selector : Selector) (allow_path : Bool) : Except Exception Selector :=
  if rest = [] then .ok selector
  else if allow_path ∧ rest.head? = some 47 then
    if ascii ".." <:+: rest then .error (.Error ERR_FAILED "device node path must not contain '..'")
    else .ok { selector with path := rest }
  else
    match consume rest (ascii "serial:") with
    | none => .error (.Error ERR_FAILED accepted)
    | some rest =>
        if rest = [] then .error (.Error ERR_FAILED "serial: needs a serial number")
        else .ok { selector with serial := rest }

def parse_selector (name : Bytes) : Except Exception Selector :=
  if name = [] then .ok {}
  else
    match consume name (ascii "tty:") with
    | some rest => parse_remainder rest {} true
    | none =>
        match consume name (ascii "usb:") with
        | some rest => parse_remainder rest { backend := .Usb } false
        | none =>
            if name.take 7 = ascii "serial:" then parse_remainder name {} false
            else .error (.Error ERR_FAILED accepted)

def strnlen (text : Bytes) (maximum : Nat) : Nat := ((text.take maximum).takeWhile (· ≠ 0)).length

/-- The name of `PassThruOpen`, read from where the pointer leads. -/
def open_name : Option Bytes → Except Exception Selector
  | none => .ok {}
  | some text =>
      let size := strnlen text 256
      if size = 256 then .error (.Error ERR_FAILED "Open name is not NUL-terminated") else parse_selector (text.take size)

/-! ## what the names select -/

/-- The forms of a name, each with what it selects. -/
inductive Names : Bytes → Selector → Prop
  | only : Names [] {}
  | only_tty : Names (ascii "tty:") {}
  | only_usb : Names (ascii "usb:") { backend := .Usb }
  | serial (s : Bytes) (hne : s ≠ []) : Names (ascii "serial:" ++ s) { serial := s }
  | serial_tty (s : Bytes) (hne : s ≠ []) : Names (ascii "tty:" ++ (ascii "serial:" ++ s)) { serial := s }
  | serial_usb (s : Bytes) (hne : s ≠ []) :
      Names (ascii "usb:" ++ (ascii "serial:" ++ s)) { backend := .Usb, serial := s }
  | path (p : Bytes) (hslash : p.head? = some 47) (hdots : ¬ ascii ".." <:+: p) :
      Names (ascii "tty:" ++ p) { path := p }

theorem consume_eq_some {text word rest : Bytes} : consume text word = some rest ↔ text = word ++ rest := by
  unfold consume
  constructor
  · intro h
    split_ifs at h with hw
    obtain rfl := Option.some.inj h
    conv_lhs => rw [← List.take_append_drop word.length text, hw]
  · rintro rfl
    simp

theorem head_serial (s : Bytes) : (ascii "serial:" ++ s).head? = some 115 := rfl

/-- The rest of a name is nothing, a path where one is allowed, or a serial number. -/
theorem parse_remainder_iff {rest : Bytes} {selector s : Selector} {allow_path : Bool} :
    parse_remainder rest selector allow_path = .ok s ↔
      rest = [] ∧ s = selector ∨
        (allow_path = true ∧ rest.head? = some 47 ∧ ¬ ascii ".." <:+: rest ∧ s = { selector with path := rest }) ∨
        ∃ serial, serial ≠ [] ∧ rest = ascii "serial:" ++ serial ∧ s = { selector with serial := serial } := by
  constructor
  · intro h
    unfold parse_remainder at h
    split at h
    · next hempty => exact .inl ⟨hempty, (Except.ok.inj h).symm⟩
    · split at h
      · next hpath =>
          split at h
          · cases h
          · next hdots => exact .inr (.inl ⟨hpath.1, hpath.2, hdots, (Except.ok.inj h).symm⟩)
      · split at h
        · cases h
        · next serial hc =>
            split at h
            · cases h
            · next hne => exact .inr (.inr ⟨serial, hne, consume_eq_some.mp hc, (Except.ok.inj h).symm⟩)
  · intro h
    obtain ⟨rfl, rfl⟩ | ⟨rfl, hslash, hdots, rfl⟩ | ⟨serial, hne, rfl, rfl⟩ := h
    · exact if_pos rfl
    · have hnil : rest ≠ [] := by
        rintro rfl
        cases hslash
      rw [parse_remainder, if_neg hnil, if_pos ⟨rfl, hslash⟩, if_neg hdots]
    · -- a serial number is no path, for its first character
      have hpath : ¬ (allow_path = true ∧ (ascii "serial:" ++ serial).head? = some 47) := fun h =>
        absurd ((head_serial serial).symm.trans h.2) (by decide)
      rw [parse_remainder, if_neg (by exact List.cons_ne_nil _ _), if_neg hpath, consume_eq_some.mpr rfl]
      exact if_neg hne

/-- A text that begins with one of two words of the same length does not begin with the other. -/
theorem consume_eq_none {text word other : Bytes} (hlen : word.length = other.length) (hne : word ≠ other) :
    consume (other ++ text) word = none := by
  rw [consume, if_neg]
  rw [hlen, List.take_left]
  exact fun h => hne h.symm

/-- **The names.**  A name is accepted for an adapter just when it is one of the forms for it. -/
theorem parse_selector_iff {name : Bytes} {s : Selector} : parse_selector name = .ok s ↔ Names name s := by
  constructor
  · intro h
    unfold parse_selector at h
    split at h
    · next hempty =>
        obtain rfl := Except.ok.inj h
        exact hempty ▸ .only
    · split at h
      · next rest hc =>
          obtain rfl := consume_eq_some.mp hc
          obtain ⟨rfl, rfl⟩ | ⟨-, hslash, hdots, rfl⟩ | ⟨serial, hne, rfl, rfl⟩ := parse_remainder_iff.mp h
          · exact .only_tty
          · exact .path rest hslash hdots
          · exact .serial_tty serial hne
      · split at h
        · next rest hc =>
            obtain rfl := consume_eq_some.mp hc
            obtain ⟨rfl, rfl⟩ | ⟨hpath, -⟩ | ⟨serial, hne, rfl, rfl⟩ := parse_remainder_iff.mp h
            · exact .only_usb
            · cases hpath
            · exact .serial_usb serial hne
        · split at h
          · obtain ⟨rfl, rfl⟩ | ⟨hpath, -⟩ | ⟨serial, hne, rfl, rfl⟩ := parse_remainder_iff.mp h
            · exact .only
            · cases hpath
            · exact .serial serial hne
          · cases h
  · intro h
    cases h with
    | only => rfl
    | only_tty => rfl
    | only_usb => rfl
    | serial s hne =>
        have htty : consume (ascii "seri" ++ (ascii "al:" ++ s)) (ascii "tty:") = none := consume_eq_none rfl (by decide)
        have husb : consume (ascii "seri" ++ (ascii "al:" ++ s)) (ascii "usb:") = none := consume_eq_none rfl (by decide)
        have hsplit : ascii "seri" ++ (ascii "al:" ++ s) = ascii "serial:" ++ s := rfl
        rw [hsplit] at htty husb
        have htake : (ascii "serial:" ++ s).take 7 = ascii "serial:" := rfl
        rw [parse_selector, if_neg (by exact List.cons_ne_nil _ _), htty, husb]
        simp only [htake, if_true]
        exact parse_remainder_iff.mpr (.inr (.inr ⟨s, hne, rfl, rfl⟩))
    | serial_tty s hne =>
        rw [parse_selector, if_neg (by exact List.cons_ne_nil _ _), consume_eq_some.mpr rfl]
        exact parse_remainder_iff.mpr (.inr (.inr ⟨s, hne, rfl, rfl⟩))
    | serial_usb s hne =>
        have htty : consume (ascii "usb:" ++ (ascii "serial:" ++ s)) (ascii "tty:") = none :=
          consume_eq_none rfl (by decide)
        rw [parse_selector, if_neg (by exact List.cons_ne_nil _ _), htty, consume_eq_some.mpr rfl]
        exact parse_remainder_iff.mpr (.inr (.inr ⟨s, hne, rfl, rfl⟩))
    | path p hslash hdots =>
        rw [parse_selector, if_neg (by exact List.cons_ne_nil _ _), consume_eq_some.mpr rfl]
        exact parse_remainder_iff.mpr (.inr (.inl ⟨rfl, hslash, hdots, rfl⟩))

theorem parse_remainder_error {rest : Bytes} {selector : Selector} {allow_path : Bool} {e : Exception}
    (h : parse_remainder rest selector allow_path = .error e) : ∃ what, e = .Error ERR_FAILED what := by
  unfold parse_remainder at h
  split at h
  · cases h
  · split at h
    · split at h
      · exact ⟨_, (Except.error.inj h).symm⟩
      · cases h
    · split at h
      · exact ⟨_, (Except.error.inj h).symm⟩
      · split at h
        · exact ⟨_, (Except.error.inj h).symm⟩
        · cases h

theorem parse_selector_error {name : Bytes} {e : Exception} (h : parse_selector name = .error e) :
    ∃ what, e = .Error ERR_FAILED what := by
  unfold parse_selector at h
  split at h
  · cases h
  · split at h
    · exact parse_remainder_error h
    · split at h
      · exact parse_remainder_error h
      · split at h
        · exact parse_remainder_error h
        · exact ⟨_, (Except.error.inj h).symm⟩

/-! ## the name in memory -/

/-- A text that ends at its NUL is as long as it says, up to the maximum. -/
theorem strnlen_append {name : Bytes} (hnul : 0 ∉ name) (rest : Bytes) (n : ℕ) :
    strnlen (name ++ 0 :: rest) n = min n name.length := by
  have hwhile {text : Bytes} (h : text ⊆ name) : ∀ c ∈ text, decide (c ≠ 0) = true := by
    intro c hc
    have hne : c ≠ 0 := fun h0 => hnul (h0 ▸ h hc)
    simpa using hne
  by_cases hn : n ≤ name.length
  · rw [strnlen, List.take_append_of_le_length hn, List.takeWhile_eq_self_iff.mpr (hwhile (List.take_subset ..)),
      List.length_take]
  · obtain ⟨k, rfl⟩ : ∃ k, n = name.length + (k + 1) := ⟨n - name.length - 1, by omega⟩
    rw [strnlen, List.take_length_add_append, List.take_succ_cons, List.takeWhile_append_of_pos (hwhile (List.Subset.refl _))]
    simp

/-- **`PassThruOpen`'s name.**  A text that ends at its first NUL is accepted for an adapter just when it has fewer than
256 characters and is one of the forms for it, whatever stands behind it; a refusal is always `ERR_FAILED`. -/
theorem open_name_iff {name : Bytes} (hnul : 0 ∉ name) (rest : Bytes) :
    (∀ s, open_name (some (name ++ 0 :: rest)) = .ok s ↔ name.length < 256 ∧ Names name s) ∧
      ∀ e, open_name (some (name ++ 0 :: rest)) = .error e → ∃ what, e = .Error ERR_FAILED what := by
  have hsize := strnlen_append hnul rest 256
  by_cases hlen : name.length < 256
  · have hopen : open_name (some (name ++ 0 :: rest)) = parse_selector name := by
      have hmin : min 256 name.length = name.length := Nat.min_eq_right (Nat.le_of_lt hlen)
      rw [open_name, hsize, hmin, if_neg (Nat.ne_of_lt hlen), List.take_left]
    rw [hopen]
    exact ⟨fun s => by simp [hlen, parse_selector_iff], fun e => parse_selector_error⟩
  · have hopen : open_name (some (name ++ 0 :: rest)) = .error (.Error ERR_FAILED "Open name is not NUL-terminated") := by
      have hmin : min 256 name.length = 256 := Nat.min_eq_left (Nat.le_of_not_lt hlen)
      rw [open_name, hsize, hmin, if_pos rfl]
    rw [hopen]
    exact ⟨fun s => by simp [hlen], fun e he => ⟨_, (Except.error.inj he).symm⟩⟩

/-- A serial number, with what was in memory before. -/
theorem open_name_iff_serial :
    open_name (some (ascii "usb:serial:7" ++ 0 :: ascii "old")) = .ok { backend := .Usb, serial := ascii "7" } := by
  have hserial : Names (ascii "usb:" ++ (ascii "serial:" ++ ascii "7")) { backend := .Usb, serial := ascii "7" } :=
    .serial_usb (ascii "7") (by decide)
  have hnul : (0 : UInt8) ∉ ascii "usb:serial:7" := by decide
  exact ((open_name_iff hnul (ascii "old")).1 _).mpr ⟨by decide, hserial⟩

end Selector

end Mongoose
