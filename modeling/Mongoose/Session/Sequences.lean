import Mathlib.Data.List.Chain
import Mongoose.Session.Records

/-!
# Mongoose.Session.Sequences

The sequence numbers that the commands of a run take.

A number is held by the command in flight or by a session that is no longer usable, so
the allocation loop of a usable session stops at the first number it tries.
`never_starved` says so of every run, and what follows for its allocations: each is the
cyclic successor of the one before.
-/

namespace Mongoose

/-! ## cyclic successors -/

/-- The number after `q`, from 1 to 255 and round again. -/
def successor (q : Nat) : Nat := q % 255 + 1

theorem successor_range (q : Nat) : 1 ≤ successor q ∧ successor q ≤ 255 := by
  unfold successor
  omega

/-- Numbers that follow each other, from the one after `q` on. -/
def Succeeds (q : Nat) : List Nat → Prop
  | [] => True
  | n :: ns => n = successor q ∧ Succeeds n ns

namespace Succeeds

variable {q : Nat} {ns ms : List Nat}

theorem range (h : Succeeds q ns) : ∀ n ∈ ns, 1 ≤ n ∧ n ≤ 255 := by
  induction ns generalizing q with
  | nil => simp
  | cons n ns ih =>
      obtain ⟨rfl, h⟩ := h
      simp only [List.forall_mem_cons]
      exact ⟨successor_range q, ih h⟩

theorem isChain (h : Succeeds q ns) : List.IsChain (fun m n => n = successor m) ns := by
  induction ns generalizing q with
  | nil => exact .nil
  | cons n ns ih =>
      cases ns with
      | nil => exact .singleton n
      | cons m ns => exact .cons_cons h.2.1 (ih h.2)

/-- The number at a place is that many successors on. -/
theorem getElem (h : Succeeds q ns) {i : Nat} (hi : i < ns.length) : ns[i] = (q + i) % 255 + 1 := by
  induction ns generalizing q i with
  | nil => cases hi
  | cons n ns ih =>
      obtain ⟨rfl, h⟩ := h
      cases i with
      | zero => rfl
      | succ i =>
          rw [List.getElem_cons_succ, ih h]
          unfold successor
          omega

theorem append_iff : Succeeds q (ms ++ ns) ↔ Succeeds q ms ∧ Succeeds (ms.getLastD q) ns := by
  induction ms generalizing q with
  | nil => simp [Succeeds]
  | cons m ms ih =>
      rw [List.cons_append, Succeeds, Succeeds, ih, and_assoc, List.getLastD_cons]

/-- Up to 255 numbers in a row are distinct. -/
theorem nodup (h : Succeeds q ns) (hlen : ns.length ≤ 255) : ns.Nodup := by
  rw [List.nodup_iff_injective_getElem]
  intro i j hij
  simp only [h.getElem] at hij
  have hi := i.isLt
  have hj := j.isLt
  exact Fin.ext (by omega)

end Succeeds

namespace World

/-! ## allocations -/

/-- What a command throws that finds no number free. -/
def starved : Exception :=
  .Error ERR_EXCEEDED_LIMIT "all sequence numbers are in the 10-second reuse quarantine"

/-- A step that runs the allocation loop: the checks before it pass. -/
def allocates (w : World) : Label → Bool
  | .act _ (.start _) => decide w.session.usable
  | _ => false

/-- Where the allocation loop stops, each time a run passes it. -/
def allocations (w : World) : List Label → List Nat
  | [] => []
  | l :: ls =>
      match w.step l with
      | none => []
      | some w' => (if w.allocates l then [w'.session.sequence] else []) ++ w'.allocations ls

/-- A command that passes the allocation loop takes the next number, and none throws
for want of one. -/
def Allocated (w : World) (l : Label) (w' : World) : Prop :=
  ∀ c now call, l = .act c (.start now) → w'.calls c = some call →
    call.phase ≠ .threw starved ∧
    (call.phase = .allocated → w.session.usable ∧ call.allocated = successor w.session.sequence)

/-- What a request that is refused throws. -/
theorem refused_ne_starved {opcode q destination chan : Nat} {payload : Bytes} {e : Exception}
    (hq : 1 ≤ q) (hq' : q ≤ 255)
    (h : request opcode q payload destination chan >>= encode = .error e) : e ≠ starved := by
  by_cases hp : payload.length ≤ max_body - 12
  · by_cases hd : destination = 0
    · rw [request, if_neg (by omega), if_pos hd] at h
      cases h
      simp [starved]
    · rw [request_of_le hp hq hq' hd] at h
      have hwire := @encode_of_le (messageHeader opcode q destination chan ++ payload)
        (by simp [messageHeader, bytes16]) (by
          simp only [max_body] at hp
          simp [messageHeader, bytes16, max_body]
          omega)
      rw [show (Except.ok _ >>= encode : Except Exception Bytes) = _ from hwire] at h
      cases h
  · rw [request, if_pos (by omega)] at h
    cases h
    simp [starved]

variable {w w' : World} {l : Label} {ls : List Label}

/-- On a usable session at rest the loop stops at once. -/
theorem allocate_eq {s : Session} (hs : s.Rest) (hu : s.usable) {now : Int} {b : Bool} {q : Nat}
    (h : s.allocate now 255 s.sequence = (b, q)) : b = true ∧ q = successor s.sequence := by
  rw [Session.allocate_of_free now 254 s.sequence (hs.used hu), Prod.mk.injEq] at h
  exact ⟨h.1.symm, h.2.symm⟩

theorem Sound.allocated (hw : w.Sound) (h : w.step l = some w') : Allocated w l w' := by
  rintro c now call rfl hc'
  obtain ⟨_, _, _, hl, -⟩ | ⟨d, a, old, s, new, hl, hd, ht, rfl⟩ | ⟨_, _, _, _, hl, -⟩ |
    ⟨_, hl, -⟩ := step_cases h
  · cases hl
  · cases hl
    rw [put_calls_self] at hc'
    cases hc'
    cases ht with
    | closing | failed =>
        exact ⟨by simp [Call.goto, starved, ERR_DEVICE_NOT_CONNECTED, ERR_EXCEEDED_LIMIT], nofun⟩
    | full _ q hp hu ha =>
        have hs := hw.rest_of_holds hd (by rw [hp]; trivial) (by rw [hp]; exact id)
        cases (allocate_eq hs hu ha).1
    | oversize _ q e hp hu ha hwire =>
        have hq := Session.allocate_range ha
        exact ⟨fun he => refused_ne_starved hq.1 hq.2 hwire (Phase.threw.inj he), nofun⟩
    | allocated _ q wire hp hu ha =>
        have hs := hw.rest_of_holds hd (by rw [hp]; trivial) (by rw [hp]; exact id)
        exact ⟨nofun, fun _ => ⟨hu, (allocate_eq hs hu ha).2⟩⟩
  · cases hl
  · cases hl

/-- The counter moves where the loop runs, to the next number, and nowhere else. -/
theorem Sound.sequence_step (hw : w.Sound) (h : w.step l = some w') :
    w'.session.sequence =
      if w.allocates l then successor w.session.sequence else w.session.sequence := by
  obtain ⟨c, cmd, now, rfl, -, rfl⟩ | ⟨c, a, call, s, call', rfl, hc, ht, rfl⟩ |
    ⟨k, a, s, p, rfl, hk, rfl⟩ | ⟨s, hl, he, rfl⟩ := step_cases h
  · rfl
  · have hrest (hp : call.phase = .started) : w.session.Rest :=
      hw.rest_of_holds hc (by rw [hp]; trivial) (by rw [hp]; exact id)
    cases ht with
    | closing _ hp hcl => simp [allocates, Session.usable, hcl, Call.release]
    | failed _ hp hf => simp [allocates, Session.usable, hf, Call.release]
    | full _ _ hp hu ha | oversize _ _ _ hp hu ha | allocated _ _ _ hp hu ha =>
        simp [allocates, hu, (allocate_eq (hrest hp) hu ha).2, Call.release]
    | known hp => exact (Took.quiet_known call w.session).sequence
    | _ => rfl
  · exact (Session.quiet_of_close hk).sequence
  · have hquiet : w.allocates l = false := by cases l <;> first | rfl | cases hl
    simpa [hquiet] using (Session.quiet_of_environment he).1.sequence

/-- The allocations of a run follow each other. -/
theorem Sound.succeeds (hw : w.Sound) (h : Run.run World.step w ls = some w') :
    Succeeds w.session.sequence (w.allocations ls) := by
  induction ls generalizing w with
  | nil => trivial
  | cons l ls ih =>
      obtain ⟨m, hm, h⟩ := Run.run_cons_iff.mp h
      have hseq := hw.sequence_step hm
      have hrest := ih (hw.step hm) h
      unfold allocations
      rw [hm]
      cases ha : w.allocates l with
      | true =>
          rw [ha, if_pos rfl] at hseq
          exact ⟨hseq, hrest⟩
      | false =>
          rw [ha, if_neg Bool.false_ne_true] at hseq
          exact hseq ▸ hrest

/-- **The quarantine never starves a usable session.** When no command is in flight
every number is free; so no command of a run throws for want of one, each allocation
takes the cyclic successor of the one before, and up to 255 allocations in a row are
distinct and between 1 and 255. -/
theorem never_starved {protocol : ReceiverRef → UInt32}
    (h : Run.run step (opened protocol) ls = some w) :
    (w.session.usable → (∀ c call, w.calls c = some call → ¬ call.phase.Active) →
      ∀ q, w.session.used q = 0) ∧
    Run.Along step Allocated (opened protocol) ls ∧
    List.IsChain (fun m n => n = successor m) ((opened protocol).allocations ls) ∧
    ∀ ns, ns <:+: (opened protocol).allocations ls → ns.length ≤ 255 →
      ns.Nodup ∧ ∀ n ∈ ns, 1 ≤ n ∧ n ≤ 255 := by
  have hall : Succeeds 0 ((opened protocol).allocations ls) :=
    (sound_opened protocol).succeeds h
  refine ⟨fun hu hidle => ((sound_run h).rest hidle).used hu, ?_, hall.isChain, fun ns hns hlen => ?_⟩
  · exact Run.along_of_invariant (fun _ _ _ hm hs => Sound.step hm hs)
      (fun _ _ _ hm hs => hm.allocated hs) (sound_opened protocol)
  · obtain ⟨a, b, hab⟩ := hns
    rw [← hab] at hall
    have hns := (Succeeds.append_iff.mp (Succeeds.append_iff.mp hall).1).2
    exact ⟨hns.nodup hlen, hns.range⟩

/-- A command whose deadline passes before its write, and the next one. -/
def twoCommands : List Label :=
  [.enter 0 { opcode := 3, timeout := 10 } 0, .act 0 .slot, .act 0 (.start 1), .act 0 .known,
    .act 0 (.budget 10000000), .act 0 .undo, .enter 1 { opcode := 3 } 20000000, .act 1 .slot,
    .act 1 (.start 20000001)]

/-- The second takes the number after the first's, which is free again. -/
theorem never_starved_two :
    ∃ w, Run.run step (opened fun _ => CAN) twoCommands = some w ∧
      (opened fun _ => CAN).allocations twoCommands = [1, 2] ∧ w.session.used 1 = 0 ∧
      [1, 2].Nodup := by
  have hall : (opened fun _ => CAN).allocations twoCommands = [1, 2] := by decide +kernel
  refine ⟨_, rfl, hall, by decide +kernel, ?_⟩
  have hrun : Run.run step (opened fun _ => CAN) twoCommands = some _ := rfl
  have h := never_starved hrun
  exact (h.2.2.2 [1, 2] (hall ▸ List.infix_rfl) (by decide)).1

end World

end Mongoose
