import Mongoose.Lib.Leads
import Mongoose.Tools.Bridge.Ledger

/-!
# Mongoose.Tools.Bridge.Stopping

The bridge stops.

Once a signal has come or something has failed, each phase has only so many steps before
it: `potential` adds them up over the threads.  A step lowers it, but for a frame of the
interface that is refused, which costs the loop two steps and nothing of its batch; so a
run is as long as the potential and twice the refused frames, and `main` can always end.
-/

namespace Mongoose

namespace SocketCan

open Run

/-! ## what is left to do -/

/-- The steps of the loop in `main` to the end, and those of `main` behind it. -/
def HostPhase.rank : HostPhase → ℕ
  | .polling => 46
  | .receiving messages => 13 + (batch - messages.length)
  | .refusing messages => 12 + (batch - messages.length)
  | .writing _ => 11
  | .sent .. => 10
  | .rest .. => 9
  | .failing false => 8
  | .failing true | .testing => 7

/-- The steps of `main` to its end, with the first steps of the threads that it creates. -/
def MainPhase.rank : MainPhase → ℕ
  | .opening_interface => 15
  | .opening => 14
  | .connecting => 13
  | .filtering => 12
  | .creating_reader => 11
  | .creating_reporter => 9
  | .host p => p.rank
  | .joining_reader => 6
  | .joining_reporter => 5
  | .stop_filter _ => 4
  | .disconnect _ => 3
  | .close_device _ => 2
  | .close_socket _ => 1
  | .exited _ => 0

def ReaderPhase.rank : ReaderPhase → ℕ
  | .draining => 67
  | .blocking => 5
  | .overflowed messages => 2 * (vehicle_to_host messages).length + 2
  | .forwarding _ frames => 2 * frames.length + 3
  | .counting _ frames => 2 * frames.length + 2
  | .testing | .failing => 1
  | .exited => 0

def ReporterPhase.rank : ReporterPhase → ℕ
  | .sleeping _ => 3
  | .waiting _ | .printing => 2
  | .testing | .deciding => 1
  | .exited => 0

namespace Bridge

/-- The steps that are left to all threads, and a signal. -/
def potential (b : Bridge) : ℕ :=
  b.main.rank + b.reader.elim 0 ReaderPhase.rank + b.reporter.elim 0 ReporterPhase.rank + if b.stopping then 0 else 1

/-- `main` has received a frame that does not go on, and not counted it yet. -/
def Refusing (b : Bridge) : Prop := ∃ messages, b.main = .host (.refusing messages)

variable {b b' : Bridge}

/-! ## the ranks -/

/-- One more message is progress. -/
theorem rank_received (messages : List PASSTHRU_MSG) (message : PASSTHRU_MSG) :
    (received (messages ++ [message])).rank < (HostPhase.receiving messages).rank := by
  unfold received
  split_ifs with h
  · simp only [List.length_append, List.length_singleton] at h
    simp only [HostPhase.rank, List.length_append, List.length_singleton]
    omega
  · simp only [HostPhase.rank]
    omega

/-- Each frame that is left costs two steps. -/
@[simp] theorem rank_forward (frames : List can_frame) : (forward frames).rank = 2 * frames.length + 1 := by
  cases frames <;> simp [forward, ReaderPhase.rank, Nat.mul_add]

/-- And so does each message that was heard. -/
theorem rank_heard {messages : List PASSTHRU_MSG} {n : ℕ} (status : Int) (h : messages.length ≤ n) :
    (Bridge.heard messages status).rank ≤ 2 * n + 2 := by
  have hle : (vehicle_to_host messages).length ≤ n := Nat.le_trans (List.length_filterMap_le ..) h
  unfold Bridge.heard
  split_ifs
  · simp only [ReaderPhase.rank]
    omega
  · simp only [ReaderPhase.rank]
    omega
  · rw [rank_forward]
    omega

/-! ## one step -/

/-- A flag that is set stays set. -/
theorem Ends.step {a : Label} (he : b.Ends) (hs : b.step a = some b') : b'.Ends := by
  obtain ⟨-, -, rfl⟩ | ⟨c, -, hm⟩ | ⟨c, p, -, -, hc⟩ | ⟨c, p, q, -, -, -, rfl⟩ := step_cases hs
  · exact .inl rfl
  · generalize b.main = p at hm
    cases hm with
    | host p _ _ hc =>
        cases hc with
        | failed | fails => exact .inr rfl
        | _ => exact he
    | _ => exact he
  · cases hc with
    | failed => exact .inr rfl
    | _ => exact he
  · exact he

/-- The loop in `main` comes nearer to its end, or has a refused frame to count. -/
theorem Hosted.lowers {p : HostPhase} {c : MainStep} (he : b.Ends) (h : Hosted b p c b') :
    b'.main.rank < p.rank ∧ b.refused ≤ b'.refused ∨
      (∃ messages, p = .refusing messages) ∧ b'.main.rank = p.rank + 1 ∧ b'.refused = b.refused + 1 := by
  cases h with
  | goes hne => exact absurd he hne
  | took messages frame message ha => exact .inl ⟨rank_received messages message, Nat.le_refl _⟩
  | refused messages => exact .inr ⟨⟨messages, rfl⟩, by simp only [MainPhase.rank, HostPhase.rank]; omega, rfl⟩
  | full count sent status q hs hq =>
      left
      obtain rfl | rfl := hq <;> simp [MainPhase.rank, HostPhase.rank]
  | rest count status q hq =>
      left
      obtain rfl | rfl := hq <;> simp [MainPhase.rank, HostPhase.rank]
  | gathered messages hne =>
      left
      simp only [MainPhase.rank, HostPhase.rank]
      omega
  | _ =>
      left
      simp [MainPhase.rank, HostPhase.rank, batch]

/-- The threads that a step of `main` leaves alone. -/
theorem Hosted.same {p : HostPhase} {c : MainStep} (h : Hosted b p c b') :
    b'.reader = b.reader ∧ b'.reporter = b.reporter ∧ b'.stopping = b.stopping := by
  cases h <;> exact ⟨rfl, rfl, rfl⟩

/-- Every step of `main` lowers the potential, but one that is refused, which the count of refusals pays for. -/
theorem Moved.lowers {c : MainStep} (he : b.Ends) (h : Moved b b.main c b') :
    b'.potential < b.potential ∧ b.refused ≤ b'.refused ∨
      Refusing b ∧ b'.potential = b.potential + 1 ∧ b'.refused = b.refused + 1 := by
  generalize hp : b.main = p at h
  cases h with
  | created q hq =>
      left
      obtain rfl | rfl := hq <;> simp [potential, hp, MainPhase.rank, HostPhase.rank, ReaderPhase.rank] <;> omega
  | reports error r hr =>
      left
      obtain rfl | rfl := hr <;> simp [potential, hp, MainPhase.rank, HostPhase.rank, ReporterPhase.rank] <;> omega
  | host p _ _ hc =>
      obtain ⟨hreader, hreporter, hstopping⟩ := hc.same
      obtain ⟨hlt, hle⟩ | ⟨⟨messages, rfl⟩, heq, hone⟩ := hc.lowers he
      · left
        simp only [potential, hp, hreader, hreporter, hstopping, MainPhase.rank] at hlt ⊢
        exact ⟨by omega, hle⟩
      · right
        simp only [potential, hp, hreader, hreporter, hstopping, MainPhase.rank] at heq ⊢
        exact ⟨⟨messages, hp⟩, by omega, hone⟩
  | joined_reader hr =>
      left
      simp [potential, hp, hr, MainPhase.rank, ReaderPhase.rank]
  | joined_reporter hr =>
      left
      obtain hr | hr := hr <;> simp [potential, hp, hr, MainPhase.rank, ReporterPhase.rank]
  | _ =>
      left
      simp [potential, hp, MainPhase.rank]

/-- Every step of the reader lowers it. -/
theorem Read.lowers {p : ReaderPhase} {c : ReaderStep} (he : b.Ends) (hp : b.reader = some p) (h : Read b p c b') :
    b'.potential < b.potential ∧ b.refused ≤ b'.refused := by
  have hsome {q : ReaderPhase} (hq : b'.reader = some q) (hlt : q.rank < p.rank) (hmain : b'.main = b.main)
      (hreporter : b'.reporter = b.reporter) (hstopping : b'.stopping = b.stopping) : b'.potential < b.potential := by
    simp only [potential, hp, hq, hmain, hreporter, hstopping, Option.elim_some]
    omega
  cases h with
  | goes hne => exact absurd he hne
  | drained messages status hlen =>
      have hle := rank_heard status hlen
      exact ⟨hsome rfl (Nat.lt_of_le_of_lt hle (by decide)) rfl rfl rfl, Nat.le_refl _⟩
  | waited messages status hlen =>
      have hle := rank_heard status hlen
      exact ⟨hsome rfl (Nat.lt_of_le_of_lt hle (by decide)) rfl rfl rfl, Nat.le_refl _⟩
  | overflowed | took | dropped =>
      exact ⟨hsome rfl (by rw [rank_forward]; exact Nat.lt_succ_self _) rfl rfl rfl, Nat.le_refl _⟩
  | _ => exact ⟨hsome rfl (by simp [ReaderPhase.rank]) rfl rfl rfl, Nat.le_refl _⟩

/-- Every step of the reporter is progress. -/
theorem rank_reporter {p q : ReporterPhase} {c : ReporterStep} (he : b.Ends) (h : b.reporterStep p c = some b')
    (hq : b'.reporter = some q) : q.rank < p.rank := by
  unfold reporterStep at h
  split at h
  · obtain rfl := Option.some.inj h
    obtain rfl := Option.some.inj hq
    simp [he, ReporterPhase.rank]
  · obtain rfl := Option.some.inj h
    obtain rfl := Option.some.inj hq
    simp [he, ReporterPhase.rank]
  · obtain rfl := Option.some.inj h
    obtain rfl := Option.some.inj hq
    simp [ReporterPhase.rank]
  · obtain rfl := Option.some.inj h
    obtain rfl := Option.some.inj hq
    simp [he, ReporterPhase.rank]
  · obtain rfl := Option.some.inj h
    obtain rfl := Option.some.inj hq
    simp [ReporterPhase.rank]
  · cases h

/-- A step lowers the potential, or counts a refused frame. -/
theorem potential_step {a : Label} (he : b.Ends) (hs : b.step a = some b') :
    b'.potential < b.potential ∧ b.refused ≤ b'.refused ∨
      Refusing b ∧ b'.potential = b.potential + 1 ∧ b'.refused = b.refused + 1 := by
  obtain ⟨-, hstopping, rfl⟩ | ⟨c, -, hm⟩ | ⟨c, p, -, hp, hc⟩ | ⟨c, p, q, -, hp, hq, rfl⟩ := step_cases hs
  · left
    simp [potential, hstopping]
  · exact hm.lowers he
  · exact .inl (hc.lowers he hp)
  · left
    have hlt := rank_reporter he hq rfl
    simp only [potential, hp, Option.elim_some]
    omega

/-! ## runs -/

/-- While everything is held the reader is there, and no phase of it is far from its end. -/
structure Manned (b : Bridge) : Prop where
  manned : b.main.depth = 5 → b.reader ≠ none
  few : b.reader.elim 0 ReaderPhase.rank ≤ 67

/-- A reader is never far from its end. -/
theorem Read.few {p : ReaderPhase} {c : ReaderStep} (hp : b.reader = some p) (hfew : p.rank ≤ 67) (h : Read b p c b') :
    ∃ q, b'.reader = some q ∧ q.rank ≤ 67 := by
  cases h with
  | goes => exact ⟨_, rfl, by simp [ReaderPhase.rank]⟩
  | drained messages status hlen => exact ⟨_, rfl, Nat.le_trans (rank_heard status hlen) (by decide)⟩
  | waited messages status hlen => exact ⟨_, rfl, Nat.le_trans (rank_heard status hlen) (by decide)⟩
  | overflowed | took | dropped =>
      refine ⟨_, rfl, ?_⟩
      rw [rank_forward]
      exact Nat.le_trans (Nat.le_succ _) hfew
  | wrote frame frames whole => exact ⟨_, rfl, Nat.le_trans (Nat.le_succ _) hfew⟩
  | _ => exact ⟨_, rfl, by simp [ReaderPhase.rank]⟩

/-- The bounds hold after every step. -/
theorem Manned.step {a : Label} (h : Manned b) (hs : b.step a = some b') : Manned b' := by
  obtain ⟨-, -, rfl⟩ | ⟨c, -, hm⟩ | ⟨c, p, -, hp, hc⟩ | ⟨c, p, q, -, -, -, rfl⟩ := step_cases hs
  · exact ⟨h.manned, h.few⟩
  · generalize hp : b.main = p at hm
    cases hm with
    | created q hq => exact ⟨by simp, by simp [ReaderPhase.rank]⟩
    | joined_reader => exact ⟨by simp [MainPhase.depth], by simp⟩
    | host p _ _ hc =>
        have hreader := hc.same.1
        exact ⟨fun _ => hreader ▸ h.manned (by simp [hp, MainPhase.depth]), hreader ▸ h.few⟩
    | reports => exact ⟨fun _ => h.manned (by simp [hp, MainPhase.depth]), h.few⟩
    | _ => exact ⟨by simp [MainPhase.depth], h.few⟩
  · have hfew := h.few
    rw [hp] at hfew
    obtain ⟨q, hq, hle⟩ := hc.few hp hfew
    exact ⟨fun _ => by simp [hq], by rw [hq]; exact hle⟩
  · exact ⟨h.manned, h.few⟩

/-- And so in every run. -/
theorem manned_of_run {argv : List Bytes} {b₀ : Bridge} {labels : List Label} (h₀ : start argv = .ok b₀)
    (hr : Run.run step b₀ labels = some b) : Manned b := by
  obtain ⟨o, -, rfl⟩ := start_ok h₀
  exact invariant (fun m a t hm hs => Manned.step hm hs) ⟨by simp [MainPhase.depth], by simp⟩ hr

/-- `main` is never far from its end. -/
theorem rank_main (p : MainPhase) : p.rank ≤ 46 := by
  cases p with
  | host p =>
      cases p with
      | receiving messages => simp only [MainPhase.rank, HostPhase.rank, batch]; omega
      | refusing messages => simp only [MainPhase.rank, HostPhase.rank, batch]; omega
      | failing leaves => cases leaves <;> simp [MainPhase.rank, HostPhase.rank]
      | _ => simp [MainPhase.rank, HostPhase.rank]
  | _ => simp [MainPhase.rank]

/-- Nor is the program. -/
theorem Manned.potential_le (h : Manned b) : b.potential ≤ 117 := by
  have hmain := rank_main b.main
  have hreader := h.few
  have hreporter : b.reporter.elim 0 ReporterPhase.rank ≤ 3 := by
    cases b.reporter with
    | none => simp
    | some p => cases p <;> simp [ReporterPhase.rank]
  unfold potential
  split_ifs <;> omega

/-- `main` can always go on without being refused. -/
theorem exists_host (b : Bridge) (p : HostPhase) : ∃ a b', b.host p a = some b' ∧ ¬ Refusing b' := by
  cases p with
  | testing => exact ⟨.test, _, rfl, by simp only [Refusing]; split_ifs <;> simp⟩
  | polling => exact ⟨.poll 0 0, _, rfl, by simp [Refusing]⟩
  | receiving messages => exact ⟨.recv none, _, rfl, by simp only [Refusing]; split_ifs <;> simp⟩
  | refusing messages => exact ⟨.count, _, rfl, by simp [Refusing]⟩
  | writing messages => exact ⟨.PassThruWriteMsgs 0 0, _, by simp [host]; rfl, by simp [Refusing]⟩
  | sent count sent status => exact ⟨.count, _, rfl, by simp only [Refusing]; split_ifs <;> simp⟩
  | rest count status => exact ⟨.count, _, rfl, by simp only [Refusing]; split_ifs <;> simp⟩
  | failing leaves => exact ⟨.fail, _, rfl, by cases leaves <;> simp [Refusing]⟩

/-- So can the reader. -/
theorem exists_read {p : ReaderPhase} (hp : p ≠ .exited) : ∃ a b', b.readerStep p a = some b' ∧ b'.main = b.main := by
  cases p with
  | testing => exact ⟨.test, _, rfl, rfl⟩
  | draining =>
      exact ⟨.PassThruReadMsgs [] ERR_BUFFER_EMPTY, { b with reader := some .blocking }, by simp [readerStep], rfl⟩
  | blocking =>
      exact ⟨.PassThruReadMsgs [] ERR_BUFFER_EMPTY, { b with reader := some (heard [] ERR_BUFFER_EMPTY) },
        by simp [readerStep], rfl⟩
  | overflowed messages => exact ⟨.count, _, rfl, rfl⟩
  | failing => exact ⟨.fail, _, rfl, rfl⟩
  | forwarding frame frames => exact ⟨.write true, _, rfl, rfl⟩
  | counting whole frames => exact ⟨.count, _, rfl, rfl⟩
  | exited => exact absurd rfl hp

/-- And the reporter. -/
theorem exists_report {p : ReporterPhase} (hp : p ≠ .exited) :
    ∃ a b', b.reporterStep p a = some b' ∧ b'.main = b.main := by
  cases p with
  | testing => exact ⟨.test, _, rfl, rfl⟩
  | waiting waited => exact ⟨.test, _, rfl, rfl⟩
  | sleeping waited => exact ⟨.sleep, _, rfl, rfl⟩
  | deciding => exact ⟨.test, _, rfl, rfl⟩
  | printing => exact ⟨.print, _, rfl, rfl⟩
  | exited => exact absurd rfl hp

/-- Unless `main` has ended, some thread can go on, and need not refuse another frame. -/
theorem exists_step (h : Manned b) (hm : ∀ r, b.main ≠ .exited r) :
    ∃ a b', b.step a = some b' ∧ ¬ Refusing b' := by
  cases hp : b.main with
  | opening_interface => exact ⟨.main (.open_interface 0 0 0), _, by simp [step, mainStep, hp]; rfl, by simp [Refusing]⟩
  | opening => exact ⟨.main (.PassThruOpen 1 0), _, by simp [step, mainStep, hp]; rfl, by simp [Refusing]⟩
  | connecting => exact ⟨.main (.PassThruConnect 1 0), _, by simp [step, mainStep, hp]; rfl, by simp [Refusing]⟩
  | filtering => exact ⟨.main (.PassThruStartMsgFilter 1 0), _, by simp [step, mainStep, hp]; rfl, by simp [Refusing]⟩
  | creating_reader => exact ⟨.main (.create 1), _, by simp [step, mainStep, hp]; rfl, by simp [Refusing]⟩
  | creating_reporter => exact ⟨.main (.create 1), _, by simp [step, mainStep, hp]; rfl, by simp [Refusing]⟩
  | host p =>
      obtain ⟨a, b', hs, hr⟩ := exists_host b p
      exact ⟨.main a, b', by simpa [step, mainStep, hp] using hs, hr⟩
  | joining_reader =>
      obtain ⟨p, hreader⟩ := Option.ne_none_iff_exists'.mp (h.manned (by simp [hp, MainPhase.depth]))
      by_cases hexited : p = .exited
      · exact ⟨.main .join, _, by simp [step, mainStep, hp, hreader, hexited]; rfl, by simp [Refusing]⟩
      · obtain ⟨a, b', hs, hmain⟩ := exists_read (b := b) hexited
        exact ⟨.reader a, b', by simpa [step, hreader] using hs, by simp [Refusing, hmain, hp]⟩
  | joining_reporter =>
      cases hreporter : b.reporter with
      | none => exact ⟨.main .join, _, by simp [step, mainStep, hp, hreporter]; rfl, by simp [Refusing]⟩
      | some p =>
          by_cases hexited : p = .exited
          · exact ⟨.main .join, _, by simp [step, mainStep, hp, hreporter, hexited]; rfl, by simp [Refusing]⟩
          · obtain ⟨a, b', hs, hmain⟩ := exists_report (b := b) hexited
            exact ⟨.reporter a, b', by simpa [step, hreporter] using hs, by simp [Refusing, hmain, hp]⟩
  | stop_filter r => exact ⟨.main .PassThruStopMsgFilter, _, by simp [step, mainStep, hp]; rfl, by simp [Refusing]⟩
  | disconnect r => exact ⟨.main .PassThruDisconnect, _, by simp [step, mainStep, hp]; rfl, by simp [Refusing]⟩
  | close_device r => exact ⟨.main .PassThruClose, _, by simp [step, mainStep, hp]; rfl, by simp [Refusing]⟩
  | close_socket r => exact ⟨.main .close, _, by simp [step, mainStep, hp]; rfl, by simp [Refusing]⟩
  | exited r => exact absurd hp (hm r)

/-- `main` can come to its end. -/
theorem leads_exited : Leads step (fun _ => True) (fun b => (Manned b ∧ b.Ends) ∧ ∀ r, b.main ≠ .exited r)
    fun b => ∃ r, b.main = .exited r := by
  classical
  refine .of_rank (fun b => b.potential + if Refusing b then 2 else 0) fun b hb => ?_
  obtain ⟨⟨hmanned, he⟩, hm⟩ := hb
  obtain ⟨a, b', hs, hr⟩ := exists_step hmanned hm
  refine ⟨a, b', trivial, hs, ?_⟩
  by_cases hexited : ∃ r, b'.main = .exited r
  · exact .inl hexited
  · refine .inr ⟨⟨⟨hmanned.step hs, he.step hs⟩, fun r hr => hexited ⟨r, hr⟩⟩, ?_⟩
    rw [if_neg hr]
    -- only the count of a refused frame leaves more to do than before, and that is priced at two
    obtain ⟨hlt, -⟩ | ⟨hrefusing, heq, -⟩ := potential_step he hs
    · omega
    · rw [if_pos hrefusing, heq]
      omega

/-- **The bridge stops.**  Once a signal was caught or something has failed, every run of all threads together has at
most 117 steps more, and two for each frame of the interface that it refuses; and some run ends `main`. -/
theorem bridge_stops {argv : List Bytes} {b₀ : Bridge} {labels : List Label} (h₀ : start argv = .ok b₀)
    (hr : Run.run step b₀ labels = some b) (he : b.Ends) :
    (∀ ks b', Run.run step b ks = some b' → ks.length ≤ 117 + 2 * (b'.refused - b.refused)) ∧
      ∃ ks b' r, Run.run step b ks = some b' ∧ b'.main = .exited r := by
  have hmanned := manned_of_run h₀ hr
  refine ⟨fun ks b' hrun => ?_, ?_⟩
  · have hle := hmanned.potential_le
    have hpay := length_le_of_potential (I := Ends) potential (fun m => 2 * m.refused)
      (fun m a t hm hs => Ends.step hm hs) (fun m a t hm hs => ?_) he hrun
    · omega
    · obtain ⟨hlt, href⟩ | ⟨-, heq, href⟩ := potential_step hm hs
      · omega
      · omega
  · by_cases hm : ∃ r, b.main = .exited r
    · obtain ⟨r, hm⟩ := hm
      exact ⟨[], b, r, rfl, hm⟩
    · obtain ⟨ks, b', -, hrun, r, hm'⟩ := leads_exited b ⟨⟨hmanned, he⟩, fun r hr => hm ⟨r, hr⟩⟩
      exact ⟨ks, b', r, hrun, hm'⟩

/-- The reader is inside its loop when the signal comes. -/
theorem bridge_stops_signalled : ∃ b,
    Run.run step { options := { interface := some (ascii "can0") } } (signalled.take 7) = some b ∧
    b.stopping = true ∧ ∃ ks b' r, Run.run step b ks = some b' ∧ b'.main = .exited r := by
  have h₀ : start [ascii "can0"] = .ok { options := { interface := some (ascii "can0") } } := rfl
  have hrun : ∃ b, Run.run step { options := { interface := some (ascii "can0") } } (signalled.take 7) = some b ∧
      b.stopping = true := ⟨_, rfl, rfl⟩
  obtain ⟨b, hr, hs⟩ := hrun
  exact ⟨b, hr, hs, (bridge_stops h₀ hr (.inl hs)).2⟩

end Bridge

end SocketCan

end Mongoose
