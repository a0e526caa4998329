import Mongoose.Tools.Bridge

/-!
# Mongoose.Tools.Bridge.Moves

What each step of the bridge can do.

`Hosted`, `Moved` and `Read` list the outcomes of a step of the loop in `main`, of `main`
and of the reader; `step_cases` says that there are no others.
-/

namespace Mongoose

namespace SocketCan

namespace Bridge

variable {b b' : Bridge}

/-- The outcomes of a step of `host_to_vehicle`. -/
inductive Hosted (b : Bridge) : HostPhase → MainStep → Bridge → Prop
  | leaves (he : b.Ends) : Hosted b .testing .test { b with main := .joining_reader }
  | goes (he : ¬ b.Ends) : Hosted b .testing .test { b with main := .host .polling }
  | poll_failed (ready errno : Int) : Hosted b .polling (.poll ready errno) { b with main := .host (.failing true) }
  | poll_idle (ready errno : Int) : Hosted b .polling (.poll ready errno) { b with main := .host .testing }
  | polled (ready errno : Int) : Hosted b .polling (.poll ready errno) { b with main := .host (.receiving []) }
  | nothing : Hosted b (.receiving []) (.recv none) { b with main := .host .testing }
  | gathered (messages : List PASSTHRU_MSG) (hne : messages ≠ []) :
      Hosted b (.receiving messages) (.recv none) { b with main := .host (.writing messages) }
  | took (messages : List PASSTHRU_MSG) (frame : can_frame) (message : PASSTHRU_MSG)
      (ha : b.accepts frame = some message) :
      Hosted b (.receiving messages) (.recv (some frame)) { b with main := .host (received (messages ++ [message])) }
  | refuses (messages : List PASSTHRU_MSG) (frame : can_frame) (ha : b.accepts frame = none) :
      Hosted b (.receiving messages) (.recv (some frame)) { b with main := .host (.refusing messages) }
  | refused (messages : List PASSTHRU_MSG) :
      Hosted b (.refusing messages) .count { b with refused := b.refused + 1, main := .host (.receiving messages) }
  | wrote (messages : List PASSTHRU_MSG) (sent : Nat) (status : Int) (hs : sent ≤ messages.length) :
      Hosted b (.writing messages) (.PassThruWriteMsgs sent status)
        { b with main := .host (.sent messages.length sent status) }
  | short (count sent : Nat) (status : Int) (hs : sent < count) :
      Hosted b (.sent count sent status) .count
        { b with to_bus := b.to_bus + sent, main := .host (.rest (count - sent) status) }
  | full (count sent : Nat) (status : Int) (p : HostPhase) (hs : ¬ sent < count)
      (hp : p = .failing false ∨ p = .testing) :
      Hosted b (.sent count sent status) .count { b with to_bus := b.to_bus + sent, main := .host p }
  | rest (count : Nat) (status : Int) (p : HostPhase) (hp : p = .failing false ∨ p = .testing) :
      Hosted b (.rest count status) .count { b with refused := b.refused + count, main := .host p }
  | failed : Hosted b (.failing true) .fail { b with failed := true, main := .joining_reader }
  | fails : Hosted b (.failing false) .fail { b with failed := true, main := .host .testing }

theorem hosted_of_host {p : HostPhase} {a : MainStep} (h : b.host p a = some b') : Hosted b p a b' := by
  unfold host at h
  split at h
  · obtain rfl := Option.some.inj h
    by_cases he : b.Ends
    · simpa [he] using Hosted.leaves he
    · simpa [he] using Hosted.goes he
  · next ready errno =>
      obtain rfl := Option.some.inj h
      split_ifs
      · exact .poll_failed ready errno
      · exact .poll_idle ready errno
      · exact .polled ready errno
  · next messages frame =>
      cases frame with
      | none =>
          obtain rfl := Option.some.inj h
          by_cases hne : messages = []
          · subst hne
            exact .nothing
          · simpa [hne] using Hosted.gathered messages hne
      | some frame =>
          cases ha : b.accepts frame with
          | none =>
              simp only [ha] at h
              obtain rfl := Option.some.inj h
              exact .refuses messages frame ha
          | some message =>
              simp only [ha] at h
              obtain rfl := Option.some.inj h
              exact .took messages frame message ha
  · obtain rfl := Option.some.inj h
    exact .refused _
  · next messages sent status =>
      obtain ⟨hs, h⟩ := Option.ite_none_right_eq_some.mp h
      obtain rfl := Option.some.inj h
      exact .wrote messages sent status hs
  · next count sent status =>
      obtain rfl := Option.some.inj h
      by_cases hs : sent < count
      · simpa [hs] using Hosted.short count sent status hs
      · rw [if_neg hs]
        refine .full count sent status _ hs ?_
        split_ifs <;> simp
  · next count status =>
      obtain rfl := Option.some.inj h
      refine .rest count status _ ?_
      split_ifs <;> simp
  · next leaves =>
      obtain rfl := Option.some.inj h
      cases leaves with
      | true => exact .failed
      | false => exact .fails
  · cases h

/-- The outcomes of a step of `main`. -/
inductive Moved (b : Bridge) : MainPhase → MainStep → Bridge → Prop
  | no_socket (index : Nat) (fd bind : Int) (h : index = 0 ∨ fd < 0) :
      Moved b .opening_interface (.open_interface index fd bind) { b with main := .exited 1 }
  | unbound (index : Nat) (fd bind : Int) (h : ¬ (index = 0 ∨ fd < 0)) (hb : bind < 0) :
      Moved b .opening_interface (.open_interface index fd bind) { b with main := .exited 1 }
  | bound (index : Nat) (fd bind : Int) (h : ¬ (index = 0 ∨ fd < 0)) (hb : ¬ bind < 0) :
      Moved b .opening_interface (.open_interface index fd bind) { b with main := .opening }
  | unopened (status : Int) (d : UInt32) (h : status ≠ 0) :
      Moved b .opening (.PassThruOpen status d) { b with main := .close_socket 1 }
  | opened (d : UInt32) : Moved b .opening (.PassThruOpen 0 d) { b with device := d, main := .connecting }
  | unconnected (status : Int) (c : UInt32) (h : status ≠ 0) :
      Moved b .connecting (.PassThruConnect status c) { b with main := .close_device 1 }
  | connected (c : UInt32) : Moved b .connecting (.PassThruConnect 0 c) { b with channel := c, main := .filtering }
  | unfiltered (status : Int) (f : UInt32) (h : status ≠ 0) :
      Moved b .filtering (.PassThruStartMsgFilter status f) { b with main := .disconnect 1 }
  | filtered (f : UInt32) :
      Moved b .filtering (.PassThruStartMsgFilter 0 f) { b with filter := f, main := .creating_reader }
  | uncreated (error : Int) (h : error ≠ 0) :
      Moved b .creating_reader (.create error) { b with main := .stop_filter 1 }
  | created (p : MainPhase) (hp : p = .host .testing ∨ p = .creating_reporter) :
      Moved b .creating_reader (.create 0) { b with reader := some .testing, main := p }
  | reports (error : Int) (r : Option ReporterPhase) (hr : r = none ∨ r = some .testing) :
      Moved b .creating_reporter (.create error) { b with reporter := r, main := .host .testing }
  | host (p : HostPhase) (a : MainStep) (b' : Bridge) (h : Hosted b p a b') : Moved b (.host p) a b'
  | joined_reader (hr : b.reader = some .exited) :
      Moved b .joining_reader .join { b with reader := none, main := .joining_reporter }
  | joined_reporter (hr : b.reporter = none ∨ b.reporter = some .exited) :
      Moved b .joining_reporter .join { b with reporter := none, main := .stop_filter (if b.failed then 1 else 0) }
  | stop_filter (result : Int) :
      Moved b (.stop_filter result) .PassThruStopMsgFilter { b with main := .disconnect result }
  | disconnect (result : Int) :
      Moved b (.disconnect result) .PassThruDisconnect { b with main := .close_device result }
  | close_device (result : Int) :
      Moved b (.close_device result) .PassThruClose { b with main := .close_socket result }
  | close_socket (result : Int) : Moved b (.close_socket result) .close { b with main := .exited result }

theorem moved_of_mainStep {p : MainPhase} {a : MainStep} (h : b.mainStep p a = some b') : Moved b p a b' := by
  unfold mainStep at h
  split at h
  · next index fd bind =>
      obtain rfl := Option.some.inj h
      by_cases hs : index = 0 ∨ fd < 0
      · have hall : index = 0 ∨ fd < 0 ∨ bind < 0 := or_assoc.mp (.inl hs)
        rw [if_pos hall]
        exact .no_socket index fd bind hs
      · by_cases hb : bind < 0
        · rw [if_pos (.inr (.inr hb))]
          exact .unbound index fd bind hs hb
        · rw [if_neg (by tauto)]
          exact .bound index fd bind hs hb
  · next status d =>
      by_cases hs : status = 0
      · subst hs
        obtain rfl := Option.some.inj h
        exact .opened d
      · rw [if_pos hs] at h
        obtain rfl := Option.some.inj h
        exact .unopened status d hs
  · next status c =>
      by_cases hs : status = 0
      · subst hs
        obtain rfl := Option.some.inj h
        exact .connected c
      · rw [if_pos hs] at h
        obtain rfl := Option.some.inj h
        exact .unconnected status c hs
  · next status f =>
      by_cases hs : status = 0
      · subst hs
        obtain rfl := Option.some.inj h
        exact .filtered f
      · rw [if_pos hs] at h
        obtain rfl := Option.some.inj h
        exact .unfiltered status f hs
  · next error =>
      by_cases he : error = 0
      · subst he
        obtain rfl := Option.some.inj h
        refine .created _ ?_
        split_ifs <;> simp
      · rw [if_pos he] at h
        obtain rfl := Option.some.inj h
        exact .uncreated error he
  · next error =>
      obtain rfl := Option.some.inj h
      refine .reports error _ ?_
      split_ifs <;> simp
  · exact .host _ _ b' (hosted_of_host h)
  · obtain ⟨hr, h⟩ := Option.ite_none_right_eq_some.mp h
    obtain rfl := Option.some.inj h
    exact .joined_reader hr
  · obtain ⟨hr, h⟩ := Option.ite_none_right_eq_some.mp h
    obtain rfl := Option.some.inj h
    exact .joined_reporter hr
  · obtain rfl := Option.some.inj h
    exact .stop_filter _
  · obtain rfl := Option.some.inj h
    exact .disconnect _
  · obtain rfl := Option.some.inj h
    exact .close_device _
  · obtain rfl := Option.some.inj h
    exact .close_socket _
  · cases h

/-- The outcomes of a step of the reader. -/
inductive Read (b : Bridge) : ReaderPhase → ReaderStep → Bridge → Prop
  | leaves (he : b.Ends) : Read b .testing .test { b with reader := some .exited }
  | goes (he : ¬ b.Ends) : Read b .testing .test { b with reader := some .draining }
  | empty : Read b .draining (.PassThruReadMsgs [] ERR_BUFFER_EMPTY) { b with reader := some .blocking }
  | drained (messages : List PASSTHRU_MSG) (status : Int) (hlen : messages.length ≤ batch) :
      Read b .draining (.PassThruReadMsgs messages status) { b with reader := some (heard messages status) }
  | waited (messages : List PASSTHRU_MSG) (status : Int) (hlen : messages.length ≤ 1) :
      Read b .blocking (.PassThruReadMsgs messages status) { b with reader := some (heard messages status) }
  | overflowed (messages : List PASSTHRU_MSG) :
      Read b (.overflowed messages) .count
        { b with overflows := b.overflows + 1, reader := some (forward (vehicle_to_host messages)) }
  | failed : Read b .failing .fail { b with failed := true, reader := some .exited }
  | wrote (frame : can_frame) (frames : List can_frame) (whole : Bool) :
      Read b (.forwarding frame frames) (.write whole) { b with reader := some (.counting whole frames) }
  | took (frames : List can_frame) :
      Read b (.counting true frames) .count { b with to_host := b.to_host + 1, reader := some (forward frames) }
  | dropped (frames : List can_frame) :
      Read b (.counting false frames) .count { b with host_drops := b.host_drops + 1, reader := some (forward frames) }

theorem read_of_readerStep {p : ReaderPhase} {a : ReaderStep} (h : b.readerStep p a = some b') : Read b p a b' := by
  unfold readerStep at h
  split at h
  · obtain rfl := Option.some.inj h
    by_cases he : b.Ends
    · simpa [he] using Read.leaves he
    · simpa [he] using Read.goes he
  · next messages status =>
      obtain ⟨⟨hlen, hempty⟩, h⟩ := Option.ite_none_right_eq_some.mp h
      obtain rfl := Option.some.inj h
      by_cases hs : status = ERR_BUFFER_EMPTY
      · obtain rfl := hempty hs
        subst hs
        exact .empty
      · rw [if_neg hs]
        exact .drained messages status hlen
  · next messages status =>
      obtain ⟨⟨hlen, -⟩, h⟩ := Option.ite_none_right_eq_some.mp h
      obtain rfl := Option.some.inj h
      exact .waited messages status hlen
  · obtain rfl := Option.some.inj h
    exact .overflowed _
  · obtain rfl := Option.some.inj h
    exact .failed
  · obtain rfl := Option.some.inj h
    exact .wrote _ _ _
  · next whole frames =>
      obtain rfl := Option.some.inj h
      cases whole with
      | true => exact .took frames
      | false => exact .dropped frames
  · cases h

/-- A step is a signal, or one of `main`, of the reader or of the reporter, which moves nobody else. -/
theorem step_cases {a : Label} (h : b.step a = some b') :
    (a = .signal ∧ b.stopping = false ∧ b' = { b with stopping := true }) ∨
      (∃ c, a = .main c ∧ Moved b b.main c b') ∨
      (∃ c p, a = .reader c ∧ b.reader = some p ∧ Read b p c b') ∨
      ∃ c p q, a = .reporter c ∧ b.reporter = some p ∧ b.reporterStep p c = some b' ∧
        b' = { b with reporter := some q } := by
  cases a with
  | signal =>
      simp only [step] at h
      split at h
      · cases h
      · next hs =>
          obtain rfl := Option.some.inj h
          exact .inl ⟨rfl, by simp_all, rfl⟩
  | main c => exact .inr (.inl ⟨c, rfl, moved_of_mainStep h⟩)
  | reader c =>
      obtain ⟨p, hp, h⟩ := Option.bind_eq_some_iff.mp h
      exact .inr (.inr (.inl ⟨c, p, rfl, hp, read_of_readerStep h⟩))
  | reporter c =>
      obtain ⟨p, hp, h⟩ := Option.bind_eq_some_iff.mp h
      refine .inr (.inr (.inr ⟨c, p, ?_⟩))
      have hq : ∃ q, b' = { b with reporter := some q } := by
        have hstep := h
        unfold reporterStep at hstep
        split at hstep <;> first | exact ⟨_, (Option.some.inj hstep).symm⟩ | cases hstep
      obtain ⟨q, hq⟩ := hq
      exact ⟨q, rfl, hp, h, hq⟩

end Bridge

end SocketCan

end Mongoose
