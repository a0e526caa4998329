import Mongoose.Tty.Lifecycle

/-!
# Mongoose.Tty.Serial

What the device gets from several threads that send at once.

`io_mutex_` is held over the whole of a write loop, so the bytes of two sends never mix:
what was written is what each send that is over got accepted, in the order in which they
had the mutex, and then what the current one has so far.
-/

namespace Mongoose

/-! ## one send -/

namespace Sending

/-- What the device has taken of a send. -/
def accepted (s : Sending) : Bytes := s.data.take s.sent

/-- A send whose bytes are accounted for. -/
def Valid (s : Sending) : Prop := s.data ≠ [] ∧ Kept s.data s s.accepted

/-- A send is over. -/
def Over (s : Sending) : Prop := s.phase = .returned ∨ ∃ error, s.phase = .threw error

variable {strerror : Int → String} {s t : Sending} {e : SystemCall}

/-- A system call only adds to what the device was given. -/
theorem given_append (a b : Bytes) : s.given e t (a ++ b) = a ++ s.given e t b := by
  cases e <;> simp [given]

/-- A system call keeps the account. -/
theorem Valid.step (h : s.Valid) (hs : s.step strerror e = some t) :
    t.Valid ∧ t.data = s.data ∧ s.given e t s.accepted = t.accepted := by
  have hk := h.2.moved h.1 (moved_of_step hs)
  have hdata := hk.data_eq
  have hbytes : s.given e t s.accepted = t.accepted := by rw [hk.bytes_eq, accepted, hdata]
  refine ⟨⟨hdata ▸ h.1, ?_⟩, hdata, hbytes⟩
  rw [hdata, ← hbytes]
  exact hk

/-- A send has returned exactly if the device took all of it. -/
theorem Valid.returned_iff (h : s.Valid) : s.phase = .returned ↔ s.accepted = s.data := by
  rw [h.2.returned]
  constructor
  · intro heq
    rw [accepted, heq, List.take_length]
  · intro heq
    have hlen := congrArg List.length heq
    have hle := h.2.sent_le
    simp only [accepted, List.length_take] at hlen
    omega

/-- A send of which nothing was taken has not returned. -/
theorem Valid.not_returned (h : s.Valid) (hnone : s.accepted = []) : s.phase ≠ .returned := by
  rw [Ne, h.returned_iff, hnone]
  exact fun heq => h.1 heq.symm

theorem valid_of_send {tty : Tty} {data : Bytes} {timeout : Nat} (h : tty.send data timeout = .ok s) :
    s.Valid ∧ s.data = data ∧ s.accepted = [] := by
  obtain ⟨hdata, -, hs⟩ := send_ok h
  subst hs
  have hlen := List.length_pos_iff.mpr hdata
  exact ⟨⟨hdata, ⟨rfl, rfl, Nat.zero_le _, iff_of_false nofun (Nat.ne_of_lt hlen), nofun, nofun⟩⟩, rfl, rfl⟩

end Sending

/-- The data of a thread inside `send`. -/
def Visit.data : Visit → Option Bytes
  | .entering data _ | .checking data _ => some data
  | .tracing s | .writing s => some s.data
  | _ => none

namespace Line

variable {ι : Type} {strerror : Int → String} {fd wake : Int} {l l' : Line ι} {log : Log ι}
  {i : ι} {tty : TtyMembers ι} {v : Visit}

/-! ## all sends -/

/-- What the sends that are over got accepted. -/
def Log.accepted (log : Log ι) : Bytes := log.ended.flatMap fun p => p.2.accepted

/-- What a thread inside `send` stands on. -/
def Sends (log : Log ι) (i : ι) : Visit → Prop
  | .tracing s => s.Valid ∧ s.accepted = []
  | .writing s => s.Valid ∧ s.phase ≠ .returned ∧ log.written = log.accepted ++ s.accepted
  | .sent => ∃ s, (i, s) ∈ log.ended ∧ s.phase = .returned
  | _ => True

/-- What holds of the sends, those that are over included. -/
structure Serial (l : Line ι) (log : Log ι) : Prop where
  ended : ∀ p ∈ log.ended, p.2.Valid ∧ p.2.Over
  threads : ∀ i v, l.threads i = some v → Sends log i v
  idle : (∀ i s, l.threads i ≠ some (.writing s)) → log.written = log.accepted

/-- A thread that does not write does not care what is written. -/
theorem Sends.mono {log' : Log ι} (h : Sends log i v) (hv : ∀ s, v ≠ .writing s)
    (hended : ∀ p ∈ log.ended, p ∈ log'.ended) : Sends log' i v := by
  cases v with
  | writing s => exact absurd rfl (hv s)
  | sent =>
      obtain ⟨s, hs, hp⟩ := h
      exact ⟨s, hended _ hs, hp⟩
  | tracing s => exact h
  | _ => trivial

/-- What a call of a send writes, and whether it ends it. -/
theorem note_call_written (log : Log ι) (i : ι) (fd : Int) {s t : Sending} {e : SystemCall}
    (hs : s.step strerror e = some t) :
    (log.note_call strerror fd i s e).written = s.given e t log.written ∧
      ((after_call t = .writing t → (log.note_call strerror fd i s e).ended = log.ended) ∧
        (t.Over → (log.note_call strerror fd i s e).ended = log.ended ++ [(i, t)])) := by
  have hw (log : Log ι) : (log.note_end i t).written = log.written := by
    rw [Log.note_end]
    split <;> rfl
  have hn (log : Log ι) (h : after_call t = .writing t) : (log.note_end i t).ended = log.ended := by
    rw [after_call] at h
    rw [Log.note_end]
    split at h
    · cases h
    · cases h
    · rfl
  have ho (log : Log ι) (h : t.Over) : (log.note_end i t).ended = log.ended ++ [(i, t)] := by
    rw [Log.note_end]
    obtain h | ⟨error, h⟩ := h <;> rw [h]
  cases e <;> simp only [Log.note_call, hs] <;>
    exact ⟨hw _, fun h => hn _ h, fun h => ho _ h⟩

/-- A send that goes on has not returned. -/
theorem not_returned_of_goes {t : Sending} (h : after_call t = .writing t) : t.phase ≠ .returned := by
  intro hp
  rw [after_call, hp] at h
  cases h

/-- No thread writes while another holds `io_mutex_`. -/
theorem Sound.not_writing (hs : Sound fd wake l) (hi : l.threads i = some v) (hv : v.Writes) {j : ι} {u : Visit}
    (hj : l.threads j = some u) (hji : j ≠ i) (s : Sending) : u ≠ .writing s := by
  rintro rfl
  exact hji (hs.io.unique hj trivial hi hv)

/-- Only a send writes. -/
theorem Log.note_of_stop (log : Log ι) (strerror : Int → String) (l : Line ι) (i : ι) (b : StopStep) (l'' : Line ι) :
    (log.note strerror l (.stop i b) l'').written = log.written ∧
      (log.note strerror l (.stop i b) l'').ended = log.ended := by
  cases b with
  | wake =>
      by_cases hwake : l.tty.wake ≥ 0
      · rw [Log.note, if_pos hwake]
        exact ⟨rfl, rfl⟩
      · rw [Log.note, if_neg hwake]
        exact ⟨rfl, rfl⟩
  | _ => exact ⟨rfl, rfl⟩

theorem Log.note_of_pump (log : Log ι) (strerror : Int → String) (l : Line ι) (b : PumpStep) (l'' : Line ι) :
    (log.note strerror l (.pump b) l'').written = log.written ∧
      (log.note strerror l (.pump b) l'').ended = log.ended := by
  cases b with
  | read result => cases result <;> exact ⟨rfl, rfl⟩
  | receive | report =>
      simp only [Log.note]
      split <;> exact ⟨rfl, rfl⟩
  | _ => exact ⟨rfl, rfl⟩

/-- Only what was written and which sends are over matters. -/
theorem Serial.congr {log' : Log ι} (h : Serial l log) (hl : l'.threads = l.threads)
    (hw : log'.written = log.written) (he : log'.ended = log.ended) : Serial l' log' where
  ended := he ▸ h.ended
  threads i v hi := by
    have hv := h.threads i v (hl ▸ hi)
    cases v with
    | writing s => exact ⟨hv.1, hv.2.1, by rw [hw, hv.2.2, Log.accepted, Log.accepted, he]⟩
    | sent =>
        obtain ⟨s, hs, hp⟩ := hv
        exact ⟨s, he ▸ hs, hp⟩
    | tracing s => exact hv
    | _ => trivial
  idle hnone := by rw [hw, h.idle (hl ▸ hnone), Log.accepted, Log.accepted, he]

section threads

variable [DecidableEq ι]

/-- A step that logs nothing and does not begin, go on with or end a write. -/
theorem Serial.quiet (h : Serial l log) (hold : ∀ s, l.threads i ≠ some (.writing s)) (hv : Sends log i v) :
    Serial (l.put tty i v) log where
  ended := h.ended
  threads := forall_put (fun j u hj _ => h.threads j u hj) hv
  idle hnone := by
    refine h.idle fun j s hj => ?_
    by_cases hji : j = i
    · exact hold s (hji ▸ hj)
    · exact hnone j s (by rwa [put_threads_of_ne _ _ _ hji])

theorem Serial.sent {o : Option Visit} {a : SendStep} {l'' : Line ι} (h : Serial l log) (hs : Sound fd wake l)
    (ho : l.threads i = o) (hm : Sent strerror l.tty i o a tty v) :
    Serial (l.put tty i v) (log.note strerror l (.send i a) l'') := by
  have hnot {u : Visit} (ho : l.threads i = some u) (hu : ∀ s, u ≠ .writing s) (s : Sending) :
      l.threads i ≠ some (.writing s) := fun h => hu s (Option.some.inj (ho.symm.trans h))
  cases hm with
  | refused | entered => exact h.quiet (fun s hw => by rw [ho] at hw; cases hw) trivial
  | locked | stopped | traceThrew => exact h.quiet (hnot ho (by simp)) trivial
  | checked data timeout s hsend =>
      obtain ⟨hvalid, -, hnone⟩ := Sending.valid_of_send hsend
      exact h.quiet (hnot ho (by simp)) ⟨hvalid, hnone⟩
  | traced s =>
      obtain ⟨hvalid, hnone⟩ := h.threads i _ ho
      -- the thread has `io_mutex_`, so nobody was writing
      have hidle : log.written = log.accepted := h.idle fun j t hj => by
        by_cases hji : j = i
        · exact hnot ho (by simp) t (hji ▸ hj)
        · exact hs.not_writing ho trivial hj hji t rfl
      exact {
        ended := h.ended
        threads := forall_put (fun j u hj _ => h.threads j u hj)
          ⟨hvalid, hvalid.not_returned hnone, by rw [hnone, List.append_nil]; exact hidle⟩
        idle := fun hnone => absurd (put_threads_self ..) (hnone i s) }
  | called s t e hstep hgoes hio =>
      obtain ⟨hvalid, -, hwritten⟩ := h.threads i _ ho
      obtain ⟨hvalid', -, hgiven⟩ := hvalid.step hstep
      obtain ⟨hw, hended, -⟩ := note_call_written log i l.tty.fd hstep
      have hended := hended hgoes
      have hnote : log.note strerror l (.send i (.call e)) l'' = log.note_call strerror l.tty.fd i s e := by
        simp [Log.note, ho]
      rw [hnote]
      exact {
        ended := hended ▸ h.ended
        threads := forall_put
          (fun j u hj hji => (h.threads j u hj).mono (hs.not_writing ho trivial hj hji) fun p hp => hended ▸ hp)
          ⟨hvalid', not_returned_of_goes hgoes,
            by rw [hw, hwritten, Sending.given_append, hgiven, Log.accepted, Log.accepted, hended]⟩
        idle := fun hnone => absurd (put_threads_self ..) (hnone i t) }
  | ended s t e v hstep hv =>
      obtain ⟨hvalid, -, hwritten⟩ := h.threads i _ ho
      obtain ⟨hvalid', -, hgiven⟩ := hvalid.step hstep
      have hover : t.Over := hv.imp And.right fun h => h.imp fun _ => And.right
      obtain ⟨hw, -, hended⟩ := note_call_written log i l.tty.fd hstep
      have hended := hended hover
      have hnote : log.note strerror l (.send i (.call e)) l'' = log.note_call strerror l.tty.fd i s e := by
        simp [Log.note, ho]
      rw [hnote]
      refine ⟨fun p hp => ?_, forall_put (fun j u hj hji => ?_) ?_, fun _ => ?_⟩
      · rw [hended, List.mem_append, List.mem_singleton] at hp
        obtain hp | rfl := hp
        · exact h.ended p hp
        · exact ⟨hvalid', hover⟩
      · refine (h.threads j u hj).mono (hs.not_writing ho trivial hj hji) fun p hp => ?_
        rw [hended]
        exact List.mem_append_left _ hp
      · obtain ⟨rfl, hp⟩ | ⟨error, rfl, -⟩ := hv
        · exact ⟨t, by simp [hended], hp⟩
        · trivial
      · rw [hw, hwritten, Sending.given_append, hgiven, Log.accepted, Log.accepted, hended, List.flatMap_append]
        simp

theorem Serial.step {a : Label ι} (h : Serial l log) (hs : Sound fd wake l)
    (hstep : Line.step strerror l a = some l') : Serial l' (log.note strerror l a l') := by
  obtain ⟨i, b, tty, v, rfl, hm, rfl⟩ | ⟨i, b, tty, p, rfl, hm, rfl⟩ | ⟨b, p, tty, rfl, hp, hm, rfl⟩ :=
    step_cases hstep
  · exact h.sent hs rfl hm
  · obtain ⟨hw, he⟩ := log.note_of_stop strerror l i b (l.put tty i (.stop p))
    refine (h.quiet (v := .stop p) (fun s hi => ?_) trivial).congr rfl hw he
    generalize l.threads i = o at hm hi
    cases hm <;> cases hi
  · obtain ⟨hw, he⟩ := log.note_of_pump strerror l b { l with tty := tty }
    exact h.congr rfl hw he

/-! ## which data -/

omit [DecidableEq ι] in
/-- A step inside `send` keeps the data it was called with, and ends at most its own send. -/
theorem Serial.data_of_sent {o : Option Visit} {a : SendStep} (h : Serial l log) (l'' : Line ι)
    (ho : l.threads i = o) (hm : Sent strerror l.tty i o a tty v) :
    (∀ data, v.data = some data → (∃ u, o = some u ∧ u.data = some data) ∨ ∃ timeout, a = .enter data timeout) ∧
      ((log.note strerror l (.send i a) l'').ended = log.ended ∨ ∃ t u,
        (log.note strerror l (.send i a) l'').ended = log.ended ++ [(i, t)] ∧ o = some u ∧ u.data = some t.data ∧
          (v = .sent ∧ t.phase = .returned ∨ ∃ e, v = .threw e ∧ t.phase = .threw e)) := by
  have hnote {s : Sending} {e : SystemCall} (ho : l.threads i = some (.writing s)) :
      log.note strerror l (.send i (.call e)) l'' = log.note_call strerror l.tty.fd i s e := by
    simp [Log.note, ho]
  cases hm with
  | refused | stopped | traceThrew => exact ⟨by simp [Visit.data], .inl rfl⟩
  | entered data timeout =>
      refine ⟨fun data' hd => .inr ⟨timeout, ?_⟩, .inl rfl⟩
      cases hd
      rfl
  | locked data timeout => exact ⟨fun data' hd => .inl ⟨_, rfl, hd⟩, .inl rfl⟩
  | checked data timeout s hsend =>
      have hdata := (Sending.valid_of_send hsend).2.1
      exact ⟨fun data' hd => .inl ⟨_, rfl, (congrArg some hdata.symm).trans hd⟩, .inl rfl⟩
  | traced s => exact ⟨fun data' hd => .inl ⟨_, rfl, hd⟩, .inl rfl⟩
  | called s t e hs hgoes hio =>
      have hdata := ((h.threads i _ ho).1.step hs).2.1
      obtain ⟨-, he, -⟩ := note_call_written log i l.tty.fd hs
      exact ⟨fun data' hd => .inl ⟨_, rfl, (congrArg some hdata.symm).trans hd⟩, .inl (by rw [hnote ho, he hgoes])⟩
  | ended s t e v hs hv =>
      have hdata := ((h.threads i _ ho).1.step hs).2.1
      have hover : t.Over := hv.imp And.right fun h => h.imp fun _ => And.right
      obtain ⟨-, -, he⟩ := note_call_written log i l.tty.fd hs
      refine ⟨fun data' hd => ?_, .inr ⟨t, _, by rw [hnote ho, he hover], rfl, congrArg some hdata.symm, hv⟩⟩
      obtain ⟨rfl, -⟩ | ⟨error, rfl, -⟩ := hv <;> cases hd

/-- A thread was called with its data, and so was that of every send that is over. -/
structure Called (ls : List (Label ι)) (l : Line ι) (log : Log ι) : Prop where
  threads : ∀ i v, l.threads i = some v → ∀ data, v.data = some data → ∃ timeout, .send i (.enter data timeout) ∈ ls
  ended : ∀ p ∈ log.ended, ∃ timeout, .send p.1 (.enter p.2.data timeout) ∈ ls

theorem Called.step {ls : List (Label ι)} {a : Label ι} (h : Called ls l log) (hs : Serial l log)
    (hstep : Line.step strerror l a = some l') : Called (ls ++ [a]) l' (log.note strerror l a l') := by
  have hold {j : ι} {u : Visit} (hj : l.threads j = some u) (data : Bytes) (hu : u.data = some data) :
      ∃ timeout, .send j (.enter data timeout) ∈ ls ++ [a] := by
    obtain ⟨timeout, hmem⟩ := h.threads j u hj data hu
    exact ⟨timeout, List.mem_append_left _ hmem⟩
  have hended : ∀ p ∈ log.ended, ∃ timeout, .send p.1 (.enter p.2.data timeout) ∈ ls ++ [a] := fun p hp => by
    obtain ⟨timeout, hmem⟩ := h.ended p hp
    exact ⟨timeout, List.mem_append_left _ hmem⟩
  obtain ⟨i, b, tty, v, rfl, hm, rfl⟩ | ⟨i, b, tty, p, rfl, hm, rfl⟩ | ⟨b, p, tty, rfl, hp, hm, rfl⟩ :=
    step_cases hstep
  · obtain ⟨hdata, he⟩ := hs.data_of_sent (l.put tty i v) rfl hm
    constructor
    · refine forall_put (P := fun j u => ∀ data, u.data = some data →
        ∃ timeout, .send j (.enter data timeout) ∈ ls ++ [.send i b]) (fun j u hj _ => hold hj) fun data hd => ?_
      obtain ⟨u, hu, hd⟩ | ⟨timeout, rfl⟩ := hdata data hd
      · exact hold hu data hd
      · exact ⟨timeout, by simp⟩
    · obtain he | ⟨t, u, he, hu, hd, -⟩ := he
      · rw [he]
        exact hended
      · rw [he]
        intro p hp
        rw [List.mem_append, List.mem_singleton] at hp
        obtain hp | rfl := hp
        · exact hended p hp
        · exact hold hu _ hd
  · constructor
    · refine forall_put (P := fun j u => ∀ data, u.data = some data →
        ∃ timeout, .send j (.enter data timeout) ∈ ls ++ [.stop i b]) (fun j u hj _ => hold hj) ?_
      intro data hd
      cases hd
    · rw [(log.note_of_stop strerror l i b _).2]
      exact hended
  · refine ⟨fun j u hj => hold hj, ?_⟩
    rw [(log.note_of_pump strerror l b _).2]
    exact hended

/-- A send that is over left its thread at its end, and no thread has two. -/
structure Once (l : Line ι) (log : Log ι) : Prop where
  finished : ∀ p ∈ log.ended, l.threads p.1 = some .sent ∧ p.2.phase = .returned ∨
    ∃ e, l.threads p.1 = some (.threw e) ∧ p.2.phase = .threw e
  nodup : (log.ended.map Prod.fst).Nodup

/-- A thread at its end stays there. -/
theorem threads_of_over {a : Label ι} (h : Line.step strerror l a = some l')
    (hi : l.threads i = some .sent ∨ ∃ e, l.threads i = some (.threw e)) : l'.threads i = l.threads i := by
  obtain heq | ⟨b, v, rfl, -, hs⟩ | ⟨b, p, rfl, -, hs⟩ := thread_of_step h i
  · exact heq
  · obtain hi | ⟨e, hi⟩ := hi <;> rw [hi] at hs
    · exact absurd rfl hs.goes.2.1
    · exact absurd rfl (hs.goes.2.2 e)
  · obtain hi | ⟨e, hi⟩ := hi <;> rw [hi] at hs <;> obtain ⟨q, hq, -⟩ := hs.goes <;> cases hq

/-- What a step adds to the sends that are over. -/
theorem Serial.ended_of_step {a : Label ι} (h : Serial l log) (hstep : Line.step strerror l a = some l') :
    (log.note strerror l a l').ended = log.ended ∨ ∃ i u t, (log.note strerror l a l').ended = log.ended ++ [(i, t)] ∧
      l.threads i = some u ∧ u.data = some t.data ∧
      (l'.threads i = some .sent ∧ t.phase = .returned ∨ ∃ e, l'.threads i = some (.threw e) ∧ t.phase = .threw e) := by
  obtain ⟨i, b, tty, v, rfl, hm, rfl⟩ | ⟨i, b, tty, p, rfl, hm, rfl⟩ | ⟨b, p, tty, rfl, hp, hm, rfl⟩ :=
    step_cases hstep
  · obtain he | ⟨t, u, he, hu, hd, hv⟩ := (h.data_of_sent (l.put tty i v) rfl hm).2
    · exact .inl he
    · refine .inr ⟨i, u, t, he, hu, hd, ?_⟩
      rw [put_threads_self]
      exact hv.imp (fun ⟨hv, hp⟩ => ⟨congrArg some hv, hp⟩) fun ⟨e, hv, hp⟩ => ⟨e, congrArg some hv, hp⟩
  · exact .inl (log.note_of_stop strerror l i b _).2
  · exact .inl (log.note_of_pump strerror l b _).2

theorem Once.step {a : Label ι} (h : Once l log) (hs : Serial l log) (hstep : Line.step strerror l a = some l') :
    Once l' (log.note strerror l a l') := by
  have hold : ∀ p ∈ log.ended, l'.threads p.1 = some .sent ∧ p.2.phase = .returned ∨
      ∃ e, l'.threads p.1 = some (.threw e) ∧ p.2.phase = .threw e := fun p hp => by
    have hover := h.finished p hp
    rwa [threads_of_over hstep (hover.imp And.left fun ⟨e, he⟩ => ⟨e, he.1⟩)]
  obtain he | ⟨i, u, t, he, hu, hd, hv⟩ := hs.ended_of_step hstep
  · exact ⟨he ▸ hold, he ▸ h.nodup⟩
  · -- the thread was still inside, so it has no send that is over
    have hfresh : i ∉ log.ended.map Prod.fst := fun hmem => by
      obtain ⟨p, hp, rfl⟩ := List.mem_map.mp hmem
      obtain ⟨hsent, -⟩ | ⟨e, hthrew, -⟩ := h.finished p hp
      · rw [hsent] at hu
        cases hu
        cases hd
      · rw [hthrew] at hu
        cases hu
        cases hd
    constructor
    · intro p hp
      rw [he, List.mem_append, List.mem_singleton] at hp
      obtain hp | rfl := hp
      · exact hold p hp
      · exact hv
    · rw [he, List.map_append]
      exact List.nodup_append.mpr ⟨h.nodup, by simp, by
        rintro j hj j' hj' rfl
        rw [List.map_singleton, List.mem_singleton] at hj'
        subst hj'
        exact hfresh hj⟩

/-! ## over a run -/

variable {exclusive : Bool} {l₀ : Line ι} {log₀ : Log ι} {ls : List (Label ι)}

theorem serial_run (hfd : 0 ≤ fd) (hne : wake ≠ fd) (hinit : Started strerror fd wake exclusive l₀ log₀)
    (h : Run.run (logged strerror) (l₀, log₀) ls = some (l, log)) : Serial l log ∧ Called ls l log ∧ Once l log := by
  refine Run.run_induction (P := fun ls s => Serial s.1 s.2 ∧ Called ls s.1 s.2 ∧ Once s.1 s.2) ?_ ?_ h
  · obtain ⟨fds, hstart, rfl⟩ := hinit
    have hthreads := threads_of_start hstart
    exact ⟨⟨nofun, fun i v hi => by simp [hthreads] at hi, fun _ => rfl⟩,
      ⟨fun i v hi => by simp [hthreads] at hi, nofun⟩, nofun, List.nodup_nil⟩
  · rintro ks ⟨m, log⟩ a ⟨m', log'⟩ hm ⟨hserial, hcalled, honce⟩ hstep
    obtain ⟨hs, -⟩ := told_run hfd hne hinit hm
    obtain ⟨hmoves, rfl⟩ := Run.recording_eq_some_iff.mp hstep
    exact ⟨hserial.step hs hmoves, hcalled.step hserial hmoves, honce.step hserial hmoves⟩

/-- **Sends do not mix.**  Whatever the order of the threads, the device has been given what each send that
is over got accepted, in the order in which they had `io_mutex_`, and then what the one that writes now has so
far.  A send that is over returned if and only if the device took the whole of the data it was called with; no thread has two,
and one that has returned has one. -/
theorem sends_serial (hfd : 0 ≤ fd) (hne : wake ≠ fd) (hinit : Started strerror fd wake exclusive l₀ log₀)
    (h : Run.run (logged strerror) (l₀, log₀) ls = some (l, log)) :
    (∀ i s, l.threads i = some (.writing s) → log.written = log.accepted ++ s.accepted ∧ s.accepted <+: s.data) ∧
      ((∀ i s, l.threads i ≠ some (.writing s)) → log.written = log.accepted) ∧
      (∀ p ∈ log.ended, p.2.accepted <+: p.2.data ∧ (p.2.phase = .returned ↔ p.2.accepted = p.2.data) ∧
        ∃ timeout, .send p.1 (.enter p.2.data timeout) ∈ ls) ∧
      (log.ended.map Prod.fst).Nodup ∧
      ∀ i, l.threads i = some .sent → ∃ s, (i, s) ∈ log.ended ∧ s.accepted = s.data := by
  obtain ⟨hs, hc, ho⟩ := serial_run hfd hne hinit h
  refine ⟨fun i s hi => ⟨(hs.threads i _ hi).2.2, List.take_prefix ..⟩, hs.idle, fun p hp => ?_, ho.nodup, fun i hi => ?_⟩
  · exact ⟨List.take_prefix .., (hs.ended p hp).1.returned_iff, hc.ended p hp⟩
  · obtain ⟨s, hmem, hp⟩ := hs.threads i _ hi
    exact ⟨s, hmem, (hs.ended _ hmem).1.returned_iff.mp hp⟩

/-- Two sends, the second waiting for the first. -/
def sending : List (Label Nat) :=
  [.send 0 (.enter [1, 2, 3] 5), .send 1 (.enter [4] 5), .send 0 .lock, .send 0 .check, .send 0 .trace,
    .send 0 (.call (.now 0)), .send 0 (.call (.write 1 0)), .send 0 (.call (.now 1)), .send 0 (.call (.write 2 0)),
    .send 1 .lock, .send 1 .check, .send 1 .trace, .send 1 (.call (.now 2)), .send 1 (.call (.write 1 0))]

/-- Both frames arrive whole. -/
theorem sends_serial_two :
    ∃ l₀ log₀ l log, Run.run (logged fun _ => "") (l₀, log₀) sending = some (l, log) ∧
      log.written = [1, 2, 3, 4] ∧ (∃ s, (0, s) ∈ log.ended ∧ s.accepted = s.data) ∧
      ∃ s, (1, s) ∈ log.ended ∧ s.accepted = s.data := by
  let first : Except Exception Unit × List FdOp × Line Nat := start (fun _ => "") (opened 3 false) 4 0 none
  have hinit : Started (fun _ => "") 3 4 false first.2.2 { fds := first.2.1 } := ⟨_, rfl, rfl⟩
  have hdone : (Run.run (logged fun _ => "") (first.2.2, { fds := first.2.1 }) sending).map
      (fun s => (s.1.threads 0, s.1.threads 1, s.2.written)) = some (some .sent, some .sent, [1, 2, 3, 4]) := rfl
  obtain ⟨⟨l, log⟩, hrun, hs⟩ := Option.map_eq_some_iff.mp hdone
  obtain ⟨h0, hs⟩ := Prod.mk.inj hs
  obtain ⟨h1, hwritten⟩ := Prod.mk.inj hs
  obtain ⟨-, -, -, -, hsent⟩ := sends_serial (by decide) (by decide) hinit hrun
  exact ⟨_, _, l, log, hrun, hwritten, hsent 0 h0, hsent 1 h1⟩

end threads

end Line

end Mongoose
