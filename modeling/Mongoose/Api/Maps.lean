import Mongoose.Api

/-!
# Mongoose.Api.Maps

The filters and the periodic messages of a device.

`Device.Maps` says that the keys of both maps are IDs that were handed out, each
once, and that neither map grows too large.
-/

namespace Mongoose

/-! ## maps from IDs -/

namespace IdMap

variable {β : Type} {m : IdMap β} {id : UInt32} {v : β}

/-- Each ID is there once. -/
def Keyed (m : IdMap β) : Prop := (m.map Prod.fst).Nodup

theorem not_mem_of_lookup (h : m.lookup id = none) : id ∉ m.map Prod.fst := by
  rw [List.lookup_eq_none_iff] at h
  intro hid
  obtain ⟨e, he, rfl⟩ := List.mem_map.mp hid
  simpa using h e he

theorem Keyed.emplace (h : m.Keyed) : Keyed (m.emplace id v) := by
  rw [IdMap.emplace]
  split
  · exact h
  · next hsome =>
      have hnone : m.lookup id = none := by
        rw [← Option.not_isSome_iff_eq_none]
        exact hsome
      rw [Keyed, List.map_append, List.nodup_append]
      refine ⟨h, by simp, fun a ha b hb hab => ?_⟩
      rw [List.map_singleton, List.mem_singleton] at hb
      rw [hab, hb] at ha
      exact not_mem_of_lookup hnone ha

theorem Keyed.filter (h : m.Keyed) (p : UInt32 × β → Bool) : Keyed (m.filter p) :=
  h.sublist (List.filter_sublist.map _)

theorem Keyed.erase (h : m.Keyed) : Keyed (m.erase id) := h.filter _

/-- What a filter leaves under an ID. -/
theorem Keyed.lookup_filter (h : m.Keyed) (p : β → Bool) (k : UInt32) :
    List.lookup k (m.filter fun e => p e.2) = (List.lookup k m).filter p := by
  induction m with
  | nil => rfl
  | cons e m ih =>
      obtain ⟨hne, hm⟩ := List.nodup_cons.mp h
      have ih := ih hm
      rw [List.filter_cons, List.lookup_cons]
      by_cases hk : k = e.1
      · subst hk
        rw [beq_self_eq_true]
        split
        · next hp => rw [List.lookup_cons, beq_self_eq_true, Option.filter_some, if_pos hp]
        · next hp =>
            have hnone : List.lookup e.1 m = none := by
              rw [List.lookup_eq_none_iff]
              intro x hx
              simpa using fun h => hne (List.mem_map.mpr ⟨x, hx, h.symm⟩)
            rw [ih, hnone, Option.filter_some, if_neg hp]
            rfl
      · have hbeq : (k == e.1) = false := by simpa using hk
        rw [hbeq]
        split
        · rw [List.lookup_cons, hbeq, ih]
        · exact ih

end IdMap

/-! ## the maps of a device -/

/-- The maps of a device: their keys are IDs below a bound, each once, their handles
fit the field, they are empty without a channel, and they do not grow too large. -/
structure Device.Maps (d : Device) (bound : Nat) : Prop where
  filters : d.filters.Keyed
  periodics : d.periodics.Keyed
  filter : ∀ id f, d.filters.lookup id = some f → id.toNat < bound ∧ f.handle < 2 ^ 32
  periodic : ∀ id handle, d.periodics.lookup id = some handle → id.toNat < bound ∧ handle < 2 ^ 32
  idle : d.channel = 0 → d.filters = [] ∧ d.periodics = []
  flow : (d.filters.countP fun e => e.2.table = table_flow_control) ≤ 64
  few : d.periodics.length ≤ 10

namespace Device.Maps

variable {d d' : Device} {n n' : Nat}

/-- Maps that stay. -/
theorem congr (h : d.Maps n) (hn : n ≤ n') (hfilters : d'.filters = d.filters)
    (hperiodics : d'.periodics = d.periodics) (hchannel : d'.channel = 0 → d.channel = 0) :
    d'.Maps n' where
  filters := hfilters ▸ h.filters
  periodics := hperiodics ▸ h.periodics
  filter := fun id f hid => (h.filter id f (hfilters ▸ hid)).imp_left fun hlt => by omega
  periodic := fun id p hid => (h.periodic id p (hperiodics ▸ hid)).imp_left fun hlt => by omega
  idle := fun hc => by rw [hfilters, hperiodics]; exact h.idle (hchannel hc)
  flow := hfilters ▸ h.flow
  few := hperiodics ▸ h.few

/-- Empty maps. -/
theorem empty (hfilters : d.filters = []) (hperiodics : d.periodics = []) : d.Maps n where
  filters := by rw [hfilters]; exact List.nodup_nil
  periodics := by rw [hperiodics]; exact List.nodup_nil
  filter := fun id f hid => by rw [hfilters] at hid; cases hid
  periodic := fun id p hid => by rw [hperiodics] at hid; cases hid
  idle := fun _ => ⟨hfilters, hperiodics⟩
  flow := by rw [hfilters]; decide
  few := by rw [hperiodics]; decide

/-- The next ID is in neither map. -/
theorem lookup_next (h : d.Maps n) (hle : n ≤ 0xffffffff) :
    d.filters.lookup (UInt32.ofNat n) = none ∧ d.periodics.lookup (UInt32.ofNat n) = none := by
  have hnext : (UInt32.ofNat n).toNat = n := by
    rw [UInt32.toNat_ofNat', Nat.mod_eq_of_lt (by omega)]
  constructor
  · by_contra hne
    obtain ⟨f, hf⟩ := Option.ne_none_iff_exists'.mp hne
    have := (h.filter _ _ hf).1
    omega
  · by_contra hne
    obtain ⟨handle, hh⟩ := Option.ne_none_iff_exists'.mp hne
    have := (h.periodic _ _ hh).1
    omega

/-- A new filter, where its table has room. -/
theorem emplace_filter (h : d.Maps n) (hle : n ≤ 0xffffffff) (hchannel : d.channel ≠ 0) {f : Filter}
    (hf : f.handle < 2 ^ 32)
    (hroom : f.table = table_flow_control →
      (d.filters.countP fun e => e.2.table = table_flow_control) < 64) :
    ({ d with filters := d.filters.emplace (UInt32.ofNat n) f } : Device).Maps (n + 1) := by
  have hnone := (h.lookup_next hle).1
  have hmap : d.filters.emplace (UInt32.ofNat n) f = d.filters ++ [(UInt32.ofNat n, f)] := by
    rw [IdMap.emplace, hnone]
    rfl
  refine ⟨h.filters.emplace, h.periodics, fun id g hg => ?_, fun id p hid =>
    (h.periodic id p hid).imp_left fun _ => by omega, fun hc => absurd hc hchannel, ?_, h.few⟩
  · rw [IdMap.lookup_emplace, hnone, Option.getD_none] at hg
    split at hg
    · next hid =>
        cases hg
        rw [hid, UInt32.toNat_ofNat', Nat.mod_eq_of_lt (by omega)]
        exact ⟨by omega, hf⟩
    · exact (h.filter id g hg).imp_left fun _ => by omega
  · have hflow := h.flow
    change List.countP _ (d.filters.emplace (UInt32.ofNat n) f) ≤ 64
    rw [hmap, List.countP_append, List.countP_singleton]
    split
    · next hft =>
        have := hroom (by simpa using hft)
        omega
    · omega

/-- A new periodic message, where there is room. -/
theorem emplace_periodic (h : d.Maps n) (hle : n ≤ 0xffffffff) (hchannel : d.channel ≠ 0)
    {handle : Nat} (hh : handle < 2 ^ 32) (hroom : d.periodics.length < 10) :
    ({ d with periodics := d.periodics.emplace (UInt32.ofNat n) handle } : Device).Maps (n + 1) := by
  have hnone := (h.lookup_next hle).2
  have hmap : d.periodics.emplace (UInt32.ofNat n) handle =
      d.periodics ++ [(UInt32.ofNat n, handle)] := by
    rw [IdMap.emplace, hnone]
    rfl
  refine ⟨h.filters, h.periodics.emplace, fun id f hid => (h.filter id f hid).imp_left fun _ => by omega,
    fun id p hp => ?_, fun hc => absurd hc hchannel, h.flow, ?_⟩
  · rw [IdMap.lookup_emplace, hnone, Option.getD_none] at hp
    split at hp
    · next hid =>
        cases hp
        rw [hid, UInt32.toNat_ofNat', Nat.mod_eq_of_lt (by omega)]
        exact ⟨by omega, hh⟩
    · exact (h.periodic id p hp).imp_left fun _ => by omega
  · change (d.periodics.emplace (UInt32.ofNat n) handle).length ≤ 10
    rw [hmap, List.length_append, List.length_singleton]
    omega

/-- Fewer filters. -/
theorem filter_filters (h : d.Maps n) (hchannel : d.channel ≠ 0) (p : UInt32 × Filter → Bool)
    (hp : ∀ id f, List.lookup id (d.filters.filter p) = some f → d.filters.lookup id = some f) :
    ({ d with filters := d.filters.filter p } : Device).Maps n :=
  ⟨h.filters.filter p, h.periodics, fun id f hid => h.filter id f (hp id f hid), h.periodic,
    fun hc => absurd hc hchannel, Nat.le_trans List.filter_sublist.countP_le h.flow, h.few⟩

theorem erase_periodic (h : d.Maps n) (hchannel : d.channel ≠ 0) (id : UInt32) :
    ({ d with periodics := d.periodics.erase id } : Device).Maps n := by
  refine ⟨h.filters, h.periodics.erase, h.filter, fun k p hid => ?_, fun hc => absurd hc hchannel,
    h.flow, Nat.le_trans (List.length_filter_le _ _) h.few⟩
  rw [IdMap.lookup_erase] at hid
  split at hid
  · cases hid
  · exact h.periodic k p hid

end Device.Maps

end Mongoose
