import CallMemo.Cache.Policies
import CallMemo.Proofs.Cache.Effect

/-!
# Refused insertions

A policy may spare entries and decline to name a victim. Whatever it does, an entry that gives way
is the only one that goes. An insertion that is refused has taken nothing away, except where the
site is full and the policy spares all its entries: then the attempts take the victims of other
sites, one after another, before the insertion is given up.
-/

namespace CallMemo

namespace EvictionPolicy

/-- Sparing entries does not make a policy name others than before. -/
theorem NamesMembers.sparing {p : EvictionPolicy} (h : p.NamesMembers)
    (spared : Fingerprint → Bool) : (p.sparing spared).NamesMembers := by
  intro sh fp named
  have hmem : fp ∈ sh.filter fun g _ => !spared g := h _ _ named
  exact Std.ExtTreeMap.mem_of_mem_filter hmem

end EvictionPolicy

namespace Cache

/-- What a refused insertion for site `s` leaves of a cache: all but the contexts in `lost`. -/
structure Refusal (c : Cache) (s : SiteId) (lost : List Context) (c' : Cache) : Prop where
  /-- No context is lost twice. -/
  nodup : lost.Nodup
  /-- No attempt costs more than one entry. -/
  length_le : lost.length ≤ attempts
  /-- What is lost was there and belonged to other sites. -/
  foreign : ∀ x ∈ lost, x.1 ≠ s ∧ c.contains x.1 x.2 = true
  /-- Nothing is lost exactly if the site is not full or no other site has a victim. -/
  eq_nil_iff : lost = [] ↔ c.entryCount s < c.limits.perSite.toNat ∨
    ∀ t, t ≠ s → c.policy.victim? (c.shard t) = none
  /-- All other entries are what they were. -/
  peek?_eq : ∀ t g, c'.peek? t g = if (t, g) ∈ lost then none else c.peek? t g
  /-- What is lost is no longer counted. -/
  total_eq : c'.total.toNat + lost.length = c.total.toNat

variable {c c' : Cache} {s t : SiteId} {f v : Fingerprint} {e : Entry} {o : InsertOutcome}
  {lost : List Context}

/-- A refused insertion loses what its attempts have reclaimed. -/
theorem Inserting.exists_refusal (h : Inserting s f e c c' .skipped) (hp : c.policy.NamesMembers) :
    ∃ lost, Refusal c s lost c' := by
  cases h with
  | @skipped lost absent refuses peek?_eq total_eq =>
    refine ⟨lost, ?_⟩
    cases refuses with
    | full full unnamed =>
      constructor
      case nodup => exact nodup_reclaims hp
      case length_le => exact length_reclaims_le
      case foreign =>
        intro x hx
        obtain ⟨hne, hmem⟩ := of_mem_reclaims hp hx
        exact ⟨hne, Std.ExtTreeMap.contains_iff_mem.mpr hmem⟩
      case eq_nil_iff =>
        rw [attempts, reclaims_eq_nil_iff hp]
        exact ⟨.inr, fun hk => hk.resolve_left (Nat.not_lt.mpr full)⟩
      case peek?_eq => exact peek?_eq
      case total_eq => exact total_eq
    | crowded room crowded unnamed =>
      constructor
      case nodup => exact List.nodup_nil
      case length_le => exact Nat.zero_le _
      case foreign => simp
      case eq_nil_iff => exact iff_of_true rfl (.inl room)
      case peek?_eq => exact peek?_eq
      case total_eq => exact total_eq

/-- A refusal leaves everything as it was exactly if nothing is lost. -/
theorem Refusal.intact_iff (h : Refusal c s lost c') :
    ((∀ t g, c'.peek? t g = c.peek? t g) ∧ c'.total = c.total) ↔ lost = [] := by
  constructor
  · rintro ⟨-, htotal⟩
    have hcount := h.total_eq
    rw [htotal] at hcount
    exact List.eq_nil_of_length_eq_zero (by omega)
  · rintro rfl
    refine ⟨fun t g => by simpa using h.peek?_eq t g, ?_⟩
    rw [← UInt64.toNat_inj]
    simpa using h.total_eq

/-- What an insertion for site `s` takes away from a cache. -/
structure Losses (c : Cache) (s : SiteId) (i : Insertion) : Prop where
  /-- An entry that gives way is the only one that goes. -/
  of_evicted : ∀ t v, i.outcome = .evicted t v → ∀ u g,
    c.contains u g = true ∧ i.cache.contains u g = false ↔ (u, g) = (t, v)
  /-- A refused insertion loses at most one entry of another site for each attempt. -/
  of_skipped : i.outcome = .skipped → ∃ lost, Refusal c s lost i.cache
  /-- A refused insertion leaves all entries and the counter as they were exactly if the site is not
  full or no other site has a victim. -/
  intact_iff : i.outcome = .skipped →
    (((∀ t g, i.cache.peek? t g = c.peek? t g) ∧ i.cache.total = c.total) ↔
      c.entryCount s < c.limits.perSite.toNat ∨ ∀ t, t ≠ s → c.policy.victim? (c.shard t) = none)

/-- However an insertion ends, it loses no more than its way says. -/
theorem Inserting.losses {i : Insertion} (h : Inserting s f e c i.cache i.outcome)
    (hp : c.policy.NamesMembers) : Losses c s i := by
  constructor
  case of_evicted =>
    intro t v evicted
    rw [evicted] at h
    exact h.removed_iff hp
  case of_skipped =>
    intro skipped
    rw [skipped] at h
    exact h.exists_refusal hp
  case intact_iff =>
    intro skipped
    rw [skipped] at h
    obtain ⟨lost, hlost⟩ := h.exists_refusal hp
    rw [hlost.intact_iff, hlost.eq_nil_iff]

/-- In every cache that calls can lead to, and under every policy that names entries of the shard or
declines, an insertion takes away the one entry that gives way; if it is refused, it takes nothing
away exactly if its site is not full or no other site has a victim. -/
theorem insertion_losses (limits : Limits) (policy : EvictionPolicy) (hp : policy.NamesMembers)
    (ops : List Op) (s : SiteId) (f : Fingerprint) (raw : List UInt64) (post : PostState)
    (hits : UInt64) :
    let c := run { limits, policy } ops
    Losses c s (c.insert s f raw post) ∧ Losses c s (c.insertCold s f raw post hits) := by
  intro c
  have hc : Accounted c := ((accounted_empty limits policy).run hp ops).1
  have hpolicy : c.policy.NamesMembers := (run_settings (c := { limits, policy }) ops).2 ▸ hp
  exact ⟨(hc.inserting_insert hpolicy raw post).losses hpolicy,
    (hc.inserting_insertCold hpolicy raw post hits).losses hpolicy⟩

/-- A policy that spares the low fingerprints. -/
def pinning : EvictionPolicy := .sparing (·.val < 100) .leastRecentlyUsed

/-- The pinning policy names entries of the shard. -/
theorem pinning_namesMembers : pinning.NamesMembers :=
  EvictionPolicy.leastRecentlyUsed_namesMembers.sparing _

/-- The only place of site 1 is taken by an entry that is spared. -/
def pinned : List Op :=
  [.insert ⟨2⟩ ⟨200⟩ [200] { nextPc := 200 }, .insert ⟨1⟩ ⟨5⟩ [5] { nextPc := 5 }]

/-- An insertion that is refused costs another site an entry. -/
theorem insertion_losses_pinned :
    let c := run { limits := ⟨1, 8⟩, policy := pinning } pinned
    let i := c.insert ⟨1⟩ ⟨6⟩ [6] { nextPc := 6 }
    let j := c.insertCold ⟨1⟩ ⟨6⟩ [6] { nextPc := 6 } 9
    pinning.NamesMembers ∧ i.outcome = .skipped ∧ Losses c ⟨1⟩ i ∧ Losses c ⟨1⟩ j := by
  refine ⟨pinning_namesMembers, by decide +kernel, ?_⟩
  exact insertion_losses ⟨1, 8⟩ pinning pinning_namesMembers pinned ⟨1⟩ ⟨6⟩ [6] { nextPc := 6 } 9

/-- An insertion is refused and yet an entry of another site is gone. -/
theorem refused_insertion_loses_entry :
    let c := run { limits := ⟨1, 8⟩, policy := pinning } pinned
    let i := c.insert ⟨1⟩ ⟨6⟩ [6] { nextPc := 6 }
    pinning.NamesMembers ∧ i.outcome = .skipped ∧
      c.contains ⟨2⟩ ⟨200⟩ = true ∧ i.cache.contains ⟨2⟩ ⟨200⟩ = false ∧
      c.total = 2 ∧ i.cache.total = 1 :=
  ⟨pinning_namesMembers, by decide +kernel, by decide +kernel, by decide +kernel,
    by decide +kernel, by decide +kernel⟩

end Cache

end CallMemo
