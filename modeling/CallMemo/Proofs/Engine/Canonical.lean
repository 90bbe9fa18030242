import CallMemo.Proofs.Engine.Restoring
import CallMemo.Proofs.Engine.Survey

/-!
# Canonical exports

An export sorts what it finds in two hash maps, the sites by identity and the entries of each site
by fingerprint. So it does not depend on the order in which the maps are walked. It lists each entry
that may be served from the cache once, under the fingerprint that the codec gives to its inputs,
and it is no longer than the bounds allow.
-/

namespace CallMemo

namespace Engine

variable {e : Engine}

/-- An export holds as many entries of a site as the cache, or none. -/
theorem count_exportSnapshot_le (e : Engine) (t : SiteId) :
    (e.exportSnapshot.entries.map (·.site)).count t ≤ e.cache.entryCount t := by
  let own := e.exportSnapshot.entries.filter fun s => s.site = t
  have hcount : (e.exportSnapshot.entries.map (·.site)).count t =
      (own.map SnapshotEntry.fingerprint).length := by
    rw [SnapshotEntry.count_map_site, List.length_map]
  have hdistinct : (own.map SnapshotEntry.fingerprint).Nodup := by
    refine List.pairwise_map.mpr
      (((pairwise_exportSnapshot e).filter _).imp_of_mem fun {s s'} hs hs' hlt hfp => ?_)
    have hsite : s.site = t := of_decide_eq_true (List.mem_filter.mp hs).2
    have hsite' : s'.site = t := of_decide_eq_true (List.mem_filter.mp hs').2
    exact hlt.context_ne (Prod.ext (hsite.trans hsite'.symm) hfp)
  have hkeys : own.map SnapshotEntry.fingerprint ⊆ (e.cache.shard t).keys := by
    intro g hg
    obtain ⟨s, hs, rfl⟩ := List.mem_map.mp hg
    obtain ⟨hs, hsite⟩ := List.mem_filter.mp hs
    obtain ⟨-, x, hx, -⟩ := mem_exportSnapshot_iff.mp hs
    rw [of_decide_eq_true hsite] at hx
    exact Std.ExtTreeMap.mem_keys.mpr (Cache.mem_shard_of_peek? hx)
  rw [hcount, Cache.entryCount, ← Std.ExtTreeMap.length_keys]
  exact (List.subperm_of_subset hdistinct hkeys).length_le

/-- An export is no longer than the cache is large. -/
theorem length_exportSnapshot_le (e : Engine) :
    e.exportSnapshot.entries.length ≤ e.cache.size := by
  let l := e.exportSnapshot.entries.map (·.site)
  calc e.exportSnapshot.entries.length
      = ∑ t ∈ l.toFinset, l.count t := by rw [List.sum_toFinset_count_eq_length, List.length_map]
    _ ≤ ∑ t ∈ l.toFinset, e.cache.entryCount t :=
        Finset.sum_le_sum fun t _ => count_exportSnapshot_le e t
    _ ≤ e.cache.size := e.cache.sum_entryCount_le_size _

/-- What an export of the engine has to be. -/
structure Canonical (e : Engine) (l : List SnapshotEntry) : Prop where
  /-- The entries of the sites that may be served from the cache are listed as they are cached, and
  nothing else. -/
  mem_iff : ∀ s, s ∈ l ↔ e.Memoizable s.site ∧
    ∃ x, e.cache.peek? s.site s.fingerprint = some x ∧ s = .ofEntry s.site s.fingerprint x
  /-- They are in ascending order and each one is listed once. -/
  pairwise : l.Pairwise SnapshotEntry.Precedes
  /-- The inputs are as many as the site has slots, and the fingerprint is theirs. -/
  belongs : ∀ s ∈ l, e.Belongs s.site s.fingerprint s.inputs

theorem WellFiled.canonical (he : WellFiled e) : Canonical e e.exportSnapshot.entries where
  mem_iff _ := mem_exportSnapshot_iff
  pairwise := pairwise_exportSnapshot e
  belongs s hs := by
    obtain ⟨-, x, hx, hentry⟩ := mem_exportSnapshot_iff.mp hs
    rw [hentry]
    refine he s.site s.fingerprint x.toHit ?_
    rw [Cache.recorded?, hx]
    rfl

end Engine

namespace Session

open Engine

/-- In every session an export comes out the same in whatever order the hash maps are walked. It
lists exactly the entries that may be served from the cache, once each, in ascending order and as
they were filed. Under a policy that names entries of the shards it is no longer than the bounds per
site and in all allow. -/
theorem exportSnapshot_canonical {σ ε : Type} (config : Config) (codec : Codec)
    (policy : EvictionPolicy) (world : σ) (ops : List (Op SiteId σ ε)) :
    let e := (run .own ⟨fresh config codec policy, world⟩ ops).engine
    let entries := e.exportSnapshot.entries
    (∀ o : Survey e, o.exportSnapshot = e.exportSnapshot) ∧ Canonical e entries ∧
      (policy.NamesMembers →
        (∀ t, (entries.map (·.site)).count t ≤ config.maxEntriesPerSite.toNat) ∧
          entries.length ≤ config.maxTotalEntries.toNat) := by
  intro e entries
  have he : WellFiled e := wellFiled_run (wellFiled_fresh config codec policy) ops
  refine ⟨Survey.exportSnapshot_eq, he.canonical, fun hp => ?_⟩
  obtain ⟨haccounts, hlimits⟩ : e.cache.Accounted ∧ e.cache.limits = config.limits :=
    accounted_run hp world ops
  have htotal := UInt64.le_iff_toNat_le.mp haccounts.total_le
  rw [haccounts.total_eq, hlimits] at htotal
  refine ⟨fun t => ?_, (length_exportSnapshot_le e).trans htotal⟩
  have hsite := haccounts.entryCount_le t
  rw [hlimits] at hsite
  exact (count_exportSnapshot_le e t).trans hsite

/-- Two entries of a site and one of another site are exported in ascending order, also if all walks
go the other way. -/
theorem exportSnapshot_canonical_filled :
    let e := (run .own ⟨fresh {} .byFirst .leastRecentlyUsed, ()⟩ filled).engine
    EvictionPolicy.leastRecentlyUsed.NamesMembers ∧
    (Survey.descending e).exportSnapshot.entries = kept ∧ kept.length ≤ 65536 := by
  have hp := EvictionPolicy.leastRecentlyUsed_namesMembers
  intro e
  obtain ⟨hsame, -, hbounds⟩ :=
    exportSnapshot_canonical {} .byFirst .leastRecentlyUsed () filled
  have hkept : e.exportSnapshot.entries = kept := rfl
  refine ⟨hp, (congrArg Snapshot.entries (hsame (.descending e))).trans hkept, ?_⟩
  have hlength := (hbounds hp).2
  change e.exportSnapshot.entries.length ≤ _ at hlength
  rwa [hkept] at hlength

end Session

end CallMemo
