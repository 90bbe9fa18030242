import CallMemo.Proofs.Cache.Accounting
import CallMemo.Proofs.Engine.Filing

/-!
# What an export holds

An export lists the entries of the sites that may be served from the cache, in ascending order of
their sites and fingerprints and each one once. So two engines that export the same entries export
the same snapshot.
-/

namespace CallMemo

namespace SnapshotEntry

variable {s : SnapshotEntry} {t : SiteId} {g : Fingerprint} {x : Entry}

/-- The fingerprint that the writer gave to the inputs. -/
def fingerprint (s : SnapshotEntry) : Fingerprint := ⟨s.ctxHash⟩

/-- The order of an export: by site, then by fingerprint. -/
def Precedes (s s' : SnapshotEntry) : Prop :=
  s.site.val < s'.site.val ∨ s.site = s'.site ∧ s.ctxHash < s'.ctxHash

instance : Std.Irrefl Precedes where
  irrefl s h := by
    rcases h with h | ⟨-, h⟩ <;> exact UInt64.lt_irrefl _ h

instance : Std.Antisymm Precedes where
  antisymm s s' h h' := by
    unfold Precedes at h h'
    grind

/-- The calling context of an entry. -/
def context (s : SnapshotEntry) : SiteId × Fingerprint := (s.site, s.fingerprint)

/-- Of two entries in order the contexts are different. -/
theorem Precedes.context_ne {s s' : SnapshotEntry} (h : s.Precedes s') :
    s.context ≠ s'.context := by
  intro heq
  obtain ⟨hsite, hfp⟩ := Prod.mk.inj heq
  rcases h with h | ⟨-, h⟩
  · exact UInt64.lt_irrefl _ (hsite ▸ h)
  · rw [show s.ctxHash = s'.ctxHash from congrArg Fingerprint.val hfp] at h
    exact UInt64.lt_irrefl _ h

/-- A site stands in the list as often as an entry of it. -/
theorem count_map_site {l : List SnapshotEntry} :
    (l.map (·.site)).count t = (l.filter fun s => s.site = t).length := by
  rw [← List.countP_eq_length_filter, List.count, List.countP_map]
  exact List.countP_congr fun s _ => by simp

end SnapshotEntry

/-- The entries of a site are listed by ascending fingerprint. -/
theorem Cache.pairwise_entries (c : Cache) (t : SiteId) :
    (c.entries t).Pairwise fun a b => a.1.val < b.1.val :=
  (Std.ExtTreeMap.ordered_keys_toList (t := c.shard t)).imp fun {a b} h =>
    Std.compare_eq_lt.mp (show compare a.1.val b.1.val = .lt from h)

namespace Engine

variable {e e' : Engine} {site : CallSite} {s : SnapshotEntry} {t : SiteId}

/-- The site is registered and may be served from the cache. -/
def Memoizable (e : Engine) (t : SiteId) : Prop :=
  ∃ r, e.sites[t]? = some r ∧ r.isMemoizable = true

/-- The list holds the handles that the registry gives out. -/
theorem mem_callSites_iff : site ∈ e.callSites ↔ e.callSite? site.id = some site := by
  simp only [callSites, callSite?, List.mem_map, Prod.exists,
    Std.ExtTreeMap.mem_toList_iff_getElem?_eq_some, Option.map_eq_some_iff]
  constructor
  · rintro ⟨id, r, hr, rfl⟩
    exact ⟨r, hr, rfl⟩
  · rintro ⟨r, hr, hsite⟩
    exact ⟨site.id, r, hr, hsite⟩

/-- Call sites are listed in ascending order. -/
theorem pairwise_callSites (e : Engine) : e.callSites.Pairwise fun a b => a.id.val < b.id.val := by
  rw [callSites, List.pairwise_map]
  refine (Std.ExtTreeMap.ordered_keys_toList (t := e.sites)).imp fun {a b} h => ?_
  exact Std.compare_eq_lt.mp (show compare a.1.val b.1.val = .lt from h)

/-- A site may be served from the cache if its handle shows so. -/
theorem memoizable_iff : e.Memoizable t ↔ ∃ site, site.id = t ∧ site ∈ e.callSites ∧
    site.isMemoizable = true := by
  constructor
  · rintro ⟨r, hr, hm⟩
    exact ⟨{ r with id := t }, rfl, mem_callSites_iff.mpr (by rw [callSite?, hr]; rfl), hm⟩
  · rintro ⟨site, rfl, hsite, hm⟩
    exact ⟨_, (registered_of_callSite? (mem_callSites_iff.mp hsite)).2, hm⟩

/-- An export holds exactly the entries of the sites that may be served from the cache. -/
theorem mem_exportSnapshot_iff :
    s ∈ e.exportSnapshot.entries ↔ e.Memoizable s.site ∧
      ∃ x, e.cache.peek? s.site s.fingerprint = some x ∧ s = .ofEntry s.site s.fingerprint x := by
  simp only [exportSnapshot, Cache.entries, List.mem_flatMap, List.mem_filter, List.mem_map,
    Prod.exists, Std.ExtTreeMap.mem_toList_iff_getElem?_eq_some, memoizable_iff]
  constructor
  · rintro ⟨site, ⟨hsite, hm⟩, g, x, hx, rfl⟩
    exact ⟨⟨site, rfl, hsite, hm⟩, x, hx, rfl⟩
  · rintro ⟨⟨site, hid, hsite, hm⟩, x, hx, hs⟩
    exact ⟨site, ⟨hsite, hm⟩, s.fingerprint, x, hid ▸ hx, by rw [hid, ← hs]⟩

/-- An export is in ascending order. -/
theorem pairwise_exportSnapshot (e : Engine) :
    e.exportSnapshot.entries.Pairwise SnapshotEntry.Precedes := by
  rw [exportSnapshot, List.pairwise_flatMap]
  refine ⟨fun site _ => ?_, ((pairwise_callSites e).filter _).imp fun {a b} hlt s hs s' hs' => ?_⟩
  · exact List.pairwise_map.mpr ((e.cache.pairwise_entries site.id).imp fun h => .inr ⟨rfl, h⟩)
  · obtain ⟨p, -, rfl⟩ := List.mem_map.mp hs
    obtain ⟨p', -, rfl⟩ := List.mem_map.mp hs'
    exact .inl hlt

/-- An export holds no calling context twice. -/
theorem nodup_context_exportSnapshot (e : Engine) :
    (e.exportSnapshot.entries.map SnapshotEntry.context).Nodup :=
  List.pairwise_map.mpr ((pairwise_exportSnapshot e).imp SnapshotEntry.Precedes.context_ne)

/-- Engines that export the same entries export the same snapshot. -/
theorem exportSnapshot_eq
    (h : ∀ s, s ∈ e'.exportSnapshot.entries ↔ s ∈ e.exportSnapshot.entries) :
    e'.exportSnapshot = e.exportSnapshot :=
  congrArg Snapshot.mk
    ((pairwise_exportSnapshot e').eq_of_mem_iff (pairwise_exportSnapshot e) h)

end Engine

end CallMemo
