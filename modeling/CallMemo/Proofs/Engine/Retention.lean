import CallMemo.Proofs.Cache.Stocking
import CallMemo.Proofs.Engine.Admission

/-!
# Retention

A new engine takes a snapshot in under the default policy. As long as the sites together need no
more places than there are, every site keeps what it would keep alone: all its entries if there is
room for them, and otherwise the last one and the most used ones of those before it.
-/

namespace CallMemo

namespace SnapshotEntry

variable {codec : Codec} {s s' : SnapshotEntry}

/-- The fingerprint that a codec gives to the entry. -/
def rehashed (codec : Codec) (s : SnapshotEntry) : Fingerprint := codec.encode s.site s.inputs

/-- What the entry becomes in a cache. -/
def filed (codec : Codec) (s : SnapshotEntry) : Fingerprint × Entry :=
  (s.rehashed codec, s.restored)

/-- The entry has fewer uses than another one, or as many and the lower fingerprint. -/
def Trails (codec : Codec) (s s' : SnapshotEntry) : Prop :=
  s.hits < s'.hits ∨ s.hits = s'.hits ∧ (s.rehashed codec).val < (s'.rehashed codec).val

instance : Decidable (s.Trails codec s') := inferInstanceAs (Decidable (_ ∨ _))

/-- Restored entries rank by uses and fingerprint. -/
theorem rank_filed_lt_iff :
    Rank.ofEntry (s.filed codec) < Rank.ofEntry (s'.filed codec) ↔ s.Trails codec s' := by
  simp [Rank.ofEntry, filed, restored, Entry.recency, Usage.cold, Rank.lt_iff, Priority.lt_iff,
    Trails]

end SnapshotEntry

namespace Engine

open SnapshotEntry

variable {e start : Engine} {s : SnapshotEntry} {l l' done : List SnapshotEntry} {t : SiteId}
  {n : Nat}

/-- Whether the site of an entry is registered and has as many slots as the entry has inputs. -/
def fits (e : Engine) (s : SnapshotEntry) : Bool :=
  e.sites[s.site]?.any fun r => s.inputs.length = r.readSet.width

/-- The entries that fit a site, in order. -/
def fitting (e : Engine) (l : List SnapshotEntry) (t : SiteId) : List SnapshotEntry :=
  (l.filter e.fits).filter fun s => s.site = t

/-- The number of places that the sites need if each of them may have `k`. -/
def demand (e : Engine) (k : Nat) (l : List SnapshotEntry) : Nat :=
  (e.sites.keys.map fun t => min k (e.fitting l t).length).sum

/-- Of an engine without demoted sites all that fits is admitted. -/
theorem admits_eq_fits (hnone : ∀ t, ¬ e.Demoted t) : e.admits = e.fits := by
  funext s
  cases hr : e.sites[s.site]? with
  | none => simp [admits, fits, hr]
  | some r =>
    have hm : r.isMemoizable = true := by
      by_contra hm
      exact hnone s.site ⟨r, hr, Bool.eq_false_iff.mpr hm⟩
    simp [admits, fits, hr, hm]

/-- What fits a site is found part by part. -/
theorem fitting_append : e.fitting (l ++ l') t = e.fitting l t ++ e.fitting l' t := by
  simp [fitting]

theorem fitting_singleton (hs : e.fits s = true) :
    e.fitting [s] t = if s.site = t then [s] else [] := by
  by_cases hsite : s.site = t <;> simp [fitting, hs, hsite]

/-- Entries fit registered sites only. -/
theorem mem_keys_of_fits (hs : e.fits s = true) : s.site ∈ e.sites.keys := by
  rw [Std.ExtTreeMap.mem_keys, Std.ExtTreeMap.mem_iff_isSome_getElem?]
  cases hr : e.sites[s.site]? with
  | none => simp [fits, hr] at hs
  | some r => rfl

theorem fitting_eq_nil (ht : t ∉ e.sites.keys) : e.fitting l t = [] := by
  refine List.filter_eq_nil_iff.mpr fun s hs hsite => ht ?_
  rw [← of_decide_eq_true hsite]
  exact mem_keys_of_fits (List.mem_filter.mp hs).2

/-- The demand is a sum over the registered sites. -/
theorem demand_eq_sum {k : Nat} :
    e.demand k l = ∑ t ∈ e.sites.keys.toFinset, min k (e.fitting l t).length :=
  (List.sum_toFinset _ Std.ExtTreeMap.nodup_keys).symm

/-- More offers fit at least as often. -/
theorem length_fitting_le : (e.fitting l t).length ≤ (e.fitting (l ++ l') t).length := by
  rw [fitting_append, List.length_append]
  exact Nat.le_add_right _ _

theorem demand_le_append {k : Nat} : e.demand k l ≤ e.demand k (l ++ l') := by
  rw [demand_eq_sum, demand_eq_sum]
  exact Finset.sum_le_sum fun t _ => min_le_min_left k length_fitting_le

/-- An entry for a site that does not have all its places needs one more. -/
theorem demand_lt_concat {k : Nat} (hs : e.fits s = true)
    (hlt : (e.fitting l s.site).length < k) : e.demand k l < e.demand k (l ++ [s]) := by
  rw [demand_eq_sum, demand_eq_sum]
  refine Finset.sum_lt_sum (fun t _ => min_le_min_left k length_fitting_le)
    ⟨s.site, List.mem_toFinset.mpr (mem_keys_of_fits hs), ?_⟩
  rw [fitting_append, fitting_singleton hs, if_pos rfl, List.length_append, List.length_singleton]
  omega

/-- Every entry that fits does so at one site. -/
theorem countP_fits_eq_sum :
    l.countP e.fits = ∑ t ∈ e.sites.keys.toFinset, (e.fitting l t).length := by
  let sites := (l.filter e.fits).map (·.site)
  have hcount (t : SiteId) : sites.count t = (e.fitting l t).length := count_map_site
  have hsub : sites.toFinset ⊆ e.sites.keys.toFinset := by
    intro t ht
    obtain ⟨s, hs, rfl⟩ := List.mem_map.mp (List.mem_toFinset.mp ht)
    exact List.mem_toFinset.mpr (mem_keys_of_fits (List.mem_filter.mp hs).2)
  calc l.countP e.fits
      = ∑ t ∈ sites.toFinset, sites.count t := by
        rw [List.sum_toFinset_count_eq_length, List.length_map, List.countP_eq_length_filter]
    _ = ∑ t ∈ e.sites.keys.toFinset, sites.count t :=
        Finset.sum_subset hsub fun t _ ht =>
          List.count_eq_zero.mpr fun hmem => ht (List.mem_toFinset.mpr hmem)
    _ = ∑ t ∈ e.sites.keys.toFinset, (e.fitting l t).length :=
        Finset.sum_congr rfl fun t _ => hcount t

/-- There are places for what the sites need, and no site has a fingerprint twice. -/
structure Ample (e : Engine) (k : Nat) (l : List SnapshotEntry) : Prop where
  /-- The fingerprints of a site are distinct. -/
  distinct : ∀ t, ((e.fitting l t).map (rehashed e.codec)).Nodup
  /-- The places suffice. -/
  demand_le : e.demand k l ≤ e.cache.limits.total.toNat

/-- Places for all entries are places for the first ones. -/
theorem Ample.of_append {k : Nat} (h : Ample e k (l ++ l')) : Ample e k l where
  distinct t := by
    have hd := h.distinct t
    rw [fitting_append] at hd
    exact hd.sublist ((List.sublist_append_left _ _).map _)
  demand_le := demand_le_append.trans h.demand_le

/-- What a site has been given. -/
def stock (e : Engine) (l : List SnapshotEntry) (t : SiteId) : List (Fingerprint × Entry) :=
  (e.fitting l t).map (filed e.codec)

/-- A further entry is given to its own site. -/
theorem stock_concat (hs : e.fits s = true) :
    e.stock (l ++ [s]) t = e.stock l t ++ if s.site = t then [s.filed e.codec] else [] := by
  rw [stock, fitting_append, fitting_singleton hs, List.map_append, stock]
  split <;> rfl

/-- No site is given a fingerprint twice. -/
theorem Ample.nodup_stock {k : Nat} (h : Ample e k l) (t : SiteId) :
    ((e.stock l t).map Prod.fst).Nodup := by
  rw [stock, List.map_map]
  exact h.distinct t

/-- The engine `e` has been loaded with the entries `done`, and every site has kept what it would
keep alone with `n + 1` places. -/
structure Stocked (start : Engine) (n : Nat) (done : List SnapshotEntry) (e : Engine) : Prop where
  /-- The sites are those of the start. -/
  sites_eq : e.sites = start.sites
  /-- The codec is that of the start. -/
  codec_eq : e.codec = start.codec
  /-- The bounds are those of the start. -/
  limits_eq : e.cache.limits = start.cache.limits
  /-- The policy is the default one. -/
  policy_eq : e.cache.policy = .leastRecentlyUsed
  /-- The accounts are right. -/
  accounted : e.cache.Accounted
  /-- Each shard was stocked with the entries that fit its site. -/
  shard_eq : ∀ t, e.cache.shard t = Shard.stocked (n + 1) (start.stock done t)
  /-- Every entry that fits is in the cache or has made another one give way. -/
  evictions_add : e.metrics.evictions + e.cache.total = .ofNat (done.countP start.fits)

/-- A site has as many entries as it was given, up to its bound. -/
theorem Stocked.entryCount_eq (h : Stocked start n done e) (ample : Ample start (n + 1) done)
    (t : SiteId) : e.cache.entryCount t = min (n + 1) (start.fitting done t).length := by
  rw [Cache.entryCount, h.shard_eq, Shard.size_stocked (ample.nodup_stock t), stock,
    List.length_map]

/-- The cache is as large as the demand. -/
theorem Stocked.size_eq (h : Stocked start n done e) (ample : Ample start (n + 1) done) :
    e.cache.size = start.demand (n + 1) done := by
  have hnone : ∀ t ∉ start.sites.keys.toFinset, e.cache.entryCount t = 0 := fun t ht => by
    rw [h.entryCount_eq ample, fitting_eq_nil fun hmem => ht (List.mem_toFinset.mpr hmem)]
    simp
  rw [Cache.size_eq_sum_of_support hnone, demand_eq_sum]
  exact Finset.sum_congr rfl fun t _ => h.entryCount_eq ample t

/-- A site that is not full finds a free place. -/
theorem Stocked.spare (h : Stocked start n done e) (ample : Ample start (n + 1) (done ++ [s]))
    (hs : start.fits s = true) (hlt : e.cache.entryCount s.site < n + 1) :
    e.cache.total ≠ e.cache.limits.total := by
  intro crowded
  rw [h.entryCount_eq ample.of_append] at hlt
  have hmore : start.demand (n + 1) done < start.demand (n + 1) (done ++ [s]) :=
    demand_lt_concat hs (by omega)
  have hdemand := ample.demand_le
  rw [← h.limits_eq, ← crowded, h.accounted.total_eq, h.size_eq ample.of_append] at hdemand
  omega

/-- No entry comes under a fingerprint that its site already has. -/
theorem Stocked.absent (h : Stocked start n done e) (ample : Ample start (n + 1) (done ++ [s]))
    (hs : start.fits s = true) : s.rehashed start.codec ∉ e.cache.shard s.site := by
  intro hmem
  obtain ⟨x, hx⟩ := Option.isSome_iff_exists.mp (Std.ExtTreeMap.mem_iff_isSome_getElem?.mp hmem)
  rw [h.shard_eq] at hx
  have hdistinct := ample.nodup_stock s.site
  rw [stock_concat hs, if_pos rfl] at hdistinct
  exact not_mem_of_concat hdistinct
    (List.mem_map.mpr ⟨_, Shard.mem_of_getElem?_stocked hx, rfl⟩)

/-- An entry that fits is given to its site, and in place of another one if the site is full. -/
theorem Stocked.load_of_fits (h : Stocked start n done e)
    (hk : start.cache.limits.perSite.toNat = n + 1)
    (ample : Ample start (n + 1) (done ++ [s])) (hs : start.fits s = true)
    (hadmits : e.admits s = true) :
    (∀ t, (e.load s).engine.cache.shard t =
      if s.site = t then
        (Shard.relieved (n + 1) (e.cache.shard s.site)).insert (s.rehashed start.codec) s.restored
      else e.cache.shard t) ∧
    (e.load s).engine.metrics.evictions + (e.load s).engine.cache.total =
      e.metrics.evictions + e.cache.total + 1 := by
  have hl := load_loads e s
  generalize (e.load s).engine = e', (e.load s).accepted = accepted at hl ⊢
  cases hl with
  | unfit misfit => cases hadmits.symm.trans (admits_eq_false misfit)
  | offered registered memoizable width =>
    rw [← h.limits_eq] at hk
    have hp : e.cache.policy.NamesMembers :=
      h.policy_eq ▸ EvictionPolicy.leastRecentlyUsed_namesMembers
    have habsent := h.absent ample hs
    rw [rehashed, ← h.codec_eq] at habsent ⊢
    have hstocking := (h.accounted.inserting_insertCold hp s.inputs s.post s.hits).stocking
      h.policy_eq habsent (by omega) fun hlt => h.spare ample hs (hk ▸ hlt)
    generalize e.cache.insertCold s.site _ s.inputs s.post s.hits = i at hstocking ⊢
    constructor
    · rw [cache_countInsertion, ← hk]
      exact hstocking.shard_eq
    · rw [cache_countInsertion, countInsertion_eq, metrics_count]
      rcases hstocking.outcome with ⟨inserted, total⟩ | ⟨⟨v, evicted⟩, total⟩
      · rw [inserted, total]
        exact (UInt64.add_assoc _ _ _).symm
      · rw [evicted, total]
        exact add_right_comm e.metrics.evictions 1 e.cache.total

/-- The next entry that fits is taken in, and its site keeps the leading ones. -/
theorem Stocked.load (h : Stocked start n done e) (hnone : ∀ t, ¬ start.Demoted t)
    (hk : start.cache.limits.perSite.toNat = n + 1)
    (ample : Ample start (n + 1) (done ++ [s])) :
    Stocked start n (done ++ [s]) (e.load s).engine := by
  obtain ⟨calls, hcalls⟩ := cacheFollows_load e s
  obtain ⟨hlimits, hpolicy⟩ := Cache.run_settings (c := e.cache) calls
  have hp : e.cache.policy.NamesMembers :=
    h.policy_eq ▸ EvictionPolicy.leastRecentlyUsed_namesMembers
  have hadmits : e.admits s = start.fits s := by
    rw [← admits_eq_fits hnone, admits, h.sites_eq, admits]
  have hnext : (∀ t, (e.load s).engine.cache.shard t =
        Shard.stocked (n + 1) (start.stock (done ++ [s]) t)) ∧
      (e.load s).engine.metrics.evictions + (e.load s).engine.cache.total =
        .ofNat ((done ++ [s]).countP start.fits) := by
    cases hs : start.fits s with
    | false =>
      have hsame : ∀ t, start.stock (done ++ [s]) t = start.stock done t := fun t => by
        simp [stock, fitting, hs]
      rw [(load_of_not_admits (hadmits.trans hs)).1, List.countP_append]
      exact ⟨fun t => by rw [hsame, h.shard_eq], by simp [h.evictions_add, hs]⟩
    | true =>
      obtain ⟨hshard, hevictions⟩ := h.load_of_fits hk ample hs (hadmits.trans hs)
      constructor
      · intro t
        rw [hshard, stock_concat hs]
        split
        · next hsite =>
          subst hsite
          rw [Shard.stocked_concat, h.shard_eq]
          rfl
        · next hsite => rw [List.append_nil, h.shard_eq]
      · rw [hevictions, h.evictions_add, List.countP_append]
        simp [hs, UInt64.ofNat_add]
  exact {
    sites_eq := (sites_load e s).trans h.sites_eq
    codec_eq := (sameSettings_load e s).codec_eq.trans h.codec_eq
    limits_eq := by rw [hcalls, hlimits, h.limits_eq]
    policy_eq := by rw [hcalls, hpolicy, h.policy_eq]
    accounted := hcalls ▸ (h.accounted.run hp calls).1
    shard_eq := hnext.1
    evictions_add := hnext.2 }

/-- In a whole warm start every site keeps the leading ones of its own. -/
theorem Stocked.loadAll (h : Stocked start n done e) (hnone : ∀ t, ¬ start.Demoted t)
    (hk : start.cache.limits.perSite.toNat = n + 1) (ample : Ample start (n + 1) (done ++ l)) :
    Stocked start n (done ++ l) (e.loadAll l).engine := by
  induction l generalizing e done with
  | nil => simpa [Engine.loadAll] using h
  | cons s rest ih =>
    rw [List.append_cons] at ample ⊢
    exact ih (h.load hnone hk ample.of_append) ample

/-- What a site with `k` places keeps of the entries `l` that fit it. -/
structure Retained (codec : Codec) (k : Nat) (l : List SnapshotEntry) (c : Cache) (t : SiteId) :
    Prop where
  /-- As many as there are places for. -/
  entryCount_eq : c.entryCount t = min k l.length
  /-- All of them if there are enough places. -/
  all : l.length ≤ k → ∀ g x, c.peek? t g = some x ↔ ∃ s ∈ l, s.filed codec = (g, x)
  /-- Otherwise the last one, and the best `k - 1` of those before it. -/
  best : k < l.length → ∀ g x, c.peek? t g = some x ↔ ∃ s, s.filed codec = (g, x) ∧
    (l.getLast? = some s ∨
      s ∈ l.dropLast ∧ (l.dropLast.countP fun s' => s.Trails codec s') < k - 1)

/-- An entry leads if it trails fewer than `n` others. -/
theorem leads_filed_iff {codec : Codec} {p : Fingerprint × Entry} :
    Leads n (l.map (filed codec)) p ↔
      ∃ s, s.filed codec = p ∧ s ∈ l ∧ (l.countP fun s' => s.Trails codec s') < n := by
  have hcount (s : SnapshotEntry) : countAbove (l.map (filed codec)) (s.filed codec) =
      l.countP fun s' => s.Trails codec s' := by
    rw [countAbove, List.countP_map]
    exact List.countP_congr fun s' _ => by simp [rank_filed_lt_iff]
  constructor
  · rintro ⟨hp, hlt⟩
    obtain ⟨s, hs, rfl⟩ := List.mem_map.mp hp
    exact ⟨s, rfl, hs, hcount s ▸ hlt⟩
  · rintro ⟨s, rfl, hs, hlt⟩
    exact ⟨List.mem_map_of_mem hs, (hcount s).symm ▸ hlt⟩

/-- What a site has is its last entry and the leading ones before it. -/
theorem Stocked.peek?_iff (h : Stocked start n done e) (ample : Ample start (n + 1) done)
    (t : SiteId) (g : Fingerprint) (x : Entry) :
    e.cache.peek? t g = some x ↔ ∃ s, s.filed start.codec = (g, x) ∧
      ((start.fitting done t).getLast? = some s ∨ s ∈ (start.fitting done t).dropLast ∧
        ((start.fitting done t).dropLast.countP fun s' => s.Trails start.codec s') < n) := by
  have hdistinct := ample.nodup_stock t
  rw [Cache.peek?, h.shard_eq]
  rw [stock] at hdistinct ⊢
  rcases (start.fitting done t).eq_nil_or_concat' with hnil | ⟨init, last, hconcat⟩
  · simp [hnil, Shard.stocked]
  · rw [hconcat, List.map_append, List.map_singleton] at hdistinct ⊢
    rw [Shard.getElem?_stocked_concat hdistinct, leads_filed_iff, List.getLast?_concat,
      List.dropLast_concat]
    constructor
    · rintro (hlast | ⟨s, hs, hlead⟩)
      · exact ⟨last, hlast.symm, .inl rfl⟩
      · exact ⟨s, hs, .inr hlead⟩
    · rintro ⟨s, hs, hlast | hlead⟩
      · exact .inl (by rw [← hs, Option.some.inj hlast])
      · exact .inr ⟨s, hs, hlead⟩

/-- Every site retains what the law says. -/
theorem Stocked.retained (h : Stocked start n done e) (ample : Ample start (n + 1) done)
    (t : SiteId) : Retained start.codec (n + 1) (start.fitting done t) e.cache t where
  entryCount_eq := h.entryCount_eq ample t
  best _ := h.peek?_iff ample t
  all hlength g x := by
    rw [h.peek?_iff ample]
    generalize start.fitting done t = l at hlength ⊢
    constructor
    · rintro ⟨s, hs, hlast | ⟨hmem, -⟩⟩
      · exact ⟨s, List.mem_of_getLast? hlast, hs⟩
      · exact ⟨s, List.dropLast_subset l hmem, hs⟩
    · rintro ⟨s, hmem, hs⟩
      refine ⟨s, hs, ?_⟩
      rcases l.eq_nil_or_concat' with rfl | ⟨init, last, rfl⟩
      · cases hmem
      · rw [List.getLast?_concat, List.dropLast_concat]
        rcases List.mem_append.mp hmem with hinit | hlast
        · -- the entry does not trail itself, so it trails fewer than there are before the last
          have hlt : (init.countP fun s' => s.Trails start.codec s') < init.length :=
            List.countP_lt_length_iff.mpr ⟨s, hinit, by simp [Trails]⟩
          rw [List.length_append, List.length_singleton] at hlength
          exact .inr ⟨hinit, by omega⟩
        · exact .inl (congrArg some (List.mem_singleton.mp hlast).symm)

/-- What does not find a place of its own makes another entry give way. -/
theorem Stocked.evictions_eq (h : Stocked start n done e) (ample : Ample start (n + 1) done) :
    e.metrics.evictions =
      .ofNat (start.sites.keys.map fun t => (start.fitting done t).length - (n + 1)).sum := by
  have hover : (start.sites.keys.map fun t => (start.fitting done t).length - (n + 1)).sum =
      ∑ t ∈ start.sites.keys.toFinset, ((start.fitting done t).length - (n + 1)) :=
    (List.sum_toFinset _ Std.ExtTreeMap.nodup_keys).symm
  have hsplit : done.countP start.fits = start.demand (n + 1) done +
      ∑ t ∈ start.sites.keys.toFinset, ((start.fitting done t).length - (n + 1)) := by
    rw [countP_fits_eq_sum, demand_eq_sum, ← Finset.sum_add_distrib]
    exact Finset.sum_congr rfl fun t _ => by omega
  have htotal : e.cache.total = .ofNat (start.demand (n + 1) done) := by
    rw [← h.size_eq ample, ← h.accounted.total_eq, UInt64.ofNat_toNat]
  have hadd := h.evictions_add
  rw [htotal, hsplit, UInt64.ofNat_add, add_comm] at hadd
  rw [hover]
  exact add_left_cancel hadd

/-- A new engine is stocked with nothing. -/
theorem stocked_nil {limits : Limits}
    (hcache : start.cache = { limits, policy := .leastRecentlyUsed })
    (hevictions : start.metrics.evictions = 0) : Stocked start n [] start where
  sites_eq := rfl
  codec_eq := rfl
  limits_eq := rfl
  policy_eq := by rw [hcache]
  accounted := hcache ▸ Cache.accounted_empty limits .leastRecentlyUsed
  shard_eq t := by
    have hnone : start.cache.shards[t]? = none := by simp [hcache]
    rw [Cache.shard_eq_empty hnone]
    rfl
  evictions_add := by simp [hcache, hevictions]

/-- Under the default policy an engine that starts anew retains of a snapshot, for each site, all
entries that fit it if there is room for them, and otherwise the last one and the best of those
before it. The entries of a site have to come under different fingerprints, and the places that the
sites need must not be more than there are in all. -/
theorem warmStart_retention (config : Config) (codec : Codec)
    (hsite : 0 < config.maxEntriesPerSite) (sites : List (SiteId × List Slot))
    (entries : List SnapshotEntry) :
    let start := (fresh config codec .leastRecentlyUsed).declared sites
    let k := config.maxEntriesPerSite.toNat
    ((entries.filter start.fits).Pairwise fun s s' =>
      s.site = s'.site → s.rehashed codec ≠ s'.rehashed codec) →
    start.demand k entries ≤ config.maxTotalEntries.toNat →
      let w := start.warmStart ⟨entries⟩
      (∀ t, Retained codec k (start.fitting entries t) w.engine.cache t) ∧
        w.engine.metrics.evictions =
          .ofNat (start.sites.keys.map fun t => (start.fitting entries t).length - k).sum := by
  intro start k hdistinct hdemand w
  obtain ⟨hcache, hmetrics, hsettings, hdemoted⟩ :=
    declared_frame (fresh config codec .leastRecentlyUsed) sites
  have hnone : ∀ t, ¬ start.Demoted t := by
    intro t ht
    obtain ⟨r, hr, -⟩ := (hdemoted t).mp ht
    simp [fresh, withPolicy, withCodec, ofConfig] at hr
  have hcodec : start.codec = codec := hsettings.codec_eq
  have hlimits : start.cache.limits = config.limits := congrArg Cache.limits hcache
  obtain ⟨n, hn⟩ : ∃ n, k = n + 1 :=
    Nat.exists_eq_succ_of_ne_zero (UInt64.lt_iff_toNat_lt.mp hsite).ne'
  have ample : Ample start (n + 1) entries := by
    refine ⟨fun t => List.pairwise_map.mpr ?_, by rwa [hlimits, ← hn]⟩
    refine (hdistinct.filter _).imp_of_mem fun {s s'} hs hs' hne => ?_
    have ht : s.site = t := of_decide_eq_true (List.mem_filter.mp hs).2
    have ht' : s'.site = t := of_decide_eq_true (List.mem_filter.mp hs').2
    rw [hcodec]
    exact hne (ht.trans ht'.symm)
  have hstocked : Stocked start n entries w.engine :=
    (stocked_nil hcache (congrArg Metrics.evictions hmetrics)).loadAll hnone
      (by rw [hlimits]; exact hn) ample
  rw [hn]
  exact ⟨fun t => hcodec ▸ hstocked.retained ample t, hstocked.evictions_eq ample⟩

/-- Entries of two known sites, too many for the first one, and two that fit no site. -/
def offered : List SnapshotEntry :=
  [⟨⟨1⟩, 0, [1], [], 10, 5⟩, ⟨⟨2⟩, 0, [1], [], 20, 0⟩, ⟨⟨1⟩, 0, [2], [], 11, 9⟩,
    ⟨⟨3⟩, 0, [1], [], 0, 9⟩, ⟨⟨1⟩, 0, [3], [], 12, 7⟩, ⟨⟨1⟩, 0, [4, 4], [], 0, 9⟩,
    ⟨⟨1⟩, 0, [4], [], 13, 0⟩]

/-- With two places for each of two sites and three in all, the first site retains the last of its
four entries and the most used one of the others, and the second site retains its only one. -/
theorem warmStart_retention_offered :
    let config : Config := { maxEntriesPerSite := 2, maxTotalEntries := 3 }
    let start :=
      (fresh config .byFirst .leastRecentlyUsed).declared [(⟨1⟩, [⟨10⟩]), (⟨2⟩, [⟨20⟩])]
    let w := start.warmStart ⟨offered⟩
    0 < config.maxEntriesPerSite ∧ start.demand 2 offered = 3 ∧
    w.engine.cache.entryCount ⟨1⟩ = 2 ∧ w.engine.cache.entryCount ⟨2⟩ = 1 ∧
    w.engine.cache.peek? ⟨1⟩ ⟨4⟩ = some ⟨[4], ⟨[], 13⟩, .cold 0⟩ ∧
    w.engine.cache.peek? ⟨1⟩ ⟨2⟩ = some ⟨[2], ⟨[], 11⟩, .cold 9⟩ ∧
    w.engine.cache.peek? ⟨2⟩ ⟨1⟩ = some ⟨[1], ⟨[], 20⟩, .cold 0⟩ ∧
    w.engine.metrics.evictions = 2 := by
  intro config start w
  have hsite : 0 < config.maxEntriesPerSite := by decide
  have hdistinct : (offered.filter start.fits).Pairwise fun s s' =>
      s.site = s'.site → s.rehashed .byFirst ≠ s'.rehashed .byFirst := by
    have hfits : offered.filter start.fits = [⟨⟨1⟩, 0, [1], [], 10, 5⟩, ⟨⟨2⟩, 0, [1], [], 20, 0⟩,
      ⟨⟨1⟩, 0, [2], [], 11, 9⟩, ⟨⟨1⟩, 0, [3], [], 12, 7⟩, ⟨⟨1⟩, 0, [4], [], 13, 0⟩] := rfl
    rw [hfits]
    decide
  have hdemand : start.demand 2 offered = 3 := rfl
  obtain ⟨hretained, hevictions⟩ := warmStart_retention config .byFirst hsite
    [(⟨1⟩, [⟨10⟩]), (⟨2⟩, [⟨20⟩])] offered hdistinct (hdemand.trans_le (by decide))
  have hfirst : start.fitting offered ⟨1⟩ = [⟨⟨1⟩, 0, [1], [], 10, 5⟩, ⟨⟨1⟩, 0, [2], [], 11, 9⟩,
    ⟨⟨1⟩, 0, [3], [], 12, 7⟩, ⟨⟨1⟩, 0, [4], [], 13, 0⟩] := rfl
  have hsecond : start.fitting offered ⟨2⟩ = [⟨⟨2⟩, 0, [1], [], 20, 0⟩] := rfl
  have hone := hretained ⟨1⟩
  have htwo := hretained ⟨2⟩
  rw [hfirst] at hone
  rw [hsecond] at htwo
  dsimp only [w, start, config] at hone htwo hevictions ⊢
  refine ⟨hsite, hdemand, hone.entryCount_eq, htwo.entryCount_eq, ?_, ?_, ?_, hevictions⟩
  · exact (hone.best (by decide) _ _).mpr ⟨⟨⟨1⟩, 0, [4], [], 13, 0⟩, rfl, .inl rfl⟩
  · exact (hone.best (by decide) _ _).mpr
      ⟨⟨⟨1⟩, 0, [2], [], 11, 9⟩, rfl, .inr ⟨by decide, by decide⟩⟩
  · exact (htwo.all (by decide) _ _).mpr ⟨⟨⟨2⟩, 0, [1], [], 20, 0⟩, by decide, rfl⟩

end Engine

end CallMemo
