import CallMemo.Cache.Policies
import CallMemo.Proofs.Engine.Demotion
import CallMemo.Proofs.Engine.Export

/-!
# Restoring an export

An engine that starts anew with the entries of an export, in whatever order they come, finds a free
place for each of them: it holds fewer entries than the exporting engine did, of each site and in
all. Afterwards it exports the same snapshot and replays every entry.
-/

namespace CallMemo

namespace Cache

variable {c c' : Cache} {site t : SiteId} {fp g : Fingerprint} {e : Entry}

/-- Calling contexts that have an entry in `c` have one in `c'`. -/
def Within (c c' : Cache) : Prop := ∀ t g, g ∈ c.shard t → g ∈ c'.shard t

/-- A cache within another has no more entries of a site. -/
theorem Within.entryCount_le (h : Within c c') (t : SiteId) :
    c.entryCount t ≤ c'.entryCount t := by
  have hkeys : (c.shard t).keys ⊆ (c'.shard t).keys := fun g hg =>
    Std.ExtTreeMap.mem_keys.mpr (h t g (Std.ExtTreeMap.mem_keys.mp hg))
  have hle := (List.subperm_of_subset Std.ExtTreeMap.nodup_keys hkeys).length_le
  rwa [Std.ExtTreeMap.length_keys, Std.ExtTreeMap.length_keys] at hle

theorem Within.size_le (h : Within c c') : c.size ≤ c'.size :=
  calc c.size
      = ∑ t ∈ c.sites.toFinset, c.entryCount t := size_eq_sum fun _ => List.mem_toFinset.mpr
    _ ≤ ∑ t ∈ c.sites.toFinset, c'.entryCount t := Finset.sum_le_sum fun t _ => h.entryCount_le t
    _ ≤ c'.size := c'.sum_entryCount_le_size _

/-- A context that is still missing leaves room for one more entry of its site. -/
theorem Within.lt (h : Within c c') (absent : fp ∉ c.shard site) (present : fp ∈ c'.shard site)
    (e : Entry) : c.entryCount site < c'.entryCount site ∧ c.size < c'.size := by
  have hwithin : Within (c.setShard site ((c.shard site).insert fp e)) c' := by
    intro t g hg
    rw [shard_setShard] at hg
    split at hg
    · next hid =>
      subst hid
      rcases Std.ExtTreeMap.mem_insert.mp hg with heq | hg
      · rwa [← Std.LawfulEqOrd.compare_eq_iff_eq.mp heq]
      · exact h site g hg
    · exact h t g hg
  have hinsert : ((c.shard site).insert fp e).size = c.entryCount site + 1 :=
    Shard.size_insert_of_absent absent
  have hcount := hwithin.entryCount_le site
  have hsize := hwithin.size_le
  have hset := c.size_setShard site ((c.shard site).insert fp e)
  rw [entryCount, shard_setShard_self, hinsert] at hcount
  omega

end Cache

namespace SnapshotEntry

/-- The cache entry that a snapshot entry is restored to. -/
def restored (s : SnapshotEntry) : Entry := ⟨s.inputs, s.post, .cold s.hits⟩

/-- An entry that was restored is exported as it was. -/
theorem ofEntry_restored (s : SnapshotEntry) : ofEntry s.site s.fingerprint s.restored = s := rfl

end SnapshotEntry

namespace Engine

variable {e e' start : Engine} {target : Cache} {s : SnapshotEntry} {l done : List SnapshotEntry}

/-- An engine that starts anew has room for all contexts of `target`. -/
structure HasRoom (start : Engine) (target : Cache) : Prop where
  /-- For the contexts of each site. -/
  entryCount_le : ∀ t, target.entryCount t ≤ start.cache.limits.perSite.toNat
  /-- For all contexts together. -/
  size_le : target.size ≤ start.cache.limits.total.toNat

/-- The engine takes an entry in under the fingerprint that it came with, which is a context of
`target`. -/
structure Takes (start : Engine) (target : Cache) (s : SnapshotEntry) : Prop where
  /-- The site is registered and may be served from the cache. -/
  memoizable : start.Memoizable s.site
  /-- The inputs belong under the site and the fingerprint. -/
  belongs : start.Belongs s.site s.fingerprint s.inputs
  /-- The context is one of `target`. -/
  mem_target : s.fingerprint ∈ target.shard s.site

/-- The engine `e` has exactly the entries `done`, each as it was restored. -/
structure Restored (start : Engine) (done : List SnapshotEntry) (e : Engine) : Prop where
  /-- The sites are those of the start. -/
  sites_eq : e.sites = start.sites
  /-- The settings and the codec are those of the start. -/
  settings : SameSettings start e
  /-- The bounds are those of the start. -/
  limits_eq : e.cache.limits = start.cache.limits
  /-- No entry was evicted. -/
  evictions_eq : e.metrics.evictions = start.metrics.evictions
  /-- The accounts are right. -/
  accounted : e.cache.Accounted
  /-- The entries are those that were restored. -/
  peek?_iff : ∀ t g x, e.cache.peek? t g = some x ↔
    ∃ s ∈ done, s.context = (t, g) ∧ s.restored = x

/-- An entry that fits and finds a free place is loaded, without further ado. -/
theorem load_of_room (memoizable : e.Memoizable s.site)
    (belongs : e.Belongs s.site s.fingerprint s.inputs)
    (absent : s.fingerprint ∉ e.cache.shard s.site) (room : ¬ e.cache.Tight s.site) :
    e.load s =
      { engine := Engine.count
          { e with cache :=
              { e.cache.setShard s.site
                  ((e.cache.shard s.site).insert s.fingerprint s.restored) with
                total := e.cache.total + 1 } } (.insert false)
        accepted := true } := by
  obtain ⟨r, hr, hm⟩ := memoizable
  have hwidth := belongs.width_eq hr
  have hinsert := Cache.insertEntry_of_room (e := s.restored) absent room
  rw [SnapshotEntry.restored] at hinsert
  have fits : ¬ (!r.isMemoizable || s.inputs.length != r.readSet.width) = true := by
    simp [hm, hwidth]
  rw [load, hr]
  dsimp only
  rw [if_neg fits, belongs.2, Cache.insertCold, hinsert]
  rfl

/-- What was taken in is within the target. -/
theorem Restored.within (h : Restored start done e) (htakes : ∀ s ∈ done, Takes start target s) :
    e.cache.Within target := by
  intro t g hg
  obtain ⟨x, hx⟩ := Option.isSome_iff_exists.mp (Std.ExtTreeMap.mem_iff_isSome_getElem?.mp hg)
  obtain ⟨s, hs, hcontext, -⟩ := (h.peek?_iff t g x).mp hx
  obtain ⟨rfl, rfl⟩ := Prod.mk.inj hcontext
  exact (htakes s hs).mem_target

/-- One more entry finds a free place. -/
theorem Restored.load (h : Restored start done e) (hroom : HasRoom start target)
    (htakes : ∀ s ∈ done, Takes start target s) (hs : Takes start target s)
    (hnew : s.context ∉ done.map SnapshotEntry.context) :
    (e.load s).accepted = true ∧ (e.load s).events = [] ∧
      Restored start (done ++ [s]) (e.load s).engine := by
  have absent : s.fingerprint ∉ e.cache.shard s.site := by
    intro hmem
    obtain ⟨x, hx⟩ := Option.isSome_iff_exists.mp (Std.ExtTreeMap.mem_iff_isSome_getElem?.mp hmem)
    obtain ⟨s', hs', hcontext, -⟩ := (h.peek?_iff _ _ x).mp hx
    exact hnew (List.mem_map.mpr ⟨s', hs', hcontext⟩)
  obtain ⟨hcount, hsize⟩ := (h.within htakes).lt absent hs.mem_target s.restored
  have hsite := hroom.entryCount_le s.site
  have hall := hroom.size_le
  have htotal := h.accounted.total_eq
  have room : ¬ e.cache.Tight s.site := by
    rw [Cache.not_tight_iff, h.limits_eq, UInt64.lt_iff_toNat_lt]
    rw [Cache.entryCount] at hcount
    omega
  have memoizable : e.Memoizable s.site := by
    simpa only [Memoizable, h.sites_eq] using hs.memoizable
  have belongs : e.Belongs s.site s.fingerprint s.inputs :=
    hs.belongs.mono h.settings.codec_eq fun t readSet hr => by rwa [readSet?, h.sites_eq]
  rw [load_of_room memoizable belongs absent room]
  refine ⟨rfl, rfl, ?_⟩
  exact {
    sites_eq := h.sites_eq
    settings := h.settings.trans ⟨rfl, rfl⟩
    limits_eq := h.limits_eq
    evictions_eq := h.evictions_eq
    accounted := h.accounted.vacant absent room
    peek?_iff := fun t g x => by
      change (e.cache.setShard s.site _).peek? t g = some x ↔ _
      rw [Cache.peek?_setShard_insert]
      by_cases hk : s.site = t ∧ s.fingerprint = g
      · have hcontext : s.context = (t, g) := Prod.ext hk.1 hk.2
        rw [if_pos hk, Option.some.injEq]
        constructor
        · exact fun hx => ⟨s, by simp, hcontext, hx⟩
        · rintro ⟨s', hs', hcontext', hx⟩
          rcases List.mem_append.mp hs' with hs' | hs'
          · exact absurd (List.mem_map.mpr ⟨s', hs', hcontext'.trans hcontext.symm⟩) hnew
          · rwa [List.mem_singleton.mp hs'] at hx
      · have hcontext : s.context ≠ (t, g) := fun heq => hk (Prod.mk.inj heq)
        rw [if_neg hk, h.peek?_iff]
        constructor
        · rintro ⟨s', hs', hx⟩
          exact ⟨s', List.mem_append_left _ hs', hx⟩
        · rintro ⟨s', hs', hx⟩
          rcases List.mem_append.mp hs' with hs' | hs'
          · exact ⟨s', hs', hx⟩
          · rw [List.mem_singleton.mp hs'] at hx
            exact absurd hx.1 hcontext }

/-- All entries find a free place, in whatever order they come. -/
theorem Restored.loadAll (h : Restored start done e) (hroom : HasRoom start target)
    (htakes : ∀ s ∈ done ++ l, Takes start target s)
    (hdistinct : ((done ++ l).map SnapshotEntry.context).Nodup) :
    (e.loadAll l).loaded = l.length ∧ (e.loadAll l).skipped = 0 ∧ (e.loadAll l).events = [] ∧
      Restored start (done ++ l) (e.loadAll l).engine := by
  induction l generalizing e done with
  | nil => simpa [Engine.loadAll] using h
  | cons s rest ih =>
    rw [List.append_cons] at htakes hdistinct ⊢
    have hnew : s.context ∉ done.map SnapshotEntry.context := by
      rw [List.map_append, List.map_append] at hdistinct
      have hd := (List.nodup_append.mp hdistinct).1
      intro hmem
      exact (List.nodup_append.mp hd).2.2 _ hmem _ (List.mem_singleton_self _) rfl
    obtain ⟨accepted, quiet, hnext⟩ := h.load hroom
      (fun s' hs' => htakes s' (by simp [hs'])) (htakes s (by simp)) hnew
    obtain ⟨loaded, skipped, events, hall⟩ := ih hnext htakes hdistinct
    exact ⟨by simp [Engine.loadAll, accepted, loaded], by simp [Engine.loadAll, accepted, skipped],
      by simp [Engine.loadAll, quiet, events], hall⟩

/-- What was restored is what is exported. -/
theorem Restored.mem_exportSnapshot_iff (h : Restored start done e)
    (htakes : ∀ s ∈ done, Takes start target s) :
    s ∈ e.exportSnapshot.entries ↔ s ∈ done := by
  rw [Engine.mem_exportSnapshot_iff]
  constructor
  · rintro ⟨-, x, hx, hs⟩
    obtain ⟨s', hs', hcontext, rfl⟩ := (h.peek?_iff _ _ x).mp hx
    obtain ⟨hsite, hfp⟩ := Prod.mk.inj hcontext
    rw [← hsite, ← hfp, SnapshotEntry.ofEntry_restored] at hs
    exact hs ▸ hs'
  · intro hs
    have memoizable : e.Memoizable s.site := by
      simpa only [Memoizable, h.sites_eq] using (htakes s hs).memoizable
    exact ⟨memoizable, s.restored, (h.peek?_iff _ _ _).mpr ⟨s, hs, rfl, rfl⟩, rfl⟩

/-- The engine after several registrations. -/
def declared (e : Engine) (sites : List (SiteId × List Slot)) : Engine :=
  sites.foldl (fun e (id, slots) => e.registered id slots) e

/-- Registrations record nothing, count nothing and demote no site. -/
theorem declared_frame (e : Engine) (sites : List (SiteId × List Slot)) :
    (e.declared sites).cache = e.cache ∧ (e.declared sites).metrics = e.metrics ∧
      SameSettings e (e.declared sites) ∧ ∀ t, (e.declared sites).Demoted t ↔ e.Demoted t := by
  induction sites generalizing e with
  | nil => exact ⟨rfl, rfl, .refl e, fun _ => .rfl⟩
  | cons d rest ih =>
    obtain ⟨id, slots⟩ := d
    obtain ⟨hcache, hmetrics, hsettings, hdemoted⟩ := ih (e.registered id slots)
    have hfirst : (e.registered id slots).cache = e.cache ∧
        (e.registered id slots).metrics = e.metrics := by
      rcases registered_cases e id slots with heq | ⟨-, readSet, heq⟩ <;> simp [heq]
    exact ⟨hcache.trans hfirst.1, hmetrics.trans hfirst.2,
      (sameSettings_registered e id slots).trans hsettings,
      fun t => (hdemoted t).trans demoted_registered_iff⟩

/-- Bounds that are no lower leave room for all that a cache holds. -/
theorem hasRoom_of_accounted (hc : target.Accounted)
    (hsite : target.limits.perSite ≤ start.cache.limits.perSite)
    (hall : target.limits.total ≤ start.cache.limits.total) : HasRoom start target where
  entryCount_le t := (hc.entryCount_le t).trans (UInt64.le_iff_toNat_le.mp hsite)
  size_le := by
    have htotal := UInt64.le_iff_toNat_le.mp hc.total_le
    rw [hc.total_eq] at htotal
    exact htotal.trans (UInt64.le_iff_toNat_le.mp hall)

/-- A new engine is restored of nothing. -/
theorem restored_nil {limits : Limits} {policy : EvictionPolicy}
    (hcache : start.cache = { limits, policy }) : Restored start [] start where
  sites_eq := rfl
  settings := .refl start
  limits_eq := rfl
  evictions_eq := rfl
  accounted := hcache ▸ Cache.accounted_empty limits policy
  peek?_iff t g x := by simp [hcache, Cache.peek?, Cache.shard_eq_empty]

/-- An engine that knows the sites of another one takes in what that one exports. -/
theorem takes_of_mem_exportSnapshot (he : WellFiled e) (hkept : ReadSetsKept e start)
    (hcodec : start.codec = e.codec) (hnone : ∀ t, ¬ start.Demoted t)
    (hs : s ∈ e.exportSnapshot.entries) : Takes start e.cache s := by
  obtain ⟨-, x, hx, hentry⟩ := mem_exportSnapshot_iff.mp hs
  have hrecorded : e.cache.recorded? s.site s.fingerprint = some ⟨s.inputs, s.post⟩ := by
    rw [Cache.recorded?, hx, hentry]
    rfl
  have belongs := (he _ _ _ hrecorded).mono hcodec hkept
  obtain ⟨⟨readSet, hreadSet, -⟩, -⟩ := id belongs
  obtain ⟨r, hr, -⟩ := Option.map_eq_some_iff.mp hreadSet
  refine ⟨⟨r, hr, ?_⟩, belongs, Cache.mem_shard_of_peek? hx⟩
  by_contra hm
  exact hnone s.site ⟨r, hr, Bool.eq_false_iff.mpr hm⟩

/-- A result that is recorded for the very input is replayed, unless it is to be checked. -/
theorem dispatch_of_recorded {σ ε : Type} {site : CallSite} {input : List UInt64} {draw : UInt64}
    {handler : Handler σ ε} {world : σ} {post : PostState} (memoizable : site.isMemoizable = true)
    (width : input.length = site.readSet.width)
    (held : e.cache.recorded? site.id (e.codec.encode site.id input) = some ⟨input, post⟩)
    (trusted : isSampled e.config.validationSampleRate draw = false) :
    (e.dispatch site input draw handler world).ran = false ∧
      (e.dispatch site input draw handler world).result = .ok post ∧
      (e.dispatch site input draw handler world).world = world := by
  have unrun {e' : Engine} {purpose : Purpose} :
      ¬ Consulting e site input draw e' (.run purpose) := by
    intro h
    cases h with
    | bypass _ demoted => cases demoted.symm.trans memoizable
    | miss _ _ absent => cases absent.symm.trans held
    | collision _ _ present other =>
      cases present.symm.trans held
      exact other rfl
    | recheck _ _ _ _ sampled => cases sampled.symm.trans trusted
  have hd := dispatch_dispatching e site input draw handler world
  generalize e.dispatch site input draw handler world = d at hd ⊢
  cases hd with
  | refused other => exact absurd width other
  | replayed consulted =>
    cases (consulted.recorded?_eq rfl).symm.trans held
    exact ⟨rfl, rfl, rfl⟩
  | failed consulted outcome | bypassed consulted outcome | recorded consulted outcome
  | confirmed consulted outcome | contradicted consulted outcome differs =>
    exact absurd consulted unrun

/-- A restored entry is replayed. -/
theorem Restored.replays {σ ε : Type} (h : Restored start done e) (hs : s ∈ done)
    (htakes : Takes start target s) :
    ∃ site, e.callSite? s.site = some site ∧ ∀ draw,
      isSampled start.config.validationSampleRate draw = false →
        ∀ (handler : Handler σ ε) (world : σ),
          (e.dispatch site s.inputs draw handler world).ran = false ∧
            (e.dispatch site s.inputs draw handler world).result = .ok s.post ∧
            (e.dispatch site s.inputs draw handler world).world = world := by
  obtain ⟨r, hr, hm⟩ := htakes.memoizable
  have hwidth := htakes.belongs.width_eq hr
  refine ⟨{ r with id := s.site }, by rw [callSite?, h.sites_eq, hr]; rfl,
    fun draw trusted handler world => ?_⟩
  refine dispatch_of_recorded hm hwidth ?_ (by rwa [h.settings.config_eq])
  rw [h.settings.codec_eq]
  dsimp only
  rw [htakes.belongs.2, Cache.recorded?, (h.peek?_iff _ _ _).mpr ⟨s, hs, rfl, rfl⟩]
  rfl

end Engine

namespace Session

open Engine

/-- In every session the accounts of the cache are right, if the policy names entries of the shards,
and the bounds are those of the settings. -/
theorem accounted_run {σ ε : Type} {config : Config} {codec : Codec} {policy : EvictionPolicy}
    (hp : policy.NamesMembers) (world : σ) (ops : List (Op SiteId σ ε)) :
    let e := (run .own ⟨fresh config codec policy, world⟩ ops).engine
    e.cache.Accounted ∧ e.cache.limits = config.limits := by
  intro e
  obtain ⟨calls, hcalls⟩ : CacheFollows (fresh config codec policy) e := cacheFollows_run ops
  rw [hcalls]
  exact ⟨((Cache.accounted_empty config.limits policy).run hp calls).1,
    (Cache.run_settings calls).1⟩

/-- Whatever an engine has gone through under a policy that names entries of its shards, an engine
that starts anew with the same codec and sites, and with bounds that are no lower, restores its
export exactly, in whatever order the entries come: all of them are loaded, none is evicted, the
export of the new engine is the same, and each entry is replayed unless it is checked. -/
theorem warmStart_export {σ ε τ φ : Type} (config config' : Config) (codec : Codec)
    (policy policy' : EvictionPolicy) (hp : policy.NamesMembers)
    (hsite : config.limits.perSite ≤ config'.limits.perSite)
    (hall : config.limits.total ≤ config'.limits.total) (world : σ)
    (ops : List (Op SiteId σ ε)) (sites : List (SiteId × List Slot)) :
    let start : Session σ := ⟨fresh config codec policy, world⟩
    let e := (start.run .own ops).engine
    let e' := (fresh config' codec policy').declared sites
    ReadSetsKept e e' → ∀ entries : List SnapshotEntry,
      entries.Perm e.exportSnapshot.entries →
        let w := e'.warmStart ⟨entries⟩
        w.loaded = e.exportSnapshot.entries.length ∧ w.skipped = 0 ∧
        w.events = [.warmStarted w.loaded 0] ∧ w.engine.metrics.evictions = 0 ∧
        w.engine.exportSnapshot = e.exportSnapshot ∧
        ∀ s ∈ e.exportSnapshot.entries, ∃ site, w.engine.callSite? s.site = some site ∧
          ∀ draw, isSampled config'.validationSampleRate draw = false →
            ∀ (handler : Handler τ φ) (world : τ),
              (w.engine.dispatch site s.inputs draw handler world).ran = false ∧
                (w.engine.dispatch site s.inputs draw handler world).result = .ok s.post ∧
                (w.engine.dispatch site s.inputs draw handler world).world = world := by
  intro start e e' hkept entries hperm w
  have he : WellFiled e := wellFiled_run (wellFiled_fresh config codec policy) ops
  have hcodec : e.codec = codec := (sameSettings_run ops).codec_eq
  obtain ⟨haccounts, hlimits⟩ : e.cache.Accounted ∧ e.cache.limits = config.limits :=
    accounted_run hp world ops
  obtain ⟨hcache, hmetrics, hsettings, hdemoted⟩ :=
    declared_frame (fresh config' codec policy') sites
  have hlimits' : e'.cache.limits = config'.limits := congrArg Cache.limits hcache
  have hnone : ∀ t, ¬ e'.Demoted t := by
    intro t ht
    obtain ⟨r, hr, -⟩ := (hdemoted t).mp ht
    simp [fresh, withPolicy, withCodec, ofConfig] at hr
  have hroom : HasRoom e' e.cache :=
    hasRoom_of_accounted haccounts (by rwa [hlimits, hlimits']) (by rwa [hlimits, hlimits'])
  have htakes : ∀ s ∈ entries, Takes e' e.cache s := fun s hs =>
    takes_of_mem_exportSnapshot he hkept (hsettings.codec_eq.trans hcodec.symm) hnone
      (hperm.mem_iff.mp hs)
  have hdistinct := (hperm.map SnapshotEntry.context).nodup_iff.mpr (nodup_context_exportSnapshot e)
  obtain ⟨loaded, skipped, events, restored⟩ :=
    (restored_nil hcache).loadAll (l := entries) hroom htakes hdistinct
  refine ⟨loaded.trans hperm.length_eq, skipped, ?_, ?_, ?_, ?_⟩
  · change (e'.loadAll entries).events ++ [.warmStarted w.loaded (e'.loadAll entries).skipped] = _
    rw [events, skipped]
    rfl
  · exact restored.evictions_eq.trans (congrArg Metrics.evictions hmetrics)
  · exact exportSnapshot_eq fun s => (restored.mem_exportSnapshot_iff htakes).trans hperm.mem_iff
  · intro s hs
    have hs' := hperm.mem_iff.mpr hs
    have hreplays := restored.replays (σ := τ) (ε := φ) hs' (htakes s hs')
    rwa [hsettings.config_eq] at hreplays

/-- Returns its first input value. -/
def echoing : Handler Unit String := fun input world => (.ok { nextPc := input.headD 0 }, world)

/-- Two sites have entries, one of which was used again. -/
def filled : List (Op SiteId Unit String) :=
  [.register ⟨1⟩ [⟨10⟩], .register ⟨2⟩ [⟨20⟩], .dispatch ⟨2⟩ [7] 0 echoing,
    .dispatch ⟨1⟩ [5] 0 echoing, .dispatch ⟨1⟩ [3] 0 echoing, .dispatch ⟨1⟩ [5] (-1) echoing]

/-- What is exported then. -/
def kept : List SnapshotEntry :=
  [⟨⟨1⟩, 3, [3], [], 3, 0⟩, ⟨⟨1⟩, 5, [5], [], 5, 1⟩, ⟨⟨2⟩, 7, [7], [], 7, 0⟩]

/-- The new engine knows the same sites, whatever the order in which they were registered. -/
theorem readSetsKept_filled :
    ReadSetsKept (run .own ⟨fresh {} .byFirst .leastRecentlyUsed, ()⟩ filled).engine
      ((fresh {} .byFirst .declining).declared [(⟨2⟩, [⟨20⟩]), (⟨1⟩, [⟨10⟩])]) := by
  let sites : List (SiteId × Registration) :=
    [(⟨1⟩, { readSet := ⟨[⟨10⟩], by simp, by simp⟩ }),
      (⟨2⟩, { readSet := ⟨[⟨20⟩], by simp, by simp⟩ })]
  have hold : (run .own ⟨fresh {} .byFirst .leastRecentlyUsed, ()⟩
      filled).engine.sites.toList = sites := rfl
  have hnew : ((fresh {} .byFirst .declining).declared
      [(⟨2⟩, [⟨20⟩]), (⟨1⟩, [⟨10⟩])]).sites.toList = sites := rfl
  intro t readSet h
  rwa [readSet?, ← Std.ExtTreeMap.toList_inj.mp (hold.trans hnew.symm)]

/-- The entries are restored in reverse order, and one of them is replayed. -/
theorem warmStart_export_filled :
    let start : Session Unit := ⟨fresh {} .byFirst .leastRecentlyUsed, ()⟩
    let e := (start.run .own filled).engine
    let e' := (fresh {} .byFirst .declining).declared [(⟨2⟩, [⟨20⟩]), (⟨1⟩, [⟨10⟩])]
    let w := e'.warmStart ⟨kept.reverse⟩
    EvictionPolicy.leastRecentlyUsed.NamesMembers ∧ ReadSetsKept e e' ∧
    e.exportSnapshot.entries = kept ∧
    w.loaded = 3 ∧ w.skipped = 0 ∧ w.events = [.warmStarted 3 0] ∧
    w.engine.metrics.evictions = 0 ∧ w.engine.exportSnapshot = e.exportSnapshot ∧
    ∃ site, w.engine.callSite? ⟨1⟩ = some site ∧
      (w.engine.dispatch site [5] (-1) echoing ()).result = .ok { nextPc := 5 } := by
  have hp := EvictionPolicy.leastRecentlyUsed_namesMembers
  have h := warmStart_export (τ := Unit) (φ := String) {} {} .byFirst .leastRecentlyUsed .declining
    hp (UInt64.le_refl _) (UInt64.le_refl _) () filled [(⟨2⟩, [⟨20⟩]), (⟨1⟩, [⟨10⟩])]
  have hkept : (run .own ⟨fresh {} .byFirst .leastRecentlyUsed, ()⟩
      filled).engine.exportSnapshot.entries = kept := rfl
  dsimp only at h ⊢
  obtain ⟨loaded, skipped, events, evictions, exported, replays⟩ :=
    h readSetsKept_filled kept.reverse (hkept ▸ List.reverse_perm kept)
  rw [hkept] at replays
  rw [hkept, show kept.length = 3 from rfl] at loaded
  rw [loaded] at events
  obtain ⟨site, hsite, hreplay⟩ := replays ⟨⟨1⟩, 5, [5], [], 5, 1⟩ (by simp [kept])
  have trusted : isSampled ({} : Config).validationSampleRate (-1) = false := by decide
  exact ⟨hp, readSetsKept_filled, hkept, loaded, skipped, events, evictions, exported,
    site, hsite, (hreplay (-1) trusted echoing ()).2.1⟩

end Session

end CallMemo
