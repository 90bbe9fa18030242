import CallMemo.Proofs.Cache.EmptyShard
import CallMemo.Proofs.Config.Validity
import CallMemo.Proofs.Engine.Restoring
import CallMemo.Proofs.Engine.Tally

/-!
# Admission

A warm start takes in every entry that fits a registered site which may be served from the cache,
and no other one. There is always room, because something else gives way, and each entry is counted
once. The fingerprints that the entries come with are not looked at.
-/

namespace CallMemo

namespace SnapshotEntry

/-- The entry without the fingerprint that it came with. -/
def unhashed (s : SnapshotEntry) : SnapshotEntry := { s with ctxHash := 0 }

end SnapshotEntry

namespace Engine

variable {e e' : Engine} {s : SnapshotEntry} {l l' : List SnapshotEntry} {t : SiteId}

/-- The cache takes an entry of any site in, whatever has to give way for it. -/
structure Receptive (e : Engine) : Prop where
  /-- The accounts are right. -/
  accounted : e.cache.Accounted
  /-- The policy names an entry of every shard that has one. -/
  namesSome : e.cache.policy.NamesSome
  /-- A site may hold an entry. -/
  perSite_pos : 0 < e.cache.limits.perSite.toNat
  /-- The cache may hold an entry. -/
  total_pos : 0 < e.cache.limits.total.toNat

/-- Whatever the cache does, it goes on taking entries in. -/
theorem Receptive.follows (h : Receptive e) (hfollows : CacheFollows e e') : Receptive e' := by
  obtain ⟨calls, hcalls⟩ := hfollows
  obtain ⟨hlimits, hpolicy⟩ := Cache.run_settings (c := e.cache) calls
  constructor
  case accounted =>
    rw [hcalls]
    exact h.accounted.run_of_namesSome h.namesSome h.perSite_pos calls
  case namesSome => rw [hcalls, hpolicy]; exact h.namesSome
  case perSite_pos => rw [hcalls, hlimits]; exact h.perSite_pos
  case total_pos => rw [hcalls, hlimits]; exact h.total_pos

/-- Loading an entry does not change what fits. -/
theorem admits_load : (e.load s).engine.admits = e.admits := by
  funext s'
  rw [admits, sites_load, admits]

/-- An entry that does not fit changes nothing. -/
theorem load_of_not_admits (h : e.admits s = false) :
    (e.load s).engine = e ∧ (e.load s).accepted = false := by
  have hl := load_loads e s
  generalize (e.load s).engine = e', (e.load s).accepted = accepted at hl ⊢
  cases hl with
  | unfit misfit => exact ⟨rfl, rfl⟩
  | offered registered memoizable width =>
    cases h.symm.trans (admits_eq_true registered memoizable width)

/-- Loading does not move the clock. -/
theorem clock_load : (e.load s).engine.cache.clock = e.cache.clock := by
  have hl := load_loads e s
  generalize (e.load s).engine = e', (e.load s).accepted = accepted at hl ⊢
  cases hl with
  | unfit misfit => rfl
  | offered registered memoizable width =>
    rw [cache_countInsertion]
    exact Cache.insertEntry_placement.clock_eq

/-- What becomes of an engine that takes an entry in. -/
structure Takeover (e : Engine) (s : SnapshotEntry) (e' : Engine) : Prop where
  /-- One insertion is counted and perhaps one eviction, nothing else. -/
  metrics_eq : e'.metrics = { e.metrics with
    inserts := e.metrics.inserts + 1, evictions := e'.metrics.evictions }
  /-- The site has a shard. -/
  shards_iff : ∀ t, t ∈ e'.cache.shards ↔ s.site = t ∨ t ∈ e.cache.shards
  /-- The entry stands where the codec files it. -/
  peek?_eq : e'.cache.peek? s.site (e.codec.encode s.site s.inputs) = some s.restored

/-- An entry that fits is taken in. -/
theorem Receptive.load (h : Receptive e) (hs : e.admits s = true) :
    (e.load s).accepted = true ∧ Takeover e s (e.load s).engine := by
  have hl := load_loads e s
  generalize (e.load s).engine = e', (e.load s).accepted = accepted at hl ⊢
  cases hl with
  | unfit misfit => cases hs.symm.trans (admits_eq_false misfit)
  | offered registered memoizable width =>
    have heffect : Cache.Effect e.cache s.site (e.codec.encode s.site s.inputs) s.restored
        (e.cache.insertCold s.site (e.codec.encode s.site s.inputs) s.inputs s.post s.hits) :=
      h.accounted.effect_insertEntry h.namesSome h.perSite_pos
    obtain ⟨taken, -⟩ := heffect.taken (UInt64.lt_iff_toNat_lt.mpr h.perSite_pos)
      (UInt64.lt_iff_toNat_lt.mpr h.total_pos)
    have hpeek := heffect.peek?_eq s.site (e.codec.encode s.site s.inputs)
    rw [if_pos ⟨⟨rfl, rfl⟩, taken⟩] at hpeek
    refine ⟨bne_iff_ne.mpr taken, ?_, fun t => ?_, ?_⟩
    · generalize e.cache.insertCold s.site _ s.inputs s.post s.hits = i at taken
      cases ho : i.outcome with
      | skipped => exact absurd ho taken
      | inserted | replaced | evicted => rfl
    · rw [cache_countInsertion]
      exact Cache.mem_shards_insertEntry
    · rw [cache_countInsertion]
      exact hpeek

/-- Entries that do not fit change nothing together either. -/
theorem loadAll_of_not_admits (h : ∀ s ∈ l, e.admits s = false) : (e.loadAll l).engine = e := by
  induction l with
  | nil => rfl
  | cons s rest ih =>
    have hs := (load_of_not_admits (h s (by simp))).1
    rw [loadAll, hs]
    exact ih fun s' hs' => h s' (by simp [hs'])

/-- What a warm start with the entries `l` comes to. -/
structure Admission (e : Engine) (l : List SnapshotEntry) (w : WarmStart) : Prop where
  /-- The entries that fit are loaded. -/
  loaded_eq : w.loaded = l.countP e.admits
  /-- No other entry is left out than those that do not fit. -/
  skipped_eq : w.skipped = l.countP fun s => !e.admits s
  /-- The registrations and the statuses of the sites stay. -/
  sites_eq : w.engine.sites = e.sites
  /-- The clock stands still. -/
  clock_eq : w.engine.cache.clock = e.cache.clock
  /-- Each loaded entry is counted as an insertion. Apart from evictions nothing else is counted. -/
  metrics_eq : w.engine.metrics = { e.metrics with
    inserts := e.metrics.inserts + .ofNat w.loaded, evictions := w.engine.metrics.evictions }
  /-- A shard is opened for the sites of loaded entries only. -/
  shards_iff : ∀ t, t ∈ w.engine.cache.shards ↔
    t ∈ e.cache.shards ∨ ∃ s ∈ l, e.admits s = true ∧ s.site = t
  /-- The last entry that fits stands where the codec files it. -/
  peek?_eq : ∀ s, (l.filter e.admits).getLast? = some s →
    w.engine.cache.peek? s.site (e.codec.encode s.site s.inputs) = some s.restored

/-- A warm start with nothing comes to nothing. -/
theorem admission_nil : Admission e [] (e.loadAll []) where
  loaded_eq := rfl
  skipped_eq := rfl
  sites_eq := rfl
  clock_eq := rfl
  metrics_eq := by simp [loadAll]
  shards_iff t := by simp [loadAll]
  peek?_eq s hs := by simp at hs

/-- An entry that does not fit is left out, and all goes on as without it. -/
theorem Admission.cons_of_not_admits (h : Admission e l (e.loadAll l))
    (hs : e.admits s = false) : Admission e (s :: l) (e.loadAll (s :: l)) := by
  obtain ⟨same, refused⟩ := load_of_not_admits hs
  have hall : e.loadAll (s :: l) = { e.loadAll l with
      skipped := (e.loadAll l).skipped + 1
      events := (e.load s).events ++ (e.loadAll l).events } := by
    rw [loadAll, same, refused]
    rfl
  rw [hall]
  exact {
    loaded_eq := by rw [List.countP_cons_of_neg (by simp [hs]), ← h.loaded_eq]
    skipped_eq := by rw [List.countP_cons_of_pos (by simp [hs]), ← h.skipped_eq]
    sites_eq := h.sites_eq
    clock_eq := h.clock_eq
    metrics_eq := h.metrics_eq
    shards_iff := fun t => by simp [h.shards_iff, hs]
    peek?_eq := fun s' hs' => by
      rw [List.filter_cons_of_neg (by simp [hs])] at hs'
      exact h.peek?_eq s' hs' }

/-- An entry that fits is loaded, and all goes on from there. -/
theorem Admission.cons_of_admits (h : Admission (e.load s).engine l ((e.load s).engine.loadAll l))
    (hs : e.admits s = true) (accepted : (e.load s).accepted = true)
    (takeover : Takeover e s (e.load s).engine) :
    Admission e (s :: l) (e.loadAll (s :: l)) := by
  have hall : e.loadAll (s :: l) = { (e.load s).engine.loadAll l with
      loaded := ((e.load s).engine.loadAll l).loaded + 1
      events := (e.load s).events ++ ((e.load s).engine.loadAll l).events } := by
    rw [loadAll, accepted]
    rfl
  have hcodec : (e.load s).engine.codec = e.codec := (sameSettings_load e s).codec_eq
  have hadmits : (e.load s).engine.admits = e.admits := admits_load
  rw [hall]
  exact {
    loaded_eq := by rw [List.countP_cons_of_pos hs, ← hadmits, ← h.loaded_eq]
    skipped_eq := by rw [List.countP_cons_of_neg (by simp [hs]), ← hadmits, ← h.skipped_eq]
    sites_eq := h.sites_eq.trans (sites_load e s)
    clock_eq := h.clock_eq.trans clock_load
    metrics_eq := by
      rw [h.metrics_eq, takeover.metrics_eq]
      simp [UInt64.ofNat_add, UInt64.add_assoc, UInt64.add_comm]
    shards_iff := fun t => by
      rw [h.shards_iff, takeover.shards_iff, hadmits]
      simp only [List.mem_cons, exists_eq_or_imp, hs, true_and]
      tauto
    peek?_eq := fun s' hs' => by
      rw [List.filter_cons_of_pos hs, List.getLast?_cons, Option.some.injEq] at hs'
      cases hlast : (l.filter e.admits).getLast? with
      | some last =>
        rw [hlast, Option.getD_some] at hs'
        subst hs'
        rw [← hcodec]
        exact h.peek?_eq last (hadmits ▸ hlast)
      | none =>
        rw [hlast, Option.getD_none] at hs'
        subst hs'
        have hnone : ∀ s' ∈ l, (e.load s).engine.admits s' = false := fun s' hs' => by
          have hempty := List.getLast?_eq_none_iff.mp hlast
          simpa [hadmits] using List.filter_eq_nil_iff.mp hempty s' hs'
        rw [loadAll_of_not_admits hnone]
        exact takeover.peek?_eq }

/-- Every warm start takes in what fits, entry by entry. -/
theorem Receptive.admission (h : Receptive e) (l : List SnapshotEntry) :
    Admission e l (e.loadAll l) := by
  induction l generalizing e with
  | nil => exact admission_nil
  | cons s rest ih =>
    cases hs : e.admits s with
    | false => exact (ih h).cons_of_not_admits hs
    | true =>
      obtain ⟨accepted, takeover⟩ := h.load hs
      exact (ih (h.follows (cacheFollows_load e s))).cons_of_admits hs accepted takeover

/-- The fingerprints that the entries come with are not looked at. -/
theorem loadAll_unhashed (e : Engine) (l : List SnapshotEntry) :
    e.loadAll (l.map SnapshotEntry.unhashed) = e.loadAll l := by
  induction l generalizing e with
  | nil => rfl
  | cons s rest ih =>
    have hload : e.load s.unhashed = e.load s := rfl
    simp only [List.map_cons, loadAll, hload, ih]

end Engine

namespace Session

open Engine

variable {η σ ε : Type}

/-- In every session with valid settings, under a policy that names an entry of every shard that has
one, a warm start loads all entries that fit and no other one, whatever has to give way, and the
last one of them stands in the cache afterwards. Entries that differ in nothing but the fingerprints
that they come with make for the same warm start. -/
theorem warmStart_admission {config : Config} (hvalid : config.validate = .ok ())
    (codec : Codec) {policy : EvictionPolicy} (hp : policy.NamesSome) (resolve : Resolver η)
    (world : σ) (ops : List (Op η σ ε)) (entries : List SnapshotEntry) :
    let e := (run resolve ⟨fresh config codec policy, world⟩ ops).engine
    let w := e.warmStart ⟨entries⟩
    w.loaded + w.skipped = entries.length ∧ Admission e entries w ∧
      ∀ entries' : List SnapshotEntry,
        entries'.map SnapshotEntry.unhashed = entries.map SnapshotEntry.unhashed →
          e.warmStart ⟨entries'⟩ = w := by
  intro e w
  obtain ⟨hsite, htotal⟩ := limits_of_validate hvalid
  have hstart : Receptive (fresh config codec policy) :=
    ⟨Cache.accounted_empty config.limits policy, hp, hsite, htotal⟩
  have hfollows : CacheFollows (fresh config codec policy) e := cacheFollows_run ops
  have hadmission := (hstart.follows hfollows).admission entries
  have hw : Admission e entries w := { hadmission with }
  refine ⟨?_, hw, fun entries' hsame => ?_⟩
  · rw [hw.loaded_eq, hw.skipped_eq, List.length_eq_countP_add_countP (p := e.admits)]
    simp
  · have hall : e.loadAll entries' = e.loadAll entries := by
      rw [← loadAll_unhashed, hsame, loadAll_unhashed]
    rw [warmStart, hall]
    rfl

/-- Settings with room for a single entry. -/
def cramped : Config := { maxEntriesPerSite := 1, maxTotalEntries := 1 }

/-- Entries of two known sites and of an unknown one, one of which has too many inputs. -/
def mixed : List SnapshotEntry :=
  [⟨⟨1⟩, 9, [4], [], 40, 7⟩, ⟨⟨3⟩, 4, [4], [], 0, 0⟩, ⟨⟨2⟩, 4, [4, 5], [], 0, 0⟩,
    ⟨⟨2⟩, 9, [6], [], 60, 2⟩]

/-- Both entries that fit are loaded although there is room for one only, and the last one of them
is there in the end, with its result and its uses and not under the fingerprint it came with. -/
theorem warmStart_admission_mixed :
    let e := (run .own ⟨fresh cramped .byFirst .leastRecentlyUsed, ()⟩ filled).engine
    let w := e.warmStart ⟨mixed⟩
    cramped.validate = .ok () ∧ EvictionPolicy.leastRecentlyUsed.NamesSome ∧
    mixed.map e.admits = [true, false, false, true] ∧ w.loaded = 2 ∧ w.skipped = 2 ∧
    w.engine.cache.peek? ⟨2⟩ ⟨6⟩ = some ⟨[6], ⟨[], 60⟩, .cold 2⟩ := by
  have hvalid : cramped.validate = .ok () := by decide +kernel
  have hp : EvictionPolicy.leastRecentlyUsed.NamesSome :=
    EvictionPolicy.leastRecentlyUsed_decides.of_ne_empty
  intro e w
  obtain ⟨-, h, -⟩ := warmStart_admission hvalid .byFirst hp .own () filled mixed
  have hadmits : mixed.map e.admits = [true, false, false, true] := rfl
  refine ⟨hvalid, hp, hadmits, h.loaded_eq, h.skipped_eq, ?_⟩
  exact h.peek?_eq ⟨⟨2⟩, 9, [6], [], 60, 2⟩ rfl

end Session

end CallMemo
