import CallMemo.Proofs.Cache.LeastRecent

/-!
# Shards that are alike

Two shards are alike if they show the same entries and if the last uses of these come in the same
order, whatever the readings of the clock were; entries that were restored and not used since come
first in both. Then the default policy names the same victim, and what is done to both keeps them
alike.
-/

namespace CallMemo

/-- An entry as it is shown outside the cache: all but the reading of the clock. -/
structure ExportedEntry where
  /-- The fingerprint of the entry. -/
  fingerprint : Fingerprint
  /-- The input values it was recorded for. -/
  rawInput : List UInt64
  /-- The recorded result. -/
  post : PostState
  /-- The number of uses. -/
  hits : UInt64
  /-- The number of checks that agreed. -/
  confidence : UInt32
  deriving DecidableEq, Repr

/-- What is shown of an entry. -/
def Entry.exported (e : Entry) (fp : Fingerprint) : ExportedEntry :=
  ⟨fp, e.rawInput, e.post, e.usage.hits, e.usage.confidence⟩

/-- A use shows, but not when it was. -/
theorem Entry.exported_hit {x x' : Entry} {f : Fingerprint}
    (h : x.exported f = x'.exported f) (n n' : UInt64) :
    (x.hit n).exported f = (x'.hit n').exported f := by
  simp only [exported, ExportedEntry.mk.injEq] at h
  simp [exported, hit, Usage.hit, h]

/-- Entries that show the same show the same once they are confirmed. -/
theorem Entry.exported_confirm {x x' : Entry} {f : Fingerprint}
    (h : x.exported f = x'.exported f) : x.confirm.exported f = x'.confirm.exported f := by
  simp only [exported, ExportedEntry.mk.injEq] at h
  simp [exported, confirm, Usage.confirm, h]

/-- What a lookup shows is shown of the entry. -/
theorem Entry.toHit_eq {x x' : Entry} {f : Fingerprint} (h : x.exported f = x'.exported f) :
    x.toHit = x'.toHit := by
  simp only [exported, ExportedEntry.mk.injEq] at h
  simp [toHit, h]

namespace Shard

variable {sh sh' : Shard} {f g v : Fingerprint} {x x' y y' : Entry} {n n' : UInt64}

/-- What is shown of a shard. -/
def exported (sh : Shard) : Std.ExtTreeMap Fingerprint ExportedEntry :=
  sh.map fun fp e => e.exported fp

/-- What a shard shows, it shows entry by entry. -/
theorem getElem?_exported : (exported sh)[g]? = sh[g]?.map (·.exported g) :=
  Std.ExtTreeMap.getElem?_map

/-- An insertion shows as one. -/
theorem exported_insert : exported (sh.insert f x) = (exported sh).insert f (x.exported f) := by
  refine Std.ExtTreeMap.ext_getElem? fun g => ?_
  simp only [getElem?_exported, Std.ExtTreeMap.getElem?_insert, Std.LawfulEqOrd.compare_eq_iff_eq]
  split
  · next hf => rw [Option.map_some, hf]
  · rfl

theorem exported_erase : exported (sh.erase v) = (exported sh).erase v := by
  refine Std.ExtTreeMap.ext_getElem? fun g => ?_
  simp only [getElem?_exported, Std.ExtTreeMap.getElem?_erase, Std.LawfulEqOrd.compare_eq_iff_eq]
  split <;> rfl

/-- The entries that two shards have under one fingerprint. -/
def Pair (sh sh' : Shard) (g : Fingerprint) (x x' : Entry) : Prop :=
  sh[g]? = some x ∧ sh'[g]? = some x'

/-- Two shards show the same entries, last used in the same order; the reading zero, of entries that
were not used at all, is kept. -/
structure Alike (sh sh' : Shard) : Prop where
  /-- The same entries are shown. -/
  exported_eq : exported sh = exported sh'
  /-- The last uses come in the same order. -/
  lt_iff : ∀ {g h x x' y y'}, Pair sh sh' g x x' → Pair sh sh' h y y' →
    (x.usage.lastUsed < y.usage.lastUsed ↔ x'.usage.lastUsed < y'.usage.lastUsed)
  /-- The same entries were not used. -/
  zero_iff : ∀ {g x x'}, Pair sh sh' g x x' → (x.usage.lastUsed = 0 ↔ x'.usage.lastUsed = 0)

/-- Pairs can be read from either side. -/
theorem Pair.symm (h : Pair sh sh' g x x') : Pair sh' sh g x' x := ⟨h.2, h.1⟩

theorem Alike.symm (h : Alike sh sh') : Alike sh' sh where
  exported_eq := h.exported_eq.symm
  lt_iff hx hy := (h.lt_iff hx.symm hy.symm).symm
  zero_iff hx := (h.zero_iff hx.symm).symm

/-- Empty shards are alike. -/
theorem alike_empty : Alike ∅ ∅ where
  exported_eq := rfl
  lt_iff hx _ := by
    have hx := hx.1
    rw [Std.ExtTreeMap.getElem?_empty] at hx
    cases hx
  zero_iff hx := by
    have hx := hx.1
    rw [Std.ExtTreeMap.getElem?_empty] at hx
    cases hx

/-- Shards that are alike show the same under every fingerprint. -/
theorem Alike.map_getElem?_eq (h : Alike sh sh') (g : Fingerprint) :
    sh[g]?.map (·.exported g) = sh'[g]?.map (·.exported g) := by
  rw [← getElem?_exported, h.exported_eq, getElem?_exported]

theorem Alike.getElem?_eq_none (h : Alike sh sh') (hg : sh[g]? = none) : sh'[g]? = none := by
  have hmap := h.map_getElem?_eq g
  rwa [hg, Option.map_none, eq_comm, Option.map_eq_none_iff] at hmap

/-- An entry of one shard has a partner in the other one. -/
theorem Alike.exists_pair (h : Alike sh sh') (hx : sh[g]? = some x) :
    ∃ x', Pair sh sh' g x x' := by
  have hmap := h.map_getElem?_eq g
  rw [hx, Option.map_some, eq_comm, Option.map_eq_some_iff] at hmap
  obtain ⟨x', hx', -⟩ := hmap
  exact ⟨x', hx, hx'⟩

/-- The two entries of a pair show the same. -/
theorem Alike.exported_eq_of_pair (h : Alike sh sh') (hx : Pair sh sh' g x x') :
    x.exported g = x'.exported g := by
  have hmap := h.map_getElem?_eq g
  rwa [hx.1, hx.2, Option.map_some, Option.map_some, Option.some.injEq] at hmap

/-- Shards that are alike have entries under the same fingerprints. -/
theorem Alike.mem_iff (h : Alike sh sh') : g ∈ sh ↔ g ∈ sh' := by
  rw [← Std.ExtTreeMap.mem_map (f := fun fp e => Entry.exported e fp), ←
    Std.ExtTreeMap.mem_map (t := sh') (f := fun fp e => Entry.exported e fp)]
  exact iff_of_eq (congrArg (g ∈ ·) h.exported_eq)

theorem Alike.size_eq (h : Alike sh sh') : sh.size = sh'.size := by
  have hsize := congrArg Std.ExtTreeMap.size h.exported_eq
  rwa [exported, exported, Std.ExtTreeMap.size_map, Std.ExtTreeMap.size_map] at hsize

/-- Ranks compare in the same way. -/
theorem Alike.rank_le_iff (h : Alike sh sh') (hx : Pair sh sh' f x x') (hy : Pair sh sh' g y y') :
    (⟨x.recency, f.val⟩ : Rank) ≤ ⟨y.recency, g.val⟩ ↔
      (⟨x'.recency, f.val⟩ : Rank) ≤ ⟨y'.recency, g.val⟩ := by
  have hhits : x.usage.hits = x'.usage.hits :=
    congrArg ExportedEntry.hits (h.exported_eq_of_pair hx)
  have hhits' : y.usage.hits = y'.usage.hits :=
    congrArg ExportedEntry.hits (h.exported_eq_of_pair hy)
  have hlt := h.lt_iff hx hy
  have hgt := h.lt_iff hy hx
  have heq : y.usage.lastUsed = x.usage.lastUsed ↔ y'.usage.lastUsed = x'.usage.lastUsed := by
    grind
  simp only [Rank.le_iff, Rank.lt_iff, Priority.lt_iff, Entry.recency, Priority.mk.injEq, hhits,
    hhits', hgt, heq]

/-- The default policy has the same victim in both. -/
theorem Alike.victim?_eq (h : Alike sh sh') :
    EvictionPolicy.leastRecentlyUsed.victim? sh = EvictionPolicy.leastRecentlyUsed.victim? sh' := by
  have carried {sh sh' : Shard} (h : Alike sh sh') {v : Fingerprint}
      (hv : EvictionPolicy.leastRecentlyUsed.victim? sh = some v) :
      EvictionPolicy.leastRecentlyUsed.victim? sh' = some v := by
    obtain ⟨x, hx, hle⟩ := EvictionPolicy.victim?_eq_some_iff.mp hv
    obtain ⟨x', hpair⟩ := h.exists_pair hx
    refine EvictionPolicy.victim?_eq_some_iff.mpr ⟨x', hpair.2, fun g y' hy' => ?_⟩
    obtain ⟨y, hpair'⟩ := h.symm.exists_pair hy'
    exact (h.rank_le_iff hpair hpair'.symm).mp (hle g y hpair'.2)
  exact Option.ext fun v => ⟨carried h, carried h.symm⟩

/-- Two entries may be written under `f`: they show the same and stand in the same place among the
last uses of the others. -/
structure Joins (sh sh' : Shard) (f : Fingerprint) (x x' : Entry) : Prop where
  /-- The same is shown of both. -/
  exported_eq : x.exported f = x'.exported f
  /-- The others were used before or after them alike. -/
  lt_iff : ∀ {g y y'}, f ≠ g → Pair sh sh' g y y' →
    (x.usage.lastUsed < y.usage.lastUsed ↔ x'.usage.lastUsed < y'.usage.lastUsed) ∧
      (y.usage.lastUsed < x.usage.lastUsed ↔ y'.usage.lastUsed < x'.usage.lastUsed)
  /-- Both or none were used. -/
  zero_iff : x.usage.lastUsed = 0 ↔ x'.usage.lastUsed = 0

/-- After an insertion a pair is the new one or an old one under another fingerprint. -/
theorem Pair.of_insert (h : Pair (sh.insert f x) (sh'.insert f x') g y y') :
    f = g ∧ y = x ∧ y' = x' ∨ f ≠ g ∧ Pair sh sh' g y y' := by
  obtain ⟨hy, hy'⟩ := h
  simp only [Std.ExtTreeMap.getElem?_insert, Std.LawfulEqOrd.compare_eq_iff_eq] at hy hy'
  split at hy
  · next hf =>
    rw [if_pos hf] at hy'
    exact .inl ⟨hf, (Option.some.inj hy).symm, (Option.some.inj hy').symm⟩
  · next hf =>
    rw [if_neg hf] at hy'
    exact .inr ⟨hf, hy, hy'⟩

/-- After a removal only old pairs are left. -/
theorem Pair.of_erase (h : Pair (sh.erase v) (sh'.erase v) g y y') : Pair sh sh' g y y' := by
  obtain ⟨hy, hy'⟩ := h
  simp only [Std.ExtTreeMap.getElem?_erase, Std.LawfulEqOrd.compare_eq_iff_eq] at hy hy'
  split at hy
  · cases hy
  · next hv =>
    rw [if_neg hv] at hy'
    exact ⟨hy, hy'⟩

/-- What joins shards that are alike leaves them alike. -/
theorem Alike.insert (h : Alike sh sh') (hj : Joins sh sh' f x x') :
    Alike (sh.insert f x) (sh'.insert f x') where
  exported_eq := by rw [exported_insert, exported_insert, h.exported_eq, hj.exported_eq]
  lt_iff ha hb := by
    rcases ha.of_insert with ⟨-, rfl, rfl⟩ | ⟨hne, hold⟩
    · rcases hb.of_insert with ⟨-, rfl, rfl⟩ | ⟨hne, hold⟩
      · exact iff_of_false (UInt64.lt_irrefl _) (UInt64.lt_irrefl _)
      · exact (hj.lt_iff hne hold).1
    · rcases hb.of_insert with ⟨-, rfl, rfl⟩ | ⟨-, hold'⟩
      · exact (hj.lt_iff hne hold).2
      · exact h.lt_iff hold hold'
  zero_iff ha := by
    rcases ha.of_insert with ⟨-, rfl, rfl⟩ | ⟨-, ha⟩
    · exact hj.zero_iff
    · exact h.zero_iff ha

/-- A removal leaves them alike. -/
theorem Alike.erase (h : Alike sh sh') (v : Fingerprint) :
    Alike (sh.erase v) (sh'.erase v) where
  exported_eq := by rw [exported_erase, exported_erase, h.exported_eq]
  lt_iff ha hb := h.lt_iff ha.of_erase hb.of_erase
  zero_iff ha := h.zero_iff ha.of_erase

/-- Whatever joins two shards also joins what a removal leaves of them. -/
theorem Joins.erase (h : Joins sh sh' f x x') (v : Fingerprint) :
    Joins (sh.erase v) (sh'.erase v) f x x' :=
  ⟨h.exported_eq, fun hne hy => h.lt_iff hne hy.of_erase, h.zero_iff⟩

/-- Entries that were used after all others join. -/
theorem joins_of_lt (hshown : x.exported f = x'.exported f)
    (hlt : ∀ (g : Fingerprint) (y : Entry), sh[g]? = some y → y.usage.lastUsed < x.usage.lastUsed)
    (hlt' : ∀ (g : Fingerprint) (y : Entry), sh'[g]? = some y →
      y.usage.lastUsed < x'.usage.lastUsed)
    (hpos : x.usage.lastUsed ≠ 0) (hpos' : x'.usage.lastUsed ≠ 0) : Joins sh sh' f x x' where
  exported_eq := hshown
  lt_iff _ hy :=
    have h := hlt _ _ hy.1
    have h' := hlt' _ _ hy.2
    ⟨iff_of_false (UInt64.lt_asymm h) (UInt64.lt_asymm h'), iff_of_true h h'⟩
  zero_iff := iff_of_false hpos hpos'

/-- Entries that were not used join. -/
theorem Alike.joins_cold (h : Alike sh sh') (hshown : x.exported f = x'.exported f)
    (hzero : x.usage.lastUsed = 0) (hzero' : x'.usage.lastUsed = 0) : Joins sh sh' f x x' where
  exported_eq := hshown
  lt_iff _ hy := by
    have hiff := h.zero_iff hy
    rw [hzero, hzero']
    grind
  zero_iff := iff_of_true hzero hzero'

/-- A check that agreed leaves the last use alone. -/
theorem Alike.joins_confirm (h : Alike sh sh') (hx : Pair sh sh' f x x') :
    Joins sh sh' f x.confirm x'.confirm where
  exported_eq := Entry.exported_confirm (h.exported_eq_of_pair hx)
  lt_iff _ hy := ⟨(h.lt_iff hx hy :), (h.lt_iff hy hx :)⟩
  zero_iff := (h.zero_iff hx :)

/-- What becomes of an entry for a shard that is bounded by itself alone. -/
def seat (sh : Shard) (bound : Nat) (site : SiteId) (f : Fingerprint) (e : Entry) :
    Shard × InsertOutcome :=
  if f ∈ sh then (sh.insert f e, .replaced)
  else if sh.size < bound then (sh.insert f e, .inserted)
  else match EvictionPolicy.leastRecentlyUsed.victim? sh with
    | some victim => ((sh.erase victim).insert f e, .evicted site victim)
    | none => (sh, .skipped)

/-- Like entries are seated alike. -/
theorem Alike.seat (h : Alike sh sh') (hj : Joins sh sh' f x x') (bound : Nat) (site : SiteId) :
    (seat sh bound site f x).2 = (seat sh' bound site f x').2 ∧
      Alike (seat sh bound site f x).1 (seat sh' bound site f x').1 := by
  simp only [Shard.seat, h.mem_iff, h.size_eq, h.victim?_eq]
  split
  · exact ⟨rfl, h.insert hj⟩
  · split
    · exact ⟨rfl, h.insert hj⟩
    · split
      · next victim _ => exact ⟨rfl, (h.erase victim).insert (hj.erase victim)⟩
      · exact ⟨rfl, h⟩

end Shard

end CallMemo
