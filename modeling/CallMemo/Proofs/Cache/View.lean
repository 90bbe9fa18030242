import CallMemo.Cache.Insert

/-!
# Reading a cache

Every operation on a cache is described by what it does to the shards, to single entries and to the
recorded results, which are the entries without their usage. A use or a check touches usage only;
an eviction removes one entry; dropping a site or clearing the cache removes whole shards.
-/

namespace CallMemo

namespace Cache

variable {c : Cache} {s t : SiteId} {f g : Fingerprint} {sh : Shard}

/-- The result recorded for a calling context, without its usage. -/
def recorded? (c : Cache) (site : SiteId) (fp : Fingerprint) : Option Hit :=
  (c.peek? site fp).map Entry.toHit

/-- Replacing the shard of one site leaves the other sites alone. -/
theorem shard_setShard : (c.setShard s sh).shard t = if s = t then sh else c.shard t := by
  simp [setShard, shard, Std.ExtTreeMap.getD_insert]

@[simp] theorem shard_setShard_self : (c.setShard s sh).shard s = sh := by
  rw [shard_setShard, if_pos rfl]

/-- Only what is written last counts. -/
@[simp] theorem setShard_setShard {sh' : Shard} :
    (c.setShard s sh).setShard s sh' = c.setShard s sh' := by
  refine congrArg (fun shards => { c with shards }) (Std.ExtTreeMap.ext_getElem? fun t => ?_)
  simp only [setShard, Std.ExtTreeMap.getElem?_insert]
  split <;> rfl

/-- Writing one shard leaves the others alone. -/
theorem shard_setShard_of_ne (h : s ≠ t) : (c.setShard s sh).shard t = c.shard t := by
  rw [shard_setShard, if_neg h]

@[simp] theorem limits_setShard : (c.setShard s sh).limits = c.limits := rfl

@[simp] theorem policy_setShard : (c.setShard s sh).policy = c.policy := rfl

@[simp] theorem total_setShard : (c.setShard s sh).total = c.total := rfl

@[simp] theorem clock_setShard : (c.setShard s sh).clock = c.clock := rfl

/-- A site without a shard reads as an empty one. -/
theorem shard_eq_empty (h : c.shards[s]? = none) : c.shard s = ∅ := by
  rw [shard, Std.ExtTreeMap.getD_eq_getD_getElem?, h, Option.getD_none]

/-- A shard that is there is read as it is. -/
theorem shard_eq_of_getElem? (h : c.shards[s]? = some sh) : c.shard s = sh := by
  rw [shard, Std.ExtTreeMap.getD_eq_getD_getElem?, h, Option.getD_some]

/-- A context is contained if it has an entry. -/
theorem contains_eq_isSome : c.contains t g = (c.peek? t g).isSome :=
  Std.ExtTreeMap.contains_eq_isSome_getElem?

/-- A site with an entry has a shard. -/
theorem mem_shards_of_peek? {e : Entry} (he : c.peek? t g = some e) : t ∈ c.shards := by
  rw [Std.ExtTreeMap.mem_iff_isSome_getElem?, Option.isSome_iff_ne_none]
  intro hnone
  rw [peek?, shard_eq_empty hnone, Std.ExtTreeMap.getElem?_empty] at he
  cases he

/-- What is recorded belongs to an entry. -/
theorem exists_peek?_of_recorded? {h : Hit} (hr : c.recorded? t g = some h) :
    ∃ e, c.peek? t g = some e := by
  obtain ⟨e, he, -⟩ := Option.map_eq_some_iff.mp hr
  exact ⟨e, he⟩

/-- A site has no entries if it has none under any fingerprint. -/
theorem entryCount_eq_zero_iff : c.entryCount t = 0 ↔ ∀ g, c.peek? t g = none := by
  rw [entryCount, ← Std.ExtTreeMap.eq_empty_iff_size_eq_zero]
  constructor
  · intro h g
    rw [peek?, h]
    exact Std.ExtTreeMap.getElem?_empty
  · intro h
    exact Std.ExtTreeMap.ext_getElem? fun g => (h g).trans Std.ExtTreeMap.getElem?_empty.symm

/-- Entries are those of the shard that replaces the old one, and elsewhere the old ones. -/
theorem peek?_setShard :
    (c.setShard s sh).peek? t g = if s = t then sh[g]? else c.peek? t g := by
  simp only [peek?, shard_setShard]
  split <;> rfl

/-- Writing one entry changes the reading at its own context only. -/
theorem peek?_setShard_insert {e : Entry} :
    (c.setShard s ((c.shard s).insert f e)).peek? t g =
      if s = t ∧ f = g then some e else c.peek? t g := by
  simp only [peek?_setShard, Std.ExtTreeMap.getElem?_insert, Std.LawfulEqOrd.compare_eq_iff_eq]
  by_cases hs : s = t
  · subst hs
    by_cases hf : f = g <;> simp [hf, peek?]
  · simp [hs]

/-- An eviction removes its victim and no other entry. -/
theorem peek?_evict :
    (c.evict s f).peek? t g = if s = t ∧ f = g then none else c.peek? t g := by
  have h : (c.evict s f).peek? t g = (c.setShard s ((c.shard s).erase f)).peek? t g := rfl
  simp only [h, peek?_setShard, Std.ExtTreeMap.getElem?_erase,
    Std.LawfulEqOrd.compare_eq_iff_eq]
  by_cases hs : s = t
  · subst hs
    by_cases hf : f = g <;> simp [hf, peek?]
  · simp [hs]

/-- Giving one entry of a shard up for another one changes the reading at their two contexts. -/
theorem peek?_setShard_erase_insert {e : Entry} {v : Fingerprint} :
    (c.setShard s (((c.shard s).erase v).insert f e)).peek? t g =
      if s = t ∧ f = g then some e else if s = t ∧ v = g then none else c.peek? t g := by
  simp only [peek?_setShard, Std.ExtTreeMap.getElem?_insert, Std.ExtTreeMap.getElem?_erase,
    Std.LawfulEqOrd.compare_eq_iff_eq]
  by_cases hs : s = t
  · subst hs
    by_cases hf : f = g <;> by_cases hv : v = g <;> simp [hf, hv, peek?]
  · simp [hs]

/-- An eviction leaves other shards alone. -/
theorem shard_evict_of_ne (h : s ≠ t) : (c.evict s f).shard t = c.shard t :=
  shard_setShard_of_ne h

/-- A lookup that finds nothing changes nothing. -/
theorem lookup_of_none (h : c.peek? s f = none) : c.lookup s f = (none, c) := by
  rw [lookup, h]

/-- A lookup that finds an entry marks it with the time, which moves on. -/
theorem lookup_of_some {e : Entry} (h : c.peek? s f = some e) :
    c.lookup s f =
      (some e.toHit, { c.setShard s ((c.shard s).insert f (e.hit c.clock)) with
        clock := c.clock + 1 }) := by
  rw [lookup, h]

/-- A lookup hands back exactly what is recorded. -/
theorem lookup_fst : (c.lookup s f).1 = c.recorded? s f := by
  cases h : c.peek? s f with
  | none => rw [lookup_of_none h, recorded?, h, Option.map_none]
  | some e => rw [lookup_of_some h, recorded?, h, Option.map_some]

/-- A lookup marks the entry it finds as used and touches no other entry. -/
theorem peek?_lookup :
    (c.lookup s f).2.peek? t g =
      if s = t ∧ f = g then (c.peek? t g).map (·.hit c.clock) else c.peek? t g := by
  cases h : c.peek? s f with
  | none =>
    rw [lookup_of_none h]
    split
    · next hk => rw [← hk.1, ← hk.2, h, Option.map_none]
    · rfl
  | some e =>
    rw [lookup_of_some h]
    change (c.setShard s ((c.shard s).insert f (e.hit c.clock))).peek? t g = _
    rw [peek?_setShard_insert]
    split
    · next hk => rw [← hk.1, ← hk.2, h, Option.map_some]
    · rfl

/-- A lookup leaves other shards alone. -/
theorem shard_lookup_of_ne (h : s ≠ t) : (c.lookup s f).2.shard t = c.shard t := by
  cases hx : c.peek? s f with
  | none => rw [lookup_of_none hx]
  | some x =>
    rw [lookup_of_some hx]
    exact shard_setShard_of_ne h

/-- A confirmation of nothing changes nothing. -/
theorem confirm_of_none (h : c.peek? s f = none) : c.confirm s f = (false, c) := by
  rw [confirm, h]

/-- A confirmation adds to the confidence of its entry. -/
theorem confirm_of_some {e : Entry} (h : c.peek? s f = some e) :
    c.confirm s f = (true, c.setShard s ((c.shard s).insert f e.confirm)) := by
  rw [confirm, h]

/-- A check that agreed raises the confidence of its entry and touches no other entry. -/
theorem peek?_confirm :
    (c.confirm s f).2.peek? t g =
      if s = t ∧ f = g then (c.peek? t g).map Entry.confirm else c.peek? t g := by
  cases h : c.peek? s f with
  | none =>
    rw [confirm_of_none h]
    split
    · next hk => rw [← hk.1, ← hk.2, h, Option.map_none]
    · rfl
  | some e =>
    rw [confirm_of_some h, peek?_setShard_insert]
    split
    · next hk => rw [← hk.1, ← hk.2, h, Option.map_some]
    · rfl

/-- A confirmation leaves other shards alone. -/
theorem shard_confirm_of_ne (h : s ≠ t) : (c.confirm s f).2.shard t = c.shard t := by
  cases hx : c.peek? s f with
  | none => rw [confirm_of_none hx]
  | some x => rw [confirm_of_some hx, shard_setShard_of_ne h]

/-- There is nothing to drop of a site without a shard. -/
theorem invalidate_of_none (h : c.shards[s]? = none) : c.invalidate s = (0, c) := by
  rw [invalidate, h]

/-- Otherwise the shard is emptied and its size is subtracted. -/
theorem invalidate_of_some (h : c.shards[s]? = some sh) :
    c.invalidate s = (sh.size, { c.setShard s ∅ with total := c.total - sh.size.toUInt64 }) := by
  rw [invalidate, h]

/-- Dropping a site empties its shard and leaves the others alone. -/
theorem shard_invalidate : (c.invalidate s).2.shard t = if s = t then ∅ else c.shard t := by
  cases h : c.shards[s]? with
  | none =>
    rw [invalidate_of_none h]
    split
    · next hs =>
      subst hs
      exact shard_eq_empty h
    · rfl
  | some sh =>
    rw [invalidate_of_some h]
    exact shard_setShard

/-- Exactly the entries of the site are gone. -/
theorem peek?_invalidate :
    (c.invalidate s).2.peek? t g = if s = t then none else c.peek? t g := by
  simp only [peek?, shard_invalidate]
  split
  · exact Std.ExtTreeMap.getElem?_empty
  · rfl

/-- What is left after dropping a site was there before. -/
theorem peek?_of_invalidate {x : Entry} (hx : (c.invalidate s).2.peek? t g = some x) :
    c.peek? t g = some x := by
  rw [peek?_invalidate] at hx
  split at hx
  · cases hx
  · exact hx

/-- Dropping a site tells how many entries it had. -/
theorem invalidate_fst : (c.invalidate s).1 = c.entryCount s := by
  cases h : c.shards[s]? with
  | none => rw [invalidate_of_none h, entryCount, shard_eq_empty h, Std.ExtTreeMap.size_empty]
  | some sh => rw [invalidate_of_some h, entryCount, shard_eq_of_getElem? h]

/-- Clearing empties every shard. -/
theorem shard_clear : c.clear.shard t = ∅ := by
  change (c.shards.map fun _ _ => (∅ : Shard)).getD t ∅ = ∅
  rw [Std.ExtTreeMap.getD_eq_getD_getElem?, Std.ExtTreeMap.getElem?_map]
  cases c.shards[t]? <;> rfl

/-- After clearing no entry is left. -/
theorem peek?_clear : c.clear.peek? t g = none := by
  rw [peek?, shard_clear]
  exact Std.ExtTreeMap.getElem?_empty

/-- A lookup changes no recorded result. -/
@[simp] theorem recorded?_lookup : (c.lookup s f).2.recorded? t g = c.recorded? t g := by
  rw [recorded?, peek?_lookup]
  split
  · rw [Option.map_map]
    rfl
  · rfl

@[simp] theorem recorded?_confirm : (c.confirm s f).2.recorded? t g = c.recorded? t g := by
  rw [recorded?, peek?_confirm]
  split
  · rw [Option.map_map]
    rfl
  · rfl

/-- What is left after dropping a site was recorded before. -/
theorem recorded?_of_invalidate {h : Hit}
    (hr : (c.invalidate s).2.recorded? t g = some h) : c.recorded? t g = some h := by
  rw [recorded?, peek?_invalidate] at hr
  split at hr
  · simp at hr
  · exact hr

@[simp] theorem recorded?_clear : c.clear.recorded? t g = none := by
  rw [recorded?, peek?_clear, Option.map_none]

end Cache

end CallMemo
