import CallMemo.Proofs.Cache.Reclaiming

/-!
# The ways of an insertion

An insertion replaces an entry, takes a free place, has one entry give way, or is refused. Each way
is a rule that says why it was taken and what the cache holds afterwards. With a policy that names
an entry of every shard that has one, nothing is refused as long as the bounds are positive.
-/

namespace CallMemo

namespace EvictionPolicy

/-- The policy names an entry of every shard that has one, and none of an empty shard. -/
structure Decides (p : EvictionPolicy) : Prop where
  /-- An empty shard has no victim. -/
  of_empty : p.victim? ∅ = none
  /-- Every other shard has one. -/
  of_ne_empty : ∀ shard : Shard, shard ≠ ∅ → ∃ fp ∈ shard, p.victim? shard = some fp

variable {p : EvictionPolicy} {sh : Shard}

/-- What a deciding policy names stands in the shard. -/
theorem Decides.namesMembers (h : p.Decides) : p.NamesMembers := by
  intro sh fp named
  by_cases hsh : sh = ∅
  · subst hsh
    cases h.of_empty.symm.trans named
  · obtain ⟨v, hv, hnamed⟩ := h.of_ne_empty sh hsh
    rwa [Option.some.inj (named.symm.trans hnamed)]

/-- A deciding policy names nothing only where there is nothing. -/
theorem Decides.eq_empty (h : p.Decides) (unnamed : p.victim? sh = none) : sh = ∅ := by
  by_contra hsh
  obtain ⟨v, -, hnamed⟩ := h.of_ne_empty sh hsh
  cases unnamed.symm.trans hnamed

/-- The policy of the engine decides. -/
theorem leastRecentlyUsed_decides : leastRecentlyUsed.Decides where
  of_empty := rfl
  of_ne_empty sh hsh := by
    have hpos : 0 < sh.size := by
      rwa [Nat.pos_iff_ne_zero, ne_eq, ← Std.ExtTreeMap.eq_empty_iff_size_eq_zero]
    obtain ⟨v, hv⟩ := exists_victim_of_size_pos hpos
    exact ⟨v, leastRecentlyUsed_namesMembers sh v hv, hv⟩

end EvictionPolicy

namespace Cache

/-- Which entry gives way to a new one of site `s`. -/
inductive GivesWay (c : Cache) (s : SiteId) : SiteId → Fingerprint → Prop
  /-- The site is full and gives up its own victim. -/
  | full {v} (full : c.limits.perSite.toNat ≤ c.entryCount s)
      (named : c.policy.victim? (c.shard s) = some v) : GivesWay c s s v
  /-- The cache is full and no other site has a lower ranked victim. -/
  | own {v} (room : c.entryCount s < c.limits.perSite.toNat) (crowded : c.total = c.limits.total)
      (named : c.policy.victim? (c.shard s) = some v)
      (stalest : c.stalestElsewhere? s (c.victimPriority? (c.shard s)) = none) : GivesWay c s s v
  /-- The cache is full and another site has the lowest ranked victim. -/
  | elsewhere {t v} (room : c.entryCount s < c.limits.perSite.toNat)
      (crowded : c.total = c.limits.total)
      (stalest : c.stalestElsewhere? s (c.victimPriority? (c.shard s)) = some (t, v)) :
      GivesWay c s t v

/-- Why nothing gives way to a new entry of site `s`, and what is lost by the time that is known. -/
inductive Refuses (c : Cache) (s : SiteId) : List Context → Prop
  /-- The site is full and the policy spares all its entries. The places that the attempts free
  elsewhere are of no use. -/
  | full (full : c.limits.perSite.toNat ≤ c.entryCount s)
      (unnamed : c.policy.victim? (c.shard s) = none) : Refuses c s (c.reclaims s attempts)
  /-- The cache is full and no site has a victim. -/
  | crowded (room : c.entryCount s < c.limits.perSite.toNat) (crowded : c.total = c.limits.total)
      (unnamed : ∀ t, c.policy.victim? (c.shard t) = none) : Refuses c s []

/-- How an insertion ends: why, and what the cache holds afterwards. -/
inductive Inserting (s : SiteId) (f : Fingerprint) (e : Entry) (c c' : Cache) :
    InsertOutcome → Prop
  /-- The entry takes the place of the one under the same fingerprint. -/
  | replaced (present : f ∈ c.shard s)
      (peek?_eq : ∀ t g, c'.peek? t g = if s = t ∧ f = g then some e else c.peek? t g)
      (total_eq : c'.total = c.total) : Inserting s f e c c' .replaced
  /-- Both bounds leave a place free. -/
  | inserted (absent : f ∉ c.shard s) (room : ¬ c.Tight s)
      (peek?_eq : ∀ t g, c'.peek? t g = if s = t ∧ f = g then some e else c.peek? t g)
      (total_eq : c'.total = c.total + 1) : Inserting s f e c c' .inserted
  /-- One entry gives way. -/
  | evicted {u v} (absent : f ∉ c.shard s) (gives : GivesWay c s u v)
      (peek?_eq : ∀ t g, c'.peek? t g =
        if s = t ∧ f = g then some e else if u = t ∧ v = g then none else c.peek? t g)
      (total_eq : c'.total = c.total) : Inserting s f e c c' (.evicted u v)
  /-- The entry finds no place. -/
  | skipped {lost} (absent : f ∉ c.shard s) (refuses : Refuses c s lost)
      (peek?_eq : ∀ t g, c'.peek? t g = if (t, g) ∈ lost then none else c.peek? t g)
      (total_eq : c'.total.toNat + lost.length = c.total.toNat) : Inserting s f e c c' .skipped

variable {c c' d : Cache} {s t : SiteId} {f g v : Fingerprint} {e : Entry} {o : InsertOutcome}
  {n : Nat} {reclaimed : Option Context} {ownTurn : Bool} {lost : List Context}

/-- A full site whose entries are all spared never has room. -/
theorem Placement.eq_evictAll (h : Placement s f e n reclaimed ownTurn c c' o)
    (absent : f ∉ c.shard s) (full : c.limits.perSite.toNat ≤ c.entryCount s)
    (unnamed : c.policy.victim? (c.shard s) = none) :
    c' = c.evictAll (c.reclaims s n) ∧ o = .skipped := by
  have hrank {c : Cache} (unnamed : c.policy.victim? (c.shard s) = none) :
      c.victimPriority? (c.shard s) = none := by simp [victimPriority?, unnamed]
  induction h with
  | replaced present => exact absurd present absent
  | vacant absent room => exact absurd (.inl full) room
  | own absent tight turn named => cases unnamed.symm.trans named
  | @elsewhere n _ _ c _ other victim _ absent tight spared stalest rest ih =>
    rw [hrank unnamed] at stalest
    have hshard : (c.evict other victim).shard s = c.shard s :=
      shard_evict_of_ne (ne_of_stalestElsewhere? stalest)
    rw [reclaims, stalest]
    refine ih (hshard ▸ absent) ?_ (hshard ▸ unnamed)
    rw [entryCount, hshard]
    exact full
  | ownNext absent tight spared stalest ranked rest ih =>
    rw [hrank unnamed] at ranked
    cases ranked
  | noRoom absent tight spared stalest unranked =>
    rw [unranked] at stalest
    rw [reclaims, stalest]
    exact ⟨rfl, rfl⟩
  | exhausted absent => exact ⟨rfl, rfl⟩

/-- If a site has room and yet no place is free, the bound in all is reached. -/
theorem crowded_of_tight (hc : Accounted c) (tight : c.Tight s)
    (room : c.entryCount s < c.limits.perSite.toNat) : c.total = c.limits.total := by
  rcases tight with full | crowded
  · exact absurd full (Nat.not_le.mpr room)
  · exact UInt64.le_antisymm hc.total_le crowded

/-- The place that an eviction elsewhere frees is taken at the next attempt. -/
theorem Placement.inserting_elsewhere
    (h : Placement s f e (n + 1) (some (t, v)) false (c.evict t v) c' o) (hc : Accounted c)
    (hp : c.policy.NamesMembers) (absent : f ∉ c.shard s)
    (room : c.entryCount s < c.limits.perSite.toNat) (crowded : c.total = c.limits.total)
    (stalest : c.stalestElsewhere? s (c.victimPriority? (c.shard s)) = some (t, v)) :
    Inserting s f e c c' o := by
  have hshard : (c.evict t v).shard s = c.shard s :=
    shard_evict_of_ne (ne_of_stalestElsewhere? stalest)
  obtain ⟨hpos, hevict⟩ := hc.evict (hp _ _ (stalestElsewhere?_eq_some stalest).1)
  have htotal : (c.evict t v).total + 1 = c.total := UInt64.sub_add_cancel c.total 1
  have hfree : ¬ (c.evict t v).Tight s := by
    rw [not_tight_iff, hshard, Nat.not_le]
    refine ⟨room, ?_⟩
    have hlimits : (c.evict t v).limits = c.limits := rfl
    rw [hlimits, ← crowded, ← htotal]
    grind
  have habsent : f ∉ (c.evict t v).shard s := hshard ▸ absent
  cases h with
  | replaced present => exact absurd present habsent
  | vacant absent' room' =>
    refine .evicted absent (.elsewhere room crowded stalest) (fun u g => ?_) htotal
    exact peek?_setShard_insert.trans (by rw [peek?_evict])
  | own absent' tight turn named => exact absurd tight hfree
  | elsewhere absent' tight spared stalest' rest => exact absurd tight hfree
  | ownNext absent' tight spared stalest' ranked rest => exact absurd tight hfree
  | noRoom absent' tight spared stalest' unranked => exact absurd tight hfree

/-- Nothing lower ranked elsewhere, so the site's own victim gives way at the next attempt. -/
theorem Placement.inserting_own (h : Placement s f e (n + 1) none true c c' o)
    (absent : f ∉ c.shard s) (tight : c.Tight s)
    (room : c.entryCount s < c.limits.perSite.toNat) (crowded : c.total = c.limits.total)
    (named : c.policy.victim? (c.shard s) = some v)
    (stalest : c.stalestElsewhere? s (c.victimPriority? (c.shard s)) = none) :
    Inserting s f e c c' o := by
  cases h with
  | replaced present => exact absurd present absent
  | vacant absent' room' => exact absurd tight room'
  | own absent' tight' turn named' =>
    exact .evicted absent (.own room crowded named' stalest)
      (fun _ _ => peek?_setShard_erase_insert) rfl
  | elsewhere absent' tight' spared => cases (spared (.inr rfl)).symm.trans named
  | ownNext absent' tight' spared => cases (spared (.inr rfl)).symm.trans named
  | noRoom absent' tight' spared => cases (spared (.inr rfl)).symm.trans named

/-- All attempts together end in one of the ways. -/
theorem Placement.inserting (h : Placement s f e attempts none false c c' o) (hc : Accounted c)
    (hp : c.policy.NamesMembers) : Inserting s f e c c' o := by
  have drained (absent : f ∉ c.shard s) (full : c.limits.perSite.toNat ≤ c.entryCount s)
      (unnamed : c.policy.victim? (c.shard s) = none) : Inserting s f e c c' o := by
    obtain ⟨rfl, rfl⟩ := h.eq_evictAll absent full unnamed
    exact .skipped absent (.full full unnamed) (fun _ _ => peek?_evictAll) (hc.reclaims hp)
  have ranked_iff : c.victimPriority? (c.shard s) = none ↔ c.policy.victim? (c.shard s) = none :=
    victimPriority?_eq_none_iff hp
  have hn : Placement s f e (2 + 1 + 1) none false c c' o := h
  by_cases full : c.limits.perSite.toNat ≤ c.entryCount s
  · cases hn with
    | replaced present => exact .replaced present (fun _ _ => peek?_setShard_insert) rfl
    | vacant absent room => exact absurd (.inl full) room
    | own absent tight turn named =>
      exact .evicted absent (.full full named) (fun _ _ => peek?_setShard_erase_insert) rfl
    | elsewhere absent tight spared => exact drained absent full (spared (.inl full))
    | ownNext absent tight spared => exact drained absent full (spared (.inl full))
    | noRoom absent tight spared => exact drained absent full (spared (.inl full))
  · have room := Nat.not_le.mp full
    cases hn with
    | replaced present => exact .replaced present (fun _ _ => peek?_setShard_insert) rfl
    | vacant absent vacant => exact .inserted absent vacant (fun _ _ => peek?_setShard_insert) rfl
    | own absent tight turn named => exact absurd (turn.resolve_right (by simp)) full
    | elsewhere absent tight spared stalest rest =>
      exact rest.inserting_elsewhere hc hp absent room (crowded_of_tight hc tight room) stalest
    | ownNext absent tight spared stalest ranked rest =>
      cases named : c.policy.victim? (c.shard s) with
      | none =>
        rw [ranked_iff.mpr named] at ranked
        cases ranked
      | some v =>
        exact rest.inserting_own absent tight room (crowded_of_tight hc tight room) named stalest
    | noRoom absent tight spared stalest unranked =>
      rw [unranked] at stalest
      refine .skipped absent (.crowded room (crowded_of_tight hc tight room) fun t => ?_)
        (fun _ _ => rfl) rfl
      by_cases ht : t = s
      · exact ht ▸ ranked_iff.mp unranked
      · exact (stalestElsewhere?_none_eq_none_iff hp).mp stalest t ht

/-- What gives way is seen in what a cache shows. -/
theorem GivesWay.congr {u : SiteId} (h : GivesWay d s u v) (hd : SameView d c) :
    GivesWay c s u v := by
  cases h with
  | full full named =>
    rw [hd.entryCount_eq, hd.limits_eq] at full
    rw [hd.shard_eq, hd.policy_eq] at named
    exact .full full named
  | own room crowded named stalest =>
    rw [hd.entryCount_eq, hd.limits_eq] at room
    rw [hd.total_eq, hd.limits_eq] at crowded
    rw [hd.shard_eq, hd.policy_eq] at named
    rw [hd.shard_eq, hd.victimPriority?_eq, hd.stalestElsewhere?_eq] at stalest
    exact .own room crowded named stalest
  | elsewhere room crowded stalest =>
    rw [hd.entryCount_eq, hd.limits_eq] at room
    rw [hd.total_eq, hd.limits_eq] at crowded
    rw [hd.shard_eq, hd.victimPriority?_eq, hd.stalestElsewhere?_eq] at stalest
    exact .elsewhere room crowded stalest

theorem Refuses.congr (h : Refuses d s lost) (hd : SameView d c) : Refuses c s lost := by
  cases h with
  | full full unnamed =>
    rw [hd.entryCount_eq, hd.limits_eq] at full
    rw [hd.shard_eq, hd.policy_eq] at unnamed
    rw [hd.reclaims_eq]
    exact .full full unnamed
  | crowded room crowded unnamed =>
    rw [hd.entryCount_eq, hd.limits_eq] at room
    rw [hd.total_eq, hd.limits_eq] at crowded
    refine .crowded room crowded fun t => ?_
    rw [← hd.policy_eq, ← hd.shard_eq]
    exact unnamed t

/-- The ways of an insertion depend on what the cache shows: the policy, the bounds, the counter and
the shards. -/
theorem Inserting.congr (h : Inserting s f e d c' o) (hd : SameView d c) :
    Inserting s f e c c' o := by
  cases h with
  | replaced present peek?_eq total_eq =>
    simp only [hd.peek?_eq, hd.shard_eq, hd.total_eq] at present peek?_eq total_eq
    exact .replaced present peek?_eq total_eq
  | inserted absent room peek?_eq total_eq =>
    simp only [hd.peek?_eq, hd.shard_eq, hd.total_eq, hd.tight_iff] at absent room peek?_eq total_eq
    exact .inserted absent room peek?_eq total_eq
  | evicted absent gives peek?_eq total_eq =>
    simp only [hd.peek?_eq, hd.shard_eq, hd.total_eq] at absent peek?_eq total_eq
    exact .evicted absent (gives.congr hd) peek?_eq total_eq
  | skipped absent refuses peek?_eq total_eq =>
    simp only [hd.peek?_eq, hd.shard_eq, hd.total_eq] at absent peek?_eq total_eq
    exact .skipped absent (refuses.congr hd) peek?_eq total_eq

/-- Giving a site an empty shard does not show. -/
theorem sameView_setShard_shard : SameView (c.setShard s (c.shard s)) c where
  policy_eq := rfl
  limits_eq := rfl
  total_eq := rfl
  shard_eq t := by
    rw [shard_setShard]
    split
    · next hs => rw [hs]
    · rfl

/-- An insertion into a cache whose accounts are right ends in one of the ways. -/
theorem Accounted.inserting_insertEntry (hc : Accounted c) (hp : c.policy.NamesMembers) :
    Inserting s f e c (c.insertEntry s f e).cache (c.insertEntry s f e).outcome :=
  (insertEntry_placement.inserting (hc.openShard s) hp).congr sameView_setShard_shard

/-- A fresh result goes in by one of the ways of an insertion. -/
theorem Accounted.inserting_insert (hc : Accounted c) (hp : c.policy.NamesMembers)
    (raw : List UInt64) (post : PostState) :
    Inserting s f ⟨raw, post, .fresh c.clock⟩ c (c.insert s f raw post).cache
      (c.insert s f raw post).outcome :=
  ((hc.setClock (c.clock + 1)).inserting_insertEntry hp).congr ⟨rfl, rfl, rfl, fun _ => rfl⟩

theorem Accounted.inserting_insertCold (hc : Accounted c) (hp : c.policy.NamesMembers)
    (raw : List UInt64) (post : PostState) (hits : UInt64) :
    Inserting s f ⟨raw, post, .cold hits⟩ c (c.insertCold s f raw post hits).cache
      (c.insertCold s f raw post hits).outcome :=
  hc.inserting_insertEntry hp

end Cache

end CallMemo
