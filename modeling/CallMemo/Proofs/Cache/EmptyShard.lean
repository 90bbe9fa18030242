import CallMemo.Proofs.Cache.Effect

/-!
# Empty shards

A policy is asked for a victim of a full shard, or of one that has an entry to compare. So it does
not matter what it names for an empty shard, as long as a site may hold an entry at all, and a
policy that names an entry of every other shard is as good as one that always decides. An insertion
opens a shard for its own site and for no other one.
-/

namespace CallMemo

namespace EvictionPolicy

/-- The policy names an entry of every shard that has one. -/
def NamesSome (p : EvictionPolicy) : Prop :=
  ∀ shard : Shard, shard ≠ ∅ → ∃ fp ∈ shard, p.victim? shard = some fp

/-- The policy without what it names for an empty shard. -/
def proper (p : EvictionPolicy) : EvictionPolicy :=
  { p with victim? := fun shard => if shard.isEmpty then none else p.victim? shard }

variable {p : EvictionPolicy} {sh : Shard}

/-- The proper policy names the same entry of every shard that has one. -/
theorem victim?_proper (h : sh ≠ ∅) : p.proper.victim? sh = p.victim? sh :=
  if_neg fun hempty => h (Std.ExtTreeMap.isEmpty_iff.mp hempty)

theorem victim?_proper_empty : p.proper.victim? ∅ = none := rfl

/-- The proper policy decides if the policy names an entry wherever there is one. -/
theorem NamesSome.decides_proper (h : p.NamesSome) : p.proper.Decides where
  of_empty := victim?_proper_empty
  of_ne_empty sh hsh := by
    rw [victim?_proper hsh]
    exact h sh hsh

end EvictionPolicy

namespace Cache

/-- The cache under the policy without what it names for an empty shard. -/
def proper (c : Cache) : Cache := { c with policy := c.policy.proper }

variable {c c' : Cache} {s t : SiteId} {f g : Fingerprint} {e : Entry} {own : Option Priority}
  {n : Nat} {reclaimed : Option Context} {ownTurn : Bool} {o : InsertOutcome} {sh : Shard}

/-- The accounts do not depend on the policy. -/
theorem accounted_proper_iff : Accounted c.proper ↔ Accounted c :=
  ⟨fun h => ⟨h.total_eq, h.entryCount_le, h.total_le⟩,
    fun h => ⟨h.total_eq, h.entryCount_le, h.total_le⟩⟩

/-- Only a shard with entries has a victim to offer. -/
theorem ne_empty_of_victimPriority? {p : Priority} (h : c.victimPriority? sh = some p) :
    sh ≠ ∅ := by
  rintro rfl
  obtain ⟨v, e, -, he, -⟩ := victimPriority?_eq_some_iff.mp h
  simp at he

/-- An empty shard has no entry to compare, whatever the policy names. -/
theorem victimPriority?_proper : c.proper.victimPriority? sh = c.victimPriority? sh := by
  by_cases hsh : sh = ∅
  · have hnone {c : Cache} : c.victimPriority? sh = none :=
      Option.eq_none_iff_forall_ne_some.mpr fun p hp => ne_empty_of_victimPriority? hp hsh
    rw [hnone, hnone]
  · have hsame : c.proper.policy.victim? sh = c.policy.victim? sh :=
      EvictionPolicy.victim?_proper hsh
    rw [victimPriority?, hsame, victimPriority?]
    rfl

theorem stalestElsewhere?_proper :
    c.proper.stalestElsewhere? s own = c.stalestElsewhere? s own := by
  have hcandidates (t : SiteId) (p : Priority) :
      (t, p) ∈ c.proper.candidates s own ↔ (t, p) ∈ c.candidates s own := by
    rw [mem_candidates_iff, mem_candidates_iff, victimPriority?_proper]
    rfl
  apply Option.ext
  rintro ⟨t, f⟩
  simp only [stalestElsewhere?_eq_some_iff, hcandidates]
  refine and_congr_left fun ⟨p, hp, _⟩ => ?_
  have hne := ne_empty_of_victimPriority? (mem_candidates_iff.mp hp).2.1
  exact Eq.congr_left (EvictionPolicy.victim?_proper hne)

/-- The attempts never come to see what the policy names for an empty shard: the shard of the site
has an entry if it is full, and also once it is its own turn. -/
theorem Placement.proper (h : Placement s f e n reclaimed ownTurn c c' o)
    (hsite : 0 < c.limits.perSite.toNat) (hturn : ownTurn = true → c.shard s ≠ ∅) :
    Placement s f e n reclaimed ownTurn c.proper c'.proper o := by
  have asked {c : Cache} {ownTurn : Bool} (hsite : 0 < c.limits.perSite.toNat)
      (hturn : ownTurn = true → c.shard s ≠ ∅)
      (turn : c.limits.perSite.toNat ≤ (c.shard s).size ∨ ownTurn = true) :
      c.proper.policy.victim? (c.shard s) = c.policy.victim? (c.shard s) := by
    refine EvictionPolicy.victim?_proper ?_
    rcases turn with hfull | hown
    · rw [ne_eq, Std.ExtTreeMap.eq_empty_iff_size_eq_zero]
      omega
    · exact hturn hown
  have elsewhere {c : Cache} : c.proper.stalestElsewhere? s (c.proper.victimPriority? (c.shard s)) =
      c.stalestElsewhere? s (c.victimPriority? (c.shard s)) := by
    rw [victimPriority?_proper, stalestElsewhere?_proper]
  induction h with
  | replaced present => exact .replaced present
  | vacant absent room => exact .vacant absent room
  | own absent tight turn named =>
    exact .own absent tight turn ((asked hsite hturn turn).trans named)
  | @elsewhere n _ _ c _ other victim _ absent tight spared stalest rest ih =>
    exact .elsewhere absent tight (fun turn => (asked hsite hturn turn).trans (spared turn))
      (elsewhere.trans stalest) (ih hsite (by simp))
  | ownNext absent tight spared stalest ranked rest ih =>
    obtain ⟨p, hp⟩ := Option.isSome_iff_exists.mp ranked
    exact .ownNext absent tight (fun turn => (asked hsite hturn turn).trans (spared turn))
      (elsewhere.trans stalest) (Option.isSome_of_eq_some (victimPriority?_proper.trans hp))
      (ih hsite fun _ => ne_empty_of_victimPriority? hp)
  | noRoom absent tight spared stalest unranked =>
    exact .noRoom absent tight (fun turn => (asked hsite hturn turn).trans (spared turn))
      (elsewhere.trans stalest) (victimPriority?_proper.trans unranked)
  | exhausted absent => exact .exhausted absent

/-- With a place for each site an insertion never asks for the victim of an empty shard. -/
theorem Accounted.insertEntry_of_namesSome (hc : Accounted c) (hp : c.policy.NamesSome)
    (hsite : 0 < c.limits.perSite.toNat) : Accounted (c.insertEntry s f e).cache :=
  accounted_proper_iff.mp ((accounted_proper_iff.mpr (hc.openShard s)).placement
    hp.decides_proper.namesMembers (insertEntry_placement.proper hsite (by simp)))

/-- An insertion has its effect as if the policy always decided. -/
theorem Accounted.effect_insertEntry (hc : Accounted c) (hp : c.policy.NamesSome)
    (hsite : 0 < c.limits.perSite.toNat) : Effect c s f e (c.insertEntry s f e) := by
  have hplaced : Placement s f e attempts none false (c.setShard s (c.shard s)).proper
      (c.insertEntry s f e).cache.proper (c.insertEntry s f e).outcome :=
    insertEntry_placement.proper hsite (by simp)
  have hview : SameView (c.setShard s (c.shard s)).proper c.proper :=
    ⟨rfl, rfl, rfl, sameView_setShard_shard.shard_eq⟩
  have hinserting : Inserting s f e c.proper (c.insertEntry s f e).cache.proper
      (c.insertEntry s f e).outcome :=
    (hplaced.inserting (accounted_proper_iff.mpr (hc.openShard s))
      hp.decides_proper.namesMembers).congr hview
  have heffect := hinserting.effect (i := { c.insertEntry s f e with
    cache := (c.insertEntry s f e).cache.proper }) (accounted_proper_iff.mpr hc) hp.decides_proper
  exact ⟨heffect.replaced_iff, heffect.of_evicted, heffect.peek?_eq, heffect.total_eq,
    heffect.taken, heffect.of_foreign⟩

/-- Under such a policy the accounts add up in whole runs. -/
theorem Accounted.run_of_namesSome (hc : Accounted c) (hp : c.policy.NamesSome)
    (hsite : 0 < c.limits.perSite.toNat) (ops : List Op) : Accounted (c.run ops) := by
  induction ops generalizing c with
  | nil => exact hc
  | cons op rest ih =>
    obtain ⟨hlimits, hpolicy⟩ := step_settings (c := c) op
    refine ih ?_ (hpolicy ▸ hp) (hlimits ▸ hsite)
    cases op with
    | insert site fp raw post =>
      exact (hc.setClock (c.clock + 1)).insertEntry_of_namesSome hp hsite
    | insertCold site fp raw post hits => exact hc.insertEntry_of_namesSome hp hsite
    | lookup site fp => exact hc.lookup
    | confirm site fp => exact hc.confirm
    | invalidate site => exact hc.invalidate
    | clear => exact hc.clear

/-- A shard that is set is there. -/
theorem mem_shards_setShard : t ∈ (c.setShard s sh).shards ↔ s = t ∨ t ∈ c.shards := by
  rw [setShard, Std.ExtTreeMap.mem_insert, Std.LawfulEqOrd.compare_eq_iff_eq]

/-- Placing an entry opens no shard and gives none up. -/
theorem Placement.mem_shards_iff (h : Placement s f e n reclaimed ownTurn c c' o)
    (opened : s ∈ c.shards) : t ∈ c'.shards ↔ t ∈ c.shards := by
  have same {c : Cache} {u : SiteId} {sh : Shard} (hu : u ∈ c.shards) :
      t ∈ (c.setShard u sh).shards ↔ t ∈ c.shards := by
    rw [mem_shards_setShard, or_iff_right_of_imp]
    rintro rfl
    exact hu
  induction h with
  | replaced present => exact same opened
  | vacant absent room => exact same opened
  | own absent tight turn named => exact same opened
  | elsewhere absent tight spared stalest rest ih =>
    obtain ⟨-, p, hp, -⟩ := stalestElsewhere?_eq_some stalest
    obtain ⟨v, x, -, hx, -⟩ := victimPriority?_eq_some_iff.mp (mem_candidates_iff.mp hp).2.1
    exact (ih (mem_shards_setShard.mpr (.inr opened))).trans (same (mem_shards_of_peek? hx))
  | ownNext absent tight spared stalest ranked rest ih => exact ih opened
  | noRoom absent tight spared stalest unranked => exact Iff.rfl
  | exhausted absent => exact Iff.rfl

/-- An insertion leaves behind a shard for its site, and all others stay. -/
theorem mem_shards_insertEntry :
    t ∈ (c.insertEntry s f e).cache.shards ↔ s = t ∨ t ∈ c.shards :=
  (insertEntry_placement.mem_shards_iff (mem_shards_setShard.mpr (.inl rfl))).trans
    mem_shards_setShard

end Cache

end CallMemo
