import CallMemo.Proofs.Cache.Insertion

/-!
# The effect of an insertion

The outcome of an insertion tells exactly what has become of every entry. With a policy that names
an entry of every shard that has one, an insertion adds or replaces its own entry, at most one other
entry gives way, all others stay as they are, and nothing is refused unless a bound is zero.
-/

namespace CallMemo

namespace Cache

/-- What an insertion of `e` under a context does, by its outcome. -/
structure Effect (c : Cache) (s : SiteId) (f : Fingerprint) (e : Entry) (i : Insertion) :
    Prop where
  /-- An entry is replaced exactly if the context had one. -/
  replaced_iff : i.outcome = .replaced ↔ c.contains s f = true
  /-- An entry that gives way was there and stands under another context. -/
  of_evicted : ∀ t v, i.outcome = .evicted t v → c.contains t v = true ∧ ¬ (s = t ∧ f = v)
  /-- Afterwards the context has the new entry unless that was refused, the entry that gave way is
  gone, and every other one is what it was. -/
  peek?_eq : ∀ t g, i.cache.peek? t g =
    if (s = t ∧ f = g) ∧ i.outcome ≠ .skipped then some e
    else if i.outcome = .evicted t g then none
    else c.peek? t g
  /-- The counter goes up exactly if a free place was taken. -/
  total_eq : i.cache.total = if i.outcome = .inserted then c.total + 1 else c.total
  /-- Nothing is refused if both bounds are positive. -/
  taken : 0 < c.limits.perSite → 0 < c.limits.total →
    i.outcome ≠ .skipped ∧ i.cache.contains s f = true
  /-- Another site loses an entry only if the site is not full and the cache is. -/
  of_foreign : ∀ t g, t ≠ s → c.contains t g = true → i.cache.contains t g = false →
    c.entryCount s < c.limits.perSite.toNat ∧ c.total = c.limits.total

variable {c c' : Cache} {s t : SiteId} {f g v : Fingerprint} {e : Entry} {o : InsertOutcome}
  {i : Insertion} {lost : List Context}

/-- What gives way stands in a shard. -/
theorem GivesWay.mem (h : GivesWay c s t v) (hp : c.policy.NamesMembers) : v ∈ c.shard t := by
  cases h with
  | full full named => exact hp _ _ named
  | own room crowded named stalest => exact hp _ _ named
  | elsewhere room crowded stalest => exact hp _ _ (stalestElsewhere?_eq_some stalest).1

/-- A site gives way to another one only if the cache is full and the other site is not. -/
theorem GivesWay.of_ne (h : GivesWay c s t v) (ht : t ≠ s) :
    c.entryCount s < c.limits.perSite.toNat ∧ c.total = c.limits.total := by
  cases h with
  | full full named => exact absurd rfl ht
  | own room crowded named stalest => exact absurd rfl ht
  | elsewhere room crowded stalest => exact ⟨room, crowded⟩

theorem entryCount_eq_zero (h : c.shard t = ∅) : c.entryCount t = 0 := by
  rw [entryCount, h, Std.ExtTreeMap.size_empty]

theorem size_eq_zero (h : ∀ t, c.shard t = ∅) : c.size = 0 := by
  rw [size, List.sum_eq_zero]
  intro n hn
  obtain ⟨t, -, rfl⟩ := List.mem_map.mp hn
  exact entryCount_eq_zero (h t)

/-- A policy that always decides leaves an insertion without a place only if a bound is zero. -/
theorem Refuses.bound_eq_zero (h : Refuses c s lost) (hc : Accounted c) (hp : c.policy.Decides) :
    c.limits.perSite = 0 ∨ c.limits.total = 0 := by
  cases h with
  | full full unnamed =>
    left
    rw [entryCount_eq_zero (hp.eq_empty unnamed), Nat.le_zero] at full
    exact UInt64.toNat_inj.mp full
  | crowded room crowded unnamed =>
    right
    rw [← crowded, ← UInt64.toNat_inj, hc.total_eq, size_eq_zero fun t => hp.eq_empty (unnamed t)]
    rfl

/-- Such a policy never lets other sites lose anything in vain. -/
theorem Refuses.eq_nil (h : Refuses c s lost) (hc : Accounted c) (hp : c.policy.Decides) :
    lost = [] := by
  cases h with
  | full full unnamed =>
    rw [entryCount_eq_zero (hp.eq_empty unnamed)] at full
    rw [attempts, reclaims_eq_nil_iff hp.namesMembers]
    intro t ht
    have hnone : (c.shard t).size = 0 := Nat.le_zero.mp ((hc.entryCount_le t).trans full)
    rw [Std.ExtTreeMap.eq_empty_iff_size_eq_zero.mpr hnone]
    exact hp.of_empty
  | crowded room crowded unnamed => rfl

/-- An insertion replaces an entry exactly if there is one under its fingerprint. -/
theorem Inserting.replaced_iff (h : Inserting s f e c c' o) : o = .replaced ↔ f ∈ c.shard s := by
  cases h with
  | replaced present => exact iff_of_true rfl present
  | inserted absent | evicted absent | skipped absent => exact iff_of_false (by simp) absent

/-- What is evicted gives way to a new fingerprint. -/
theorem Inserting.of_evicted (h : Inserting s f e c c' (.evicted t v)) :
    f ∉ c.shard s ∧ GivesWay c s t v := by
  cases h with
  | evicted absent gives => exact ⟨absent, gives⟩

/-- The counter goes up exactly if nothing had to leave. -/
theorem Inserting.total_eq (h : Inserting s f e c c' o) (taken : o ≠ .skipped) :
    c'.total = if o = .inserted then c.total + 1 else c.total := by
  cases h with
  | replaced present peek?_eq total_eq => exact total_eq
  | inserted absent room peek?_eq total_eq => exact total_eq
  | evicted absent gives peek?_eq total_eq => exact total_eq
  | skipped => exact absurd rfl taken

/-- The new entry is there, the evicted one is gone, and all others are what they were. -/
theorem Inserting.peek?_eq (h : Inserting s f e c c' o) (taken : o ≠ .skipped) (t : SiteId)
    (g : Fingerprint) :
    c'.peek? t g =
      if s = t ∧ f = g then some e else if o = .evicted t g then none else c.peek? t g := by
  cases h with
  | replaced present peek?_eq => simpa using peek?_eq t g
  | inserted absent room peek?_eq => simpa using peek?_eq t g
  | evicted absent gives peek?_eq => simpa using peek?_eq t g
  | skipped => exact absurd rfl taken

/-- An insertion that makes an entry give way removes that one and no other. -/
theorem Inserting.removed_iff (h : Inserting s f e c c' (.evicted t v))
    (hp : c.policy.NamesMembers) (u : SiteId) (g : Fingerprint) :
    c.contains u g = true ∧ c'.contains u g = false ↔ (u, g) = (t, v) := by
  obtain ⟨absent, gives⟩ := h.of_evicted
  have present : c.contains t v = true := Std.ExtTreeMap.contains_iff_mem.mpr (gives.mem hp)
  have hafter := h.peek?_eq (by simp) u g
  constructor
  · rintro ⟨before, after⟩
    rw [contains_eq_isSome, hafter] at after
    split at after
    · cases after
    · split at after
      · next evicted => cases evicted; rfl
      · rw [← contains_eq_isSome, before] at after
        cases after
  · intro hk
    cases hk
    refine ⟨present, ?_⟩
    rw [contains_eq_isSome, hafter, if_neg, if_pos rfl]
    · rfl
    · rintro ⟨rfl, rfl⟩
      exact absent (gives.mem hp)

/-- A refusal by a policy that always decides changes nothing. -/
theorem Inserting.of_skipped (h : Inserting s f e c c' .skipped) (hc : Accounted c)
    (hp : c.policy.Decides) :
    (c.limits.perSite = 0 ∨ c.limits.total = 0) ∧ (∀ t g, c'.peek? t g = c.peek? t g) ∧
      c'.total = c.total := by
  cases h with
  | @skipped lost absent refuses peek?_eq total_eq =>
    obtain rfl := refuses.eq_nil hc hp
    refine ⟨refuses.bound_eq_zero hc hp, fun t g => by simpa using peek?_eq t g, ?_⟩
    rw [← UInt64.toNat_inj]
    simpa using total_eq

/-- An insertion under a policy that always decides has its effect. -/
theorem Inserting.effect (h : Inserting s f e c i.cache i.outcome) (hc : Accounted c)
    (hp : c.policy.Decides) : Effect c s f e i := by
  have hpeek : ∀ t g, i.cache.peek? t g =
      if (s = t ∧ f = g) ∧ i.outcome ≠ .skipped then some e
      else if i.outcome = .evicted t g then none
      else c.peek? t g := by
    intro t g
    by_cases skipped : i.outcome = .skipped
    · rw [skipped] at h ⊢
      simpa using (h.of_skipped hc hp).2.1 t g
    · simpa [skipped] using h.peek?_eq skipped t g
  constructor
  case replaced_iff => exact h.replaced_iff.trans Std.ExtTreeMap.contains_iff_mem.symm
  case of_evicted =>
    intro t v evicted
    rw [evicted] at h
    obtain ⟨absent, gives⟩ := h.of_evicted
    have present := gives.mem hp.namesMembers
    refine ⟨Std.ExtTreeMap.contains_iff_mem.mpr present, ?_⟩
    rintro ⟨rfl, rfl⟩
    exact absent present
  case peek?_eq => exact hpeek
  case total_eq =>
    by_cases skipped : i.outcome = .skipped
    · rw [skipped] at h ⊢
      exact (h.of_skipped hc hp).2.2
    · exact h.total_eq skipped
  case taken =>
    intro hsite htotal
    have taken : i.outcome ≠ .skipped := by
      intro skipped
      rw [skipped] at h
      rcases (h.of_skipped hc hp).1 with hzero | hzero
      · exact UInt64.pos_iff_ne_zero.mp hsite hzero
      · exact UInt64.pos_iff_ne_zero.mp htotal hzero
    refine ⟨taken, ?_⟩
    rw [contains_eq_isSome, hpeek, if_pos ⟨⟨rfl, rfl⟩, taken⟩]
    rfl
  case of_foreign =>
    intro t g ht before after
    rw [contains_eq_isSome, hpeek, if_neg fun hk => ht hk.1.1.symm] at after
    split at after
    · next evicted =>
      rw [evicted] at h
      exact h.of_evicted.2.of_ne ht
    · rw [contains_eq_isSome] at before
      cases before.symm.trans after

/-- In every cache that calls can lead to, and under every policy that names an entry of each shard
that has one, an insertion replaces the entry of its context, takes a free place or makes exactly
one other entry give way; the new entry starts without confidence. -/
theorem insertion_effect (limits : Limits) (policy : EvictionPolicy) (hp : policy.Decides)
    (ops : List Op) (s : SiteId) (f : Fingerprint) (raw : List UInt64) (post : PostState)
    (hits : UInt64) :
    let c := run { limits, policy } ops
    Effect c s f ⟨raw, post, { lastUsed := c.clock, hits := 0, confidence := 0 }⟩
        (c.insert s f raw post) ∧
      Effect c s f ⟨raw, post, { lastUsed := 0, hits, confidence := 0 }⟩
        (c.insertCold s f raw post hits) := by
  intro c
  have hc : Accounted c := ((accounted_empty limits policy).run hp.namesMembers ops).1
  have hpolicy : c.policy.Decides := (run_settings (c := { limits, policy }) ops).2 ▸ hp
  exact ⟨(hc.inserting_insert hpolicy.namesMembers raw post).effect hc hpolicy,
    (hc.inserting_insertCold hpolicy.namesMembers raw post hits).effect hc hpolicy⟩

/-- Two sites fill a cache of three places; the restored entry of the second one ranks lowest. -/
def shared : List Op :=
  [.insert ⟨1⟩ ⟨1⟩ [1] { nextPc := 1 }, .insertCold ⟨2⟩ ⟨1⟩ [2] { nextPc := 2 } 4,
    .insert ⟨2⟩ ⟨2⟩ [3] { nextPc := 3 }, .lookup ⟨1⟩ ⟨1⟩]

/-- Where both bounds are reached the victim may belong to another site. -/
theorem insertion_effect_shared :
    let c := run { limits := ⟨2, 3⟩, policy := .leastRecentlyUsed } shared
    let i := c.insert ⟨3⟩ ⟨1⟩ [4] { nextPc := 4 }
    let j := c.insertCold ⟨3⟩ ⟨1⟩ [4] { nextPc := 4 } 9
    EvictionPolicy.leastRecentlyUsed.Decides ∧ i.outcome = .evicted ⟨2⟩ ⟨1⟩ ∧
      Effect c ⟨3⟩ ⟨1⟩
        ⟨[4], { nextPc := 4 }, { lastUsed := c.clock, hits := 0, confidence := 0 }⟩ i ∧
      Effect c ⟨3⟩ ⟨1⟩ ⟨[4], { nextPc := 4 }, { lastUsed := 0, hits := 9, confidence := 0 }⟩ j := by
  refine ⟨EvictionPolicy.leastRecentlyUsed_decides, by decide +kernel, ?_⟩
  exact insertion_effect ⟨2, 3⟩ .leastRecentlyUsed EvictionPolicy.leastRecentlyUsed_decides shared
    ⟨3⟩ ⟨1⟩ [4] { nextPc := 4 } 9

end Cache

end CallMemo
