import CallMemo.Proofs.Cache.Accounting
import CallMemo.Proofs.Cache.Recency

/-!
# The queue behind a cache

The contexts of a cache in the order of their last uses, the longest unused first. The queue has the
numbers of the cache. With the default policy, the victim of a site is the first of its contexts,
and the entry that a full cache gives up is the first of all.
-/

namespace CallMemo

open Recency

/-- A list of the contexts that have a stamp, by ascending stamps. -/
structure Queue (stamp? : Context → Option UInt64) (q : List Context) : Prop where
  /-- The list holds the contexts with a stamp. -/
  mem_iff : ∀ x, x ∈ q ↔ (stamp? x).isSome
  /-- Stamps ascend strictly. -/
  ordered : q.Pairwise fun x y => ∀ a ∈ stamp? x, ∀ b ∈ stamp? y, a < b

namespace Queue

variable {stamp? stamp?' : Context → Option UInt64} {q l : List Context} {x y : Context}
  {n a b : UInt64}

/-- Every context of the queue has a stamp. -/
theorem exists_stamp (h : Queue stamp? q) (hx : x ∈ q) : ∃ a, stamp? x = some a :=
  Option.isSome_iff_exists.mp ((h.mem_iff x).mp hx)

/-- No context is listed twice, since its stamp would have to ascend. -/
theorem nodup (h : Queue stamp? q) : q.Nodup := by
  refine h.ordered.imp_of_mem fun {x y} hx _ hxy => ?_
  rintro rfl
  obtain ⟨a, ha⟩ := h.exists_stamp hx
  exact UInt64.lt_irrefl a (hxy a ha a ha)

/-- A context without a stamp is no longer listed. -/
theorem without (h : Queue stamp? q)
    (hst : ∀ y, stamp?' y = if y = x then none else stamp? y) : Queue stamp?' (q.erase x) where
  mem_iff y := by
    rw [h.nodup.mem_erase_iff, h.mem_iff y, hst]
    split
    · next hy => simp [hy]
    · next hy => simp [hy]
  ordered := by
    refine (h.ordered.sublist List.erase_sublist).imp fun {y z} hyz a ha b hb => ?_
    rw [hst] at ha hb
    split at ha
    · cases ha
    · split at hb
      · cases hb
      · exact hyz a ha b hb

/-- Taking a context away leaves the other stamps below the bound. -/
theorem stamp_lt_of_without (hn : ∀ y, ∀ a ∈ stamp? y, a < n)
    (hst : ∀ y, stamp?' y = if y = x then none else stamp? y) : ∀ y, ∀ a ∈ stamp?' y, a < n := by
  intro y a ha
  rw [hst] at ha
  split at ha
  · cases ha
  · exact hn y a ha

/-- A context with the highest stamp is listed last. -/
theorem renew (h : Queue stamp? q) (hn : ∀ y, ∀ a ∈ stamp? y, a < n)
    (hst : ∀ y, stamp?' y = if y = x then some n else stamp? y) :
    Queue stamp?' (q.erase x ++ [x]) where
  mem_iff y := by
    rw [List.mem_append, h.nodup.mem_erase_iff, h.mem_iff y, List.mem_singleton, hst]
    split
    · next hy => simp [hy]
    · next hy => simp [hy]
  ordered := by
    rw [List.pairwise_append]
    refine ⟨?_, List.pairwise_singleton _ _, ?_⟩
    · refine (h.ordered.sublist List.erase_sublist).imp_of_mem fun {y z} hy hz hyz a ha b hb => ?_
      rw [hst, if_neg (h.nodup.mem_erase_iff.mp hy).1] at ha
      rw [hst, if_neg (h.nodup.mem_erase_iff.mp hz).1] at hb
      exact hyz a ha b hb
    · intro y hy z hz a ha b hb
      rw [List.mem_singleton.mp hz, hst, if_pos rfl] at hb
      rw [hst, if_neg (h.nodup.mem_erase_iff.mp hy).1] at ha
      exact Option.some.inj hb ▸ hn y a ha

/-- The first context has the lowest stamp. -/
theorem lt_of_mem (h : Queue stamp? (x :: q)) (hy : y ∈ q) (ha : stamp? x = some a)
    (hb : stamp? y = some b) : a < b :=
  (List.pairwise_cons.mp h.ordered).1 y hy a ha b hb

end Queue

namespace Cache

variable {c : Cache} {s t : SiteId} {f v : Fingerprint} {q : List Context} {x y : Context}

/-- The last use of a context, if it is in the cache. -/
def stamp? (c : Cache) (x : Context) : Option UInt64 := (c.peek? x.1 x.2).map (·.usage.lastUsed)

/-- The queue holds the contexts that have an entry. -/
theorem mem_queue_iff (h : Queue c.stamp? q) : (s, f) ∈ q ↔ f ∈ c.shard s := by
  rw [h.mem_iff, stamp?, Option.isSome_map, peek?, Std.ExtTreeMap.mem_iff_isSome_getElem?]

/-- A site has as many contexts in the queue as entries. -/
theorem siteCount_queue (h : Queue c.stamp? q) : siteCount s q = c.entryCount s := by
  have hkeys : ((c.shard s).keys.map fun f => (s, f)).Perm (q.filter (·.1 = s)) := by
    rw [List.perm_ext_iff_of_nodup
      (Std.ExtTreeMap.nodup_keys.map fun f g hfg => (Prod.mk.inj hfg).2) (h.nodup.filter _)]
    rintro ⟨t, f⟩
    simp only [List.mem_map, Std.ExtTreeMap.mem_keys, List.mem_filter, decide_eq_true_eq,
      mem_queue_iff h, Prod.mk.injEq]
    constructor
    · rintro ⟨g, hg, rfl, rfl⟩
      exact ⟨hg, rfl⟩
    · rintro ⟨hf, rfl⟩
      exact ⟨f, hf, rfl, rfl⟩
  rw [siteCount, List.countP_eq_length_filter, ← hkeys.length_eq, List.length_map,
    Std.ExtTreeMap.length_keys, entryCount]

/-- The queue is as long as the cache is large. -/
theorem length_queue (h : Queue c.stamp? q) : q.length = c.size := by
  let S : Finset SiteId := c.sites.toFinset ∪ (q.map Prod.fst).toFinset
  have hq : ∀ y ∈ q, y.1 ∈ S := fun y hy =>
    Finset.mem_union_right _ (List.mem_toFinset.mpr (List.mem_map_of_mem hy))
  have hc : ∀ t ∈ c.sites, t ∈ S := fun t ht =>
    Finset.mem_union_left _ (List.mem_toFinset.mpr ht)
  rw [← sum_siteCount hq, size_eq_sum hc]
  exact Finset.sum_congr rfl fun t _ => siteCount_queue h

/-- The victim of a site is the first of its contexts. -/
theorem victim_queue (hp : c.policy = .leastRecentlyUsed) (h : Queue c.stamp? q)
    (hv : c.policy.victim? (c.shard s) = some v) :
    ∃ older newer, q = older ++ (s, v) :: newer ∧ ∀ z ∈ older, z.1 ≠ s := by
  rw [hp] at hv
  obtain ⟨e, he, hmin⟩ := EvictionPolicy.lastUsed_victim_le hv
  have hmem : (s, v) ∈ q :=
    (mem_queue_iff h).mpr (EvictionPolicy.leastRecentlyUsed_namesMembers _ _ hv)
  obtain ⟨older, newer, rfl⟩ := List.append_of_mem hmem
  refine ⟨older, newer, rfl, ?_⟩
  -- an older context of the site would have been a better victim
  rintro ⟨t, g⟩ hz rfl
  obtain ⟨a, ha⟩ := h.exists_stamp (List.mem_append_left _ hz)
  have hlt := (List.pairwise_append.mp h.ordered).2.2 _ hz _ List.mem_cons_self a ha
    e.usage.lastUsed (by simp [stamp?, peek?, he])
  obtain ⟨x, hx, rfl⟩ := Option.map_eq_some_iff.mp ha
  exact UInt64.not_lt.mpr (hmin g x hx) hlt

/-- The oldest context of a site is that of its victim. -/
theorem eraseP_queue (hp : c.policy = .leastRecentlyUsed) (h : Queue c.stamp? q)
    (hv : c.policy.victim? (c.shard s) = some v) : q.eraseP (·.1 = s) = q.erase (s, v) := by
  obtain ⟨older, newer, rfl, hold⟩ := victim_queue hp h hv
  have hout : (s, v) ∉ older := fun hmem => hold _ hmem rfl
  rw [List.eraseP_append_right _ (by simpa using hold), List.eraseP_cons_of_pos (by simp),
    List.erase_append_right _ hout, List.erase_cons_head]

/-- The first of all contexts is the victim of its site. -/
theorem victim_head (hp : c.policy = .leastRecentlyUsed) (h : Queue c.stamp? (x :: q)) :
    c.policy.victim? (c.shard x.1) = some x.2 := by
  obtain ⟨v, hv⟩ := EvictionPolicy.exists_victim ((mem_queue_iff h).mp List.mem_cons_self)
  rw [← hp] at hv
  obtain ⟨older, newer, hq, hold⟩ := victim_queue hp h hv
  cases older with
  | nil =>
    obtain ⟨hx, -⟩ := List.cons.inj hq
    rw [hv, hx]
  | cons z older =>
    obtain ⟨rfl, -⟩ := List.cons.inj hq
    exact absurd rfl (hold x List.mem_cons_self)

/-- A site that is ranked is so by the last use of its victim. -/
theorem stamp?_of_victimPriority? {p : Priority} (hp : c.policy = .leastRecentlyUsed)
    (h : c.victimPriority? (c.shard t) = some p) :
    ∃ v, c.policy.victim? (c.shard t) = some v ∧ c.stamp? (t, v) = some p.major := by
  obtain ⟨v, e, hv, he, rfl⟩ := victimPriority?_eq_some_iff.mp h
  refine ⟨v, hv, ?_⟩
  rw [stamp?, peek?, he, hp]
  rfl

/-- Victims of other sites were used later than the first of all contexts. -/
theorem stamp_head_lt {p : Priority} {a : UInt64} (hp : c.policy = .leastRecentlyUsed)
    (h : Queue c.stamp? (x :: q)) (ha : c.stamp? x = some a) (ht : t ≠ x.1)
    (hrank : c.victimPriority? (c.shard t) = some p) : a < p.major := by
  obtain ⟨v, -, hstamp⟩ := stamp?_of_victimPriority? hp hrank
  have hmem : (t, v) ∈ x :: q := (h.mem_iff _).mpr (Option.isSome_of_eq_some hstamp)
  rcases List.mem_cons.mp hmem with rfl | hmem
  · exact absurd rfl ht
  · exact h.lt_of_mem hmem ha hstamp

/-- The head of the queue is the victim of its site. -/
theorem victimPriority?_head (hp : c.policy = .leastRecentlyUsed) (h : Queue c.stamp? (x :: q)) :
    ∃ p, c.victimPriority? (c.shard x.1) = some p ∧ c.stamp? x = some p.major := by
  obtain ⟨a, ha⟩ := h.exists_stamp List.mem_cons_self
  obtain ⟨e, he, -⟩ := Option.map_eq_some_iff.mp ha
  have hrank : c.victimPriority? (c.shard x.1) = some (c.policy.priority e) :=
    victimPriority?_eq_some_iff.mpr ⟨x.2, e, victim_head hp h, he, rfl⟩
  obtain ⟨v, hv, hstamp⟩ := stamp?_of_victimPriority? hp hrank
  rw [victim_head hp h, Option.some.injEq] at hv
  subst hv
  exact ⟨_, hrank, hstamp⟩

/-- A site that does not own the first of all contexts is offered that one. -/
theorem stalestElsewhere?_of_ne (hp : c.policy = .leastRecentlyUsed)
    (h : Queue c.stamp? (x :: q)) (hs : x.1 ≠ s) :
    c.stalestElsewhere? s (c.victimPriority? (c.shard s)) = some x := by
  obtain ⟨p, hrank, hstamp⟩ := victimPriority?_head hp h
  have hcandidate : (x.1, p) ∈ c.candidates s (c.victimPriority? (c.shard s)) :=
    mem_candidates_iff.mpr ⟨hs, hrank, fun r hr => .inl (stamp_head_lt hp h hstamp hs.symm hr)⟩
  cases hfound : c.stalestElsewhere? s (c.victimPriority? (c.shard s)) with
  | none =>
    rw [stalestElsewhere?_eq_none_iff.mp hfound] at hcandidate
    cases hcandidate
  | some y =>
    obtain ⟨hvictim, r, hr, hmin⟩ := stalestElsewhere?_eq_some (t := y.1) (f := y.2) hfound
    by_cases hxy : y.1 = x.1
    · rw [hxy, victim_head hp h, Option.some.injEq] at hvictim
      rw [Prod.ext hxy hvictim.symm]
    · have hlt := stamp_head_lt hp h hstamp hxy (mem_candidates_iff.mp hr).2.1
      exact absurd (.inl (.inl hlt)) (hmin _ _ hcandidate)

/-- The owner of the first of all contexts is not offered anything. -/
theorem stalestElsewhere?_of_eq (hp : c.policy = .leastRecentlyUsed)
    (h : Queue c.stamp? (x :: q)) :
    c.stalestElsewhere? x.1 (c.victimPriority? (c.shard x.1)) = none := by
  obtain ⟨p, hrank, hstamp⟩ := victimPriority?_head hp h
  rw [stalestElsewhere?_eq_none_iff, List.eq_nil_iff_forall_not_mem]
  rintro ⟨t, r⟩ hr
  obtain ⟨ht, hother, hbelow⟩ := mem_candidates_iff.mp hr
  have hlt := stamp_head_lt hp h hstamp ht hother
  rcases hbelow p hrank with hless | ⟨heq, -⟩
  · exact UInt64.lt_asymm hlt hless
  · exact UInt64.lt_irrefl _ (heq ▸ hlt)

end Cache

end CallMemo
