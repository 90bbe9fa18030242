import CallMemo.Proofs.Cache.Accounting
import CallMemo.Proofs.Cache.Recency

/-!
# Reclaiming places

An insertion that finds no place asks for the stalest entry of another site. Where the place that
this frees is of no use, because the site itself is full and the policy spares all its entries, the
next attempt asks again. What goes away in this manner is one entry of another site for each
attempt, until no other site has a victim.
-/

namespace CallMemo

namespace Cache

variable {c d : Cache} {s t : SiteId} {f g v : Fingerprint} {own : Option Priority} {p : Priority}
  {n : Nat}

/-- A site offers no victim exactly if the policy names none. -/
theorem victimPriority?_eq_none_iff (hp : c.policy.NamesMembers) {sh : Shard} :
    c.victimPriority? sh = none ↔ c.policy.victim? sh = none := by
  constructor
  · intro h
    cases hv : c.policy.victim? sh with
    | none => rfl
    | some v =>
      have hmem := Std.ExtTreeMap.mem_iff_isSome_getElem?.mp (hp sh v hv)
      obtain ⟨x, hx⟩ := Option.isSome_iff_exists.mp hmem
      cases h.symm.trans (victimPriority?_eq_some_iff.mpr ⟨v, x, hv, hx, rfl⟩)
  · intro h
    simp [victimPriority?, h]

/-- The entry taken elsewhere is the victim of the one candidate that ranks lowest. -/
theorem stalestElsewhere?_eq_some_iff :
    c.stalestElsewhere? s own = some (t, f) ↔
      c.policy.victim? (c.shard t) = some f ∧
        ∃ p, (t, p) ∈ c.candidates s own ∧
          ∀ u q, (u, q) ∈ c.candidates s own → (⟨p, t.val⟩ : Rank) ≤ ⟨q, u.val⟩ := by
  refine ⟨stalestElsewhere?_eq_some, ?_⟩
  rintro ⟨hv, p, hp, hle⟩
  cases hfound : c.stalestElsewhere? s own with
  | none =>
    rw [stalestElsewhere?_eq_none_iff.mp hfound] at hp
    cases hp
  | some found =>
    obtain ⟨u, w⟩ := found
    obtain ⟨hw, q, hq, hle'⟩ := stalestElsewhere?_eq_some hfound
    obtain rfl : u = t := congrArg SiteId.mk (Rank.name_eq (hle' t p hp) (hle u q hq))
    rw [Option.some.inj (hw.symm.trans hv)]

/-- A site without a victim of its own is refused only if no other site has one either. -/
theorem stalestElsewhere?_none_eq_none_iff (hp : c.policy.NamesMembers) :
    c.stalestElsewhere? s none = none ↔ ∀ t, t ≠ s → c.policy.victim? (c.shard t) = none := by
  rw [stalestElsewhere?_eq_none_iff, List.eq_nil_iff_forall_not_mem]
  constructor
  · intro h t ht
    rw [← victimPriority?_eq_none_iff hp, Option.eq_none_iff_forall_ne_some]
    intro p hrank
    exact h (t, p) (mem_candidates_iff.mpr ⟨ht, hrank, by simp⟩)
  · rintro h ⟨t, p⟩ hmem
    obtain ⟨ht, hrank, -⟩ := mem_candidates_iff.mp hmem
    cases ((victimPriority?_eq_none_iff hp).mpr (h t ht)).symm.trans hrank

/-- An eviction touches one shard. -/
theorem shard_evict : (c.evict s v).shard t = if s = t then (c.shard s).erase v else c.shard t :=
  shard_setShard

/-- Two caches that differ at most in their clocks and in the sites that have an empty shard. -/
structure SameView (d c : Cache) : Prop where
  /-- The policies are the same. -/
  policy_eq : d.policy = c.policy
  /-- The bounds are the same. -/
  limits_eq : d.limits = c.limits
  /-- The counters are the same. -/
  total_eq : d.total = c.total
  /-- The sites read the same. -/
  shard_eq : ∀ t, d.shard t = c.shard t

namespace SameView

/-- Caches that show the same have the same entries. -/
theorem peek?_eq (h : SameView d c) (t : SiteId) (g : Fingerprint) :
    d.peek? t g = c.peek? t g := by
  rw [peek?, h.shard_eq, peek?]

theorem entryCount_eq (h : SameView d c) (t : SiteId) : d.entryCount t = c.entryCount t := by
  rw [entryCount, h.shard_eq, entryCount]

theorem tight_iff (h : SameView d c) : d.Tight s ↔ c.Tight s := by
  rw [Tight, Tight, h.limits_eq, h.total_eq, h.shard_eq]

/-- Their sites offer the same victims. -/
theorem victimPriority?_eq (h : SameView d c) (sh : Shard) :
    d.victimPriority? sh = c.victimPriority? sh := by
  rw [victimPriority?, h.policy_eq, victimPriority?]

theorem stalestElsewhere?_eq (h : SameView d c) :
    d.stalestElsewhere? s own = c.stalestElsewhere? s own := by
  apply Option.ext
  rintro ⟨t, f⟩
  simp only [stalestElsewhere?_eq_some_iff, mem_candidates_iff, h.victimPriority?_eq, h.policy_eq,
    h.shard_eq]

/-- Evictions leave them showing the same. -/
theorem evict (h : SameView d c) (t : SiteId) (v : Fingerprint) :
    SameView (d.evict t v) (c.evict t v) where
  policy_eq := h.policy_eq
  limits_eq := h.limits_eq
  total_eq := congrArg (· - 1) h.total_eq
  shard_eq u := by rw [shard_evict, shard_evict, h.shard_eq, h.shard_eq]

end SameView

/-- The contexts that `n` attempts in a row take from other sites if none of them is of use. -/
def reclaims (c : Cache) (s : SiteId) : Nat → List Context
  | 0 => []
  | n + 1 =>
    match c.stalestElsewhere? s none with
    | none => []
    | some (t, v) => (t, v) :: (c.evict t v).reclaims s n

/-- Evicts contexts one after another. -/
def evictAll (c : Cache) : List Context → Cache
  | [] => c
  | (t, v) :: rest => (c.evict t v).evictAll rest

/-- What is evicted is gone, and nothing else is. -/
theorem peek?_evictAll {l : List Context} :
    (c.evictAll l).peek? t g = if (t, g) ∈ l then none else c.peek? t g := by
  induction l generalizing c with
  | nil => simp [evictAll]
  | cons x rest ih =>
    obtain ⟨u, w⟩ := x
    rw [evictAll, ih, peek?_evict]
    by_cases hrest : (t, g) ∈ rest
    · rw [if_pos hrest, if_pos (List.mem_cons_of_mem _ hrest)]
    · simp only [hrest, if_false, List.mem_cons, or_false, Prod.mk.injEq, eq_comm]

/-- An attempt takes one entry at most. -/
theorem length_reclaims_le : (c.reclaims s n).length ≤ n := by
  induction n generalizing c with
  | zero => simp [reclaims]
  | succ n ih =>
    rw [reclaims]
    split
    · exact Nat.zero_le _
    · exact Nat.succ_le_succ ih

/-- Something is taken exactly if another site has a victim. -/
theorem reclaims_eq_nil_iff (hp : c.policy.NamesMembers) :
    c.reclaims s (n + 1) = [] ↔ ∀ t, t ≠ s → c.policy.victim? (c.shard t) = none := by
  rw [← stalestElsewhere?_none_eq_none_iff hp, reclaims]
  cases c.stalestElsewhere? s none with
  | none => simp
  | some found => simp

/-- The same is reclaimed of caches that show the same. -/
theorem SameView.reclaims_eq (h : SameView d c) : d.reclaims s n = c.reclaims s n := by
  induction n generalizing c d with
  | zero => rfl
  | succ n ih =>
    rw [reclaims, reclaims, h.stalestElsewhere?_eq]
    split
    · rfl
    · next t v _ => rw [ih (h.evict t v)]

/-- What is taken are entries of other sites. -/
theorem of_mem_reclaims (hp : c.policy.NamesMembers) {x : Context} (hx : x ∈ c.reclaims s n) :
    x.1 ≠ s ∧ x.2 ∈ c.shard x.1 := by
  induction n generalizing c with
  | zero => cases hx
  | succ n ih =>
    rw [reclaims] at hx
    split at hx
    · cases hx
    · next t v hfound =>
      rcases List.mem_cons.mp hx with rfl | hrest
      · exact ⟨ne_of_stalestElsewhere? hfound, hp _ _ (stalestElsewhere?_eq_some hfound).1⟩
      · obtain ⟨hne, hmem⟩ := ih (c := c.evict t v) hp hrest
        refine ⟨hne, ?_⟩
        rw [shard_evict] at hmem
        split at hmem
        · next ht =>
          subst ht
          exact Std.ExtTreeMap.mem_of_mem_erase hmem
        · exact hmem

/-- Nothing is taken twice. -/
theorem nodup_reclaims (hp : c.policy.NamesMembers) : (c.reclaims s n).Nodup := by
  induction n generalizing c with
  | zero => exact List.nodup_nil
  | succ n ih =>
    rw [reclaims]
    split
    · exact List.nodup_nil
    · next t v hfound =>
      refine List.nodup_cons.mpr ⟨fun hagain => ?_, ih (c := c.evict t v) hp⟩
      obtain ⟨-, hmem⟩ := of_mem_reclaims (c := c.evict t v) hp hagain
      rw [shard_evict, if_pos rfl, Std.ExtTreeMap.mem_erase] at hmem
      exact hmem.1 Std.ReflCmp.compare_self

/-- Every entry taken is counted. -/
theorem Accounted.reclaims (hc : Accounted c) (hp : c.policy.NamesMembers) :
    (c.evictAll (c.reclaims s n)).total.toNat + (c.reclaims s n).length = c.total.toNat := by
  induction n generalizing c with
  | zero => rfl
  | succ n ih =>
    rw [Cache.reclaims]
    split
    · rfl
    · next t v hfound =>
      obtain ⟨hpos, hevict⟩ := hc.evict (hp _ _ (stalestElsewhere?_eq_some hfound).1)
      have hone : 1 ≤ c.total.toNat := by
        rw [Nat.one_le_iff_ne_zero, ne_eq, ← UInt64.toNat_zero, UInt64.toNat_inj]
        exact hpos
      have hcut : (c.evict t v).total.toNat = c.total.toNat - 1 :=
        UInt64.toNat_sub_of_le _ _ (UInt64.le_iff_toNat_le.mpr hone)
      have hrest := ih hevict hp
      rw [evictAll, List.length_cons]
      omega

end Cache

end CallMemo
