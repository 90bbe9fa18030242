import Mathlib
import CallMemo.Proofs.Cache.LeastRecent
import CallMemo.Proofs.Cache.Run

/-!
# Accounting

The counter kept beside the shards is exact after every call, the bounds hold, and no call ever
lowers the counter below zero. The policy may decline to name a victim but must not name an entry
that is not there. Lowering the counter is described a second time by calls that stop instead of
going below zero; a run of these never stops and gives the same caches.
-/

namespace CallMemo

/-- A new entry makes a shard larger by one. -/
theorem Shard.size_insert_of_absent {sh : Shard} {fp : Fingerprint} {e : Entry} (h : fp ∉ sh) :
    (sh.insert fp e).size = sh.size + 1 := by
  rw [Std.ExtTreeMap.size_insert, if_neg (mt Std.ExtTreeMap.contains_iff_mem.mp h)]

/-- An entry in place of another leaves the size as it is. -/
theorem Shard.size_insert_of_present {sh : Shard} {fp : Fingerprint} {e : Entry} (h : fp ∈ sh) :
    (sh.insert fp e).size = sh.size := by
  rw [Std.ExtTreeMap.size_insert, if_pos (Std.ExtTreeMap.contains_iff_mem.mpr h)]

/-- Taking an entry away makes a shard smaller by one. -/
theorem Shard.size_erase_of_present {sh : Shard} {fp : Fingerprint} (h : fp ∈ sh) :
    (sh.erase fp).size + 1 = sh.size := by
  have hpos : 0 < sh.size := by
    rw [Nat.pos_iff_ne_zero, ne_eq, ← Std.ExtTreeMap.eq_empty_iff_size_eq_zero]
    exact Std.ExtTreeMap.ne_empty_of_mem h
  rw [Std.ExtTreeMap.size_erase, if_pos (Std.ExtTreeMap.contains_iff_mem.mpr h)]
  omega

namespace Cache

variable {c c' : Cache} {site : SiteId} {fp : Fingerprint} {e : Entry}

/-- The number of entries of all shards together. -/
def size (c : Cache) : Nat := (c.sites.map c.entryCount).sum

/-- Sites outside the shards have no entries, so any larger set of sites gives the same sum. -/
theorem size_eq_sum {S : Finset SiteId} (hS : ∀ t ∈ c.sites, t ∈ S) :
    c.size = ∑ t ∈ S, c.entryCount t := by
  have hnodup : c.sites.Nodup := Std.ExtTreeMap.nodup_keys
  rw [size, ← List.sum_toFinset _ hnodup]
  refine Finset.sum_subset (fun t ht => hS t (List.mem_toFinset.mp ht)) fun t _ ht => ?_
  rw [List.mem_toFinset, sites, Std.ExtTreeMap.mem_keys] at ht
  rw [entryCount, shard_eq_empty (Std.ExtTreeMap.getElem?_eq_none ht), Std.ExtTreeMap.size_empty]

/-- Sites without entries do not count. -/
theorem size_eq_sum_of_support {S : Finset SiteId} (hS : ∀ t ∉ S, c.entryCount t = 0) :
    c.size = ∑ t ∈ S, c.entryCount t := by
  rw [size_eq_sum fun t ht => Finset.mem_union_right S (List.mem_toFinset.mpr ht)]
  exact (Finset.sum_subset Finset.subset_union_left fun t _ ht => hS t ht).symm

/-- Some of the sites have no more entries than all together. -/
theorem sum_entryCount_le_size (c : Cache) (S : Finset SiteId) :
    ∑ t ∈ S, c.entryCount t ≤ c.size := by
  rw [size_eq_sum fun t ht => Finset.mem_union_right S (List.mem_toFinset.mpr ht)]
  exact Finset.sum_le_sum_of_subset Finset.subset_union_left

/-- Replacing a shard trades its entries for those of the new one. -/
theorem size_setShard (c : Cache) (site : SiteId) (sh : Shard) :
    (c.setShard site sh).size + c.entryCount site = c.size + sh.size := by
  let S : Finset SiteId := Insert.insert site c.sites.toFinset
  have hsite : site ∈ S := Finset.mem_insert_self ..
  have hc : c.size = ∑ t ∈ S, c.entryCount t :=
    size_eq_sum fun t ht => Finset.mem_insert_of_mem (List.mem_toFinset.mpr ht)
  have hc' : (c.setShard site sh).size = ∑ t ∈ S, (c.setShard site sh).entryCount t := by
    refine size_eq_sum fun t ht => ?_
    have hmem : t ∈ c.shards.insert site sh := Std.ExtTreeMap.mem_keys.mp ht
    rw [Std.ExtTreeMap.mem_insert, Std.LawfulEqOrd.compare_eq_iff_eq] at hmem
    rcases hmem with rfl | hmem
    · exact hsite
    · exact Finset.mem_insert_of_mem (List.mem_toFinset.mpr (Std.ExtTreeMap.mem_keys.mpr hmem))
  have hrest : ∑ t ∈ S.erase site, (c.setShard site sh).entryCount t =
      ∑ t ∈ S.erase site, c.entryCount t := by
    refine Finset.sum_congr rfl fun t ht => ?_
    rw [entryCount, entryCount, shard_setShard_of_ne (Finset.ne_of_mem_erase ht).symm]
  rw [hc, hc', ← Finset.add_sum_erase S _ hsite, ← Finset.add_sum_erase S _ hsite, hrest,
    entryCount, shard_setShard_self]
  omega

/-- No site has more entries than the cache. -/
theorem entryCount_le_size (c : Cache) (site : SiteId) : c.entryCount site ≤ c.size := by
  have h := c.sum_entryCount_le_size {site}
  rwa [Finset.sum_singleton] at h

/-- The counter is exact and the bounds hold. -/
structure Accounted (c : Cache) : Prop where
  /-- The counter is the number of entries. -/
  total_eq : c.total.toNat = c.size
  /-- No site holds too many entries. -/
  entryCount_le : ∀ t, c.entryCount t ≤ c.limits.perSite.toNat
  /-- All sites together do not hold too many entries. -/
  total_le : c.total ≤ c.limits.total

theorem size_empty {limits : Limits} {policy : EvictionPolicy} :
    ({ limits, policy } : Cache).size = 0 := by
  simp [size, sites, Std.ExtTreeMap.keys_eq_nil_iff.mpr]

/-- The accounts of an empty cache add up. -/
theorem accounted_empty (limits : Limits) (policy : EvictionPolicy) :
    Accounted { limits, policy } where
  total_eq := by simp [size_empty]
  entryCount_le t := by simp [entryCount, shard_eq_empty]
  total_le := by simp [UInt64.le_iff_toNat_le]

/-- A shard may be replaced by one of another size if the counter follows. -/
theorem Accounted.setShard (hc : Accounted c) {sh : Shard} {total : UInt64}
    (hsize : sh.size ≤ c.limits.perSite.toNat) (hlimit : total ≤ c.limits.total)
    (htotal : total.toNat + c.entryCount site = c.total.toNat + sh.size) :
    Accounted { c.setShard site sh with total } where
  total_eq := by
    have hs := c.size_setShard site sh
    have hold := hc.total_eq
    change total.toNat = (c.setShard site sh).size
    omega
  entryCount_le t := by
    change ((c.setShard site sh).shard t).size ≤ c.limits.perSite.toNat
    rw [shard_setShard]
    split
    · exact hsize
    · exact hc.entryCount_le t
  total_le := hlimit

/-- Giving a site a shard, if it has none, keeps the accounts. -/
theorem Accounted.openShard (hc : Accounted c) (site : SiteId) :
    Accounted (c.setShard site (c.shard site)) :=
  hc.setShard (hc.entryCount_le site) hc.total_le rfl

/-- Rewriting an entry in its place keeps the accounts. -/
theorem Accounted.rewrite (hc : Accounted c) (present : fp ∈ c.shard site) :
    Accounted (c.setShard site ((c.shard site).insert fp e)) := by
  have hsize : ((c.shard site).insert fp e).size = c.entryCount site :=
    Shard.size_insert_of_present present
  exact hc.setShard (hsize ▸ hc.entryCount_le site) hc.total_le (by omega)

/-- An eviction elsewhere takes one entry off a counter that is not zero. -/
theorem Accounted.evict (hc : Accounted c) (present : fp ∈ c.shard site) :
    c.total ≠ 0 ∧ Accounted (c.evict site fp) := by
  have hsize : ((c.shard site).erase fp).size + 1 = c.entryCount site :=
    Shard.size_erase_of_present present
  have hle := c.entryCount_le_size site
  have htotal := hc.total_eq
  have hone : (1 : UInt64) ≤ c.total := by
    rw [UInt64.le_iff_toNat_le, UInt64.toNat_one]
    omega
  have hsub : (c.total - 1).toNat = c.total.toNat - 1 := UInt64.toNat_sub_of_le _ _ hone
  refine ⟨fun h0 => by simp [h0] at htotal; omega, hc.setShard ?_ ?_ (by omega)⟩
  · have := hc.entryCount_le site
    omega
  · have := UInt64.le_iff_toNat_le.mp hc.total_le
    rw [UInt64.le_iff_toNat_le]
    omega

/-- An entry in a free place is counted. -/
theorem Accounted.vacant (hc : Accounted c) (absent : fp ∉ c.shard site)
    (room : ¬ c.Tight site) :
    Accounted { c.setShard site ((c.shard site).insert fp e) with total := c.total + 1 } := by
  obtain ⟨hroom, hfree⟩ := not_tight_iff.mp room
  have hsize := Shard.size_insert_of_absent (e := e) absent
  have hlt := UInt64.lt_iff_toNat_lt.mp hfree
  have htotal : (c.total + 1).toNat = c.total.toNat + 1 := by
    have := c.limits.total.toNat_lt
    rw [UInt64.toNat_add, UInt64.toNat_one, Nat.mod_eq_of_lt (by omega)]
  refine hc.setShard (by omega) ?_ (by rw [entryCount]; omega)
  rw [UInt64.le_iff_toNat_le]
  omega

/-- Placing an entry keeps the accounts, whatever the attempts. -/
theorem Accounted.placement {n : Nat} {reclaimed : Option (SiteId × Fingerprint)}
    {ownTurn : Bool} {outcome : InsertOutcome} (hc : Accounted c)
    (hp : c.policy.NamesMembers) (h : Placement site fp e n reclaimed ownTurn c c' outcome) :
    Accounted c' := by
  induction h with
  | replaced present => exact hc.rewrite present
  | vacant absent room => exact hc.vacant absent room
  | @own n reclaimed ownTurn c victim absent tight turn named =>
    have hsize : (((c.shard site).erase victim).insert fp e).size = c.entryCount site := by
      rw [Shard.size_insert_of_absent fun h => absent (Std.ExtTreeMap.mem_of_mem_erase h),
        Shard.size_erase_of_present (hp _ _ named), entryCount]
    exact hc.setShard (hsize ▸ hc.entryCount_le site) hc.total_le (by omega)
  | elsewhere absent tight spared stalest rest ih =>
    exact ih (hc.evict (hp _ _ (stalestElsewhere?_eq_some stalest).1)).2 hp
  | ownNext absent tight spared stalest ranked rest ih => exact ih hc hp
  | noRoom absent tight spared stalest unranked => exact hc
  | exhausted absent => exact hc

/-- The accounts add up after an insertion, if the policy names entries of the shard. -/
theorem Accounted.insertEntry (hc : Accounted c) (hp : c.policy.NamesMembers) :
    Accounted (c.insertEntry site fp e).cache :=
  (hc.openShard site).placement hp insertEntry_placement

/-- The clock does not enter into the accounts. -/
theorem Accounted.setClock (hc : Accounted c) (clock : UInt64) : Accounted { c with clock } :=
  ⟨hc.total_eq, hc.entryCount_le, hc.total_le⟩

/-- An entry that is found stands in the shard of its site. -/
theorem mem_shard_of_peek? (h : c.peek? site fp = some e) : fp ∈ c.shard site := by
  rw [Std.ExtTreeMap.mem_iff_isSome_getElem?]
  exact Option.isSome_of_eq_some h

/-- A lookup changes no number. -/
theorem Accounted.lookup (hc : Accounted c) : Accounted (c.lookup site fp).2 := by
  cases h : c.peek? site fp with
  | none => rwa [lookup_of_none h]
  | some e =>
    rw [lookup_of_some h]
    exact (hc.rewrite (mem_shard_of_peek? h)).setClock _

theorem Accounted.confirm (hc : Accounted c) : Accounted (c.confirm site fp).2 := by
  cases h : c.peek? site fp with
  | none => rwa [confirm_of_none h]
  | some e =>
    rw [confirm_of_some h]
    exact hc.rewrite (mem_shard_of_peek? h)

/-- Taking the entries of one or all shards off the counter leaves the exact difference. -/
theorem Accounted.toNat_total_sub (hc : Accounted c) {n : Nat} (hn : n ≤ c.size) :
    (c.total - n.toUInt64).toNat = c.size - n := by
  have htotal := hc.total_eq
  have hlt := c.total.toNat_lt
  have hmod : n.toUInt64.toNat = n := by
    rw [Nat.toUInt64, UInt64.toNat_ofNat', Nat.mod_eq_of_lt (by omega)]
  rw [UInt64.toNat_sub_of_le _ _ (by rw [UInt64.le_iff_toNat_le]; omega), hmod, htotal]

/-- What is dropped is subtracted. -/
theorem Accounted.invalidate (hc : Accounted c) : Accounted (c.invalidate site).2 := by
  cases h : c.shards[site]? with
  | none => rwa [invalidate_of_none h]
  | some sh =>
    rw [invalidate_of_some h]
    have hcount : c.entryCount site = sh.size := by rw [entryCount, shard_eq_of_getElem? h]
    have hle := c.entryCount_le_size site
    have hsub := hc.toNat_total_sub (hcount ▸ hle)
    have htotal := hc.total_eq
    refine hc.setShard (by simp) ?_ (by rw [Std.ExtTreeMap.size_empty]; omega)
    have := UInt64.le_iff_toNat_le.mp hc.total_le
    rw [UInt64.le_iff_toNat_le]
    omega

/-- Adding the sizes of the shards up gives the size of the cache. -/
theorem foldl_size : c.shards.foldl (fun n _ shard => n + shard.size) 0 = c.size := by
  have hsum : ∀ (l : List (SiteId × Shard)) (n : Nat),
      (∀ p ∈ l, c.shards[p.1]? = some p.2) →
      l.foldl (fun n p => n + p.2.size) n = n + ((l.map Prod.fst).map c.entryCount).sum := by
    intro l
    induction l with
    | nil => simp
    | cons p rest ih =>
      intro n hl
      have hp : c.entryCount p.1 = p.2.size := by
        rw [entryCount, shard_eq_of_getElem? (hl p List.mem_cons_self)]
      rw [List.foldl_cons, ih _ fun q hq => hl q (List.mem_cons_of_mem _ hq), List.map_cons,
        List.map_cons, List.sum_cons, hp]
      omega
  rw [Std.ExtTreeMap.foldl_eq_foldl_toList, hsum _ _ fun p hp =>
    Std.ExtTreeMap.mem_toList_iff_getElem?_eq_some.mp hp, Std.ExtTreeMap.map_fst_toList_eq_keys,
    Nat.zero_add]
  rfl

/-- Clearing subtracts what the cache holds. -/
theorem total_clear : c.clear.total = c.total - c.size.toUInt64 := by
  rw [← foldl_size]
  rfl

/-- A cleared cache holds nothing. -/
theorem size_clear : c.clear.size = 0 := by
  rw [size, List.sum_eq_zero]
  intro n hn
  obtain ⟨t, -, rfl⟩ := List.mem_map.mp hn
  rw [entryCount, shard_clear, Std.ExtTreeMap.size_empty]

/-- The accounts of a cleared cache add up. -/
theorem Accounted.clear (hc : Accounted c) : Accounted c.clear where
  total_eq := by
    rw [total_clear, size_clear, hc.toNat_total_sub (Nat.le_refl _), Nat.sub_self]
  entryCount_le t := by
    rw [entryCount, shard_clear, Std.ExtTreeMap.size_empty]
    exact Nat.zero_le _
  total_le := by
    rw [total_clear, UInt64.le_iff_toNat_le, hc.toNat_total_sub (Nat.le_refl _), Nat.sub_self]
    exact Nat.zero_le _

/-- Every operation keeps the accounts. -/
theorem Accounted.step (hc : Accounted c) (hp : c.policy.NamesMembers) (op : Op) :
    Accounted (c.step op) := by
  cases op with
  | insert site fp rawInput post => exact (hc.setClock (c.clock + 1)).insertEntry hp
  | insertCold site fp rawInput post hits => exact hc.insertEntry hp
  | lookup site fp => exact hc.lookup
  | confirm site fp => exact hc.confirm
  | invalidate site => exact hc.invalidate
  | clear => exact hc.clear

/-- Takes entries off a counter, which must not fall below zero. -/
def spend? (counter amount : Nat) : Option Nat :=
  if amount ≤ counter then some (counter - amount) else none

/-- As `place`, but it stops where an eviction elsewhere would take the counter below zero. -/
def place? (c : Cache) (site : SiteId) (fp : Fingerprint) (e : Entry)
    (n : Nat) (reclaimed : Option (SiteId × Fingerprint)) (ownTurn : Bool) : Option Insertion :=
  match n with
  | 0 => some { cache := c, outcome := .skipped, events := [.noRoom site fp] }
  | n + 1 =>
    let shard := c.shard site
    let siteFull := c.limits.perSite.toNat ≤ shard.size
    if shard.contains fp then
      some { cache := c.setShard site (shard.insert fp e), outcome := .replaced }
    else if ¬ siteFull ∧ c.total < c.limits.total then
      some {
        cache := { c.setShard site (shard.insert fp e) with total := c.total + 1 }
        outcome := match reclaimed with
          | some (site, victim) => .evicted site victim
          | none => .inserted }
    else match (if siteFull ∨ ownTurn then c.policy.victim? shard else none) with
      | some victim =>
        some {
          cache := c.setShard site ((shard.erase victim).insert fp e)
          outcome := .evicted site victim
          events := [.evicted site victim] }
      | none =>
        let own := c.victimPriority? shard
        match c.stalestElsewhere? site own with
        | some (other, victim) => do
          let _ ← spend? c.total.toNat 1
          let next ← (c.evict other victim).place? site fp e n (some (other, victim)) false
          return { next with events := .reclaimed other victim site :: next.events }
        | none =>
          if own.isSome then c.place? site fp e n reclaimed true
          else some { cache := c, outcome := .skipped, events := [.noRoom site fp] }

/-- As `insertEntry`, with a counter that stops. -/
def insertNew? (c : Cache) (site : SiteId) (fp : Fingerprint) (e : Entry) : Option Insertion :=
  (c.setShard site (c.shard site)).place? site fp e attempts none false

/-- As `step`, but it stops where the counter would fall below zero: at an eviction elsewhere, when
a site is dropped, and when the shards are cleared one after another. -/
def step? (c : Cache) : Op → Option Cache
  | .insert site fp rawInput post =>
    ({ c with clock := c.clock + 1 }.insertNew? site fp ⟨rawInput, post, .fresh c.clock⟩).map
      Insertion.cache
  | .insertCold site fp rawInput post hits =>
    (c.insertNew? site fp ⟨rawInput, post, .cold hits⟩).map Insertion.cache
  | .invalidate site =>
    (spend? c.total.toNat (c.entryCount site)).map fun _ => (c.invalidate site).2
  | .clear =>
    (c.sites.foldlM (fun n t => spend? n (c.entryCount t)) c.total.toNat).map fun _ => c.clear
  | .lookup site fp => some (c.lookup site fp).2
  | .confirm site fp => some (c.confirm site fp).2

/-- As `run`, with a counter that stops. -/
def run? (c : Cache) (ops : List Op) : Option Cache := ops.foldlM step? c

/-- While the accounts add up, none of the decrements of a placement fails. -/
theorem place?_eq (hc : Accounted c) (hp : c.policy.NamesMembers) (n : Nat)
    (reclaimed : Option (SiteId × Fingerprint)) (ownTurn : Bool) :
    c.place? site fp e n reclaimed ownTurn = some (c.place site fp e n reclaimed ownTurn) := by
  induction n generalizing c reclaimed ownTurn with
  | zero => rfl
  | succ n ih =>
    unfold place? place
    dsimp only
    split
    · rfl
    · split
      · rfl
      · cases (if c.limits.perSite.toNat ≤ (c.shard site).size ∨ ownTurn = true then
          c.policy.victim? (c.shard site) else none) with
        | some victim => rfl
        | none =>
          cases hs : c.stalestElsewhere? site (c.victimPriority? (c.shard site)) with
          | some found =>
            obtain ⟨other, victim⟩ := found
            obtain ⟨hpos, hevict⟩ := hc.evict (hp _ _ (stalestElsewhere?_eq_some hs).1)
            have hone : 1 ≤ c.total.toNat := by
              rw [Nat.one_le_iff_ne_zero, ne_eq, ← UInt64.toNat_zero, UInt64.toNat_inj]
              exact hpos
            simp [spend?, hone, ih hevict hp]
          | none =>
            dsimp only
            split
            · exact ih hc hp _ _
            · rfl

/-- While the accounts add up, none of the decrements of an insertion fails. -/
theorem insertNew?_eq (hc : Accounted c) (hp : c.policy.NamesMembers) :
    c.insertNew? site fp e = some (c.insertEntry site fp e) :=
  place?_eq (hc.openShard site) hp _ _ _

/-- A counter that covers several amounts together covers them one after another. -/
theorem foldlM_spend? {count : SiteId → Nat} {l : List SiteId} {n : Nat}
    (hn : (l.map count).sum ≤ n) :
    l.foldlM (fun n t => spend? n (count t)) n = some (n - (l.map count).sum) := by
  induction l generalizing n with
  | nil => rfl
  | cons t rest ih =>
    rw [List.map_cons, List.sum_cons] at hn ⊢
    have hfirst : spend? n (count t) = some (n - count t) := if_pos (by omega)
    rw [List.foldlM_cons, hfirst, Option.bind_eq_bind, Option.bind_some, ih (by omega),
      Nat.sub_add_eq]

/-- An accounted cache never stops. -/
theorem step?_eq (hc : Accounted c) (hp : c.policy.NamesMembers) (op : Op) :
    c.step? op = some (c.step op) := by
  cases op with
  | insert site fp rawInput post =>
    rw [step?, insertNew?_eq (hc.setClock (c.clock + 1)) hp]
    rfl
  | insertCold site fp rawInput post hits =>
    rw [step?, insertNew?_eq hc hp]
    rfl
  | lookup site fp => rfl
  | confirm site fp => rfl
  | invalidate site =>
    have hle : c.entryCount site ≤ c.total.toNat := hc.total_eq ▸ c.entryCount_le_size site
    rw [step?, spend?, if_pos hle]
    rfl
  | clear =>
    rw [step?, foldlM_spend? (Nat.le_of_eq hc.total_eq.symm)]
    rfl

/-- A run from an accounted cache stays accounted and never stops. -/
theorem Accounted.run (hc : Accounted c) (hp : c.policy.NamesMembers) (ops : List Op) :
    Accounted (c.run ops) ∧ c.run? ops = some (c.run ops) := by
  induction ops generalizing c with
  | nil => exact ⟨hc, rfl⟩
  | cons op rest ih =>
    have hp' : (c.step op).policy.NamesMembers := by
      rw [(step_settings op).2]
      exact hp
    obtain ⟨hrun, hnever⟩ := ih (hc.step hp op) hp'
    refine ⟨hrun, ?_⟩
    rw [run?, List.foldlM_cons, step?_eq hc hp op]
    exact hnever

/-- Whatever is called on a fresh cache, and in whatever order, its counter is the number of its
entries, both bounds hold, and the counter was never taken below zero. -/
theorem run_accounts (limits : Limits) (policy : EvictionPolicy) (hp : policy.NamesMembers)
    (ops : List Op) :
    let c := run { limits, policy } ops
    c.total.toNat = c.size ∧
      (∀ site, c.entryCount site ≤ limits.perSite.toNat) ∧
      c.total ≤ limits.total ∧
      run? { limits, policy } ops = some c := by
  obtain ⟨hc, hnever⟩ := (accounted_empty limits policy).run hp ops
  obtain ⟨hlimits, -⟩ := run_settings (c := { limits, policy }) ops
  have hsite := hc.entryCount_le
  have hall := hc.total_le
  rw [hlimits] at hsite hall
  exact ⟨hc.total_eq, hsite, hall, hnever⟩

/-- Three sites use a cache of three places, two for each site; one site is dropped, then all. -/
def crowded : List Op :=
  [.insert ⟨1⟩ ⟨1⟩ [1] { nextPc := 1 }, .insertCold ⟨1⟩ ⟨2⟩ [2] { nextPc := 2 } 4,
    .insert ⟨1⟩ ⟨3⟩ [3] { nextPc := 3 }, .confirm ⟨1⟩ ⟨3⟩, .insert ⟨2⟩ ⟨1⟩ [4] { nextPc := 4 },
    .lookup ⟨1⟩ ⟨1⟩, .insert ⟨3⟩ ⟨1⟩ [5] { nextPc := 5 }, .invalidate ⟨2⟩, .clear,
    .insert ⟨2⟩ ⟨2⟩ [6] { nextPc := 6 }]

/-- The accounts add up where both bounds are reached. -/
theorem run_accounts_crowded :
    let c := run { limits := ⟨2, 3⟩, policy := .leastRecentlyUsed } crowded
    EvictionPolicy.leastRecentlyUsed.NamesMembers ∧
      c.total.toNat = c.size ∧
      (∀ site, c.entryCount site ≤ 2) ∧
      c.total ≤ 3 ∧
      run? { limits := ⟨2, 3⟩, policy := .leastRecentlyUsed } crowded = some c :=
  ⟨EvictionPolicy.leastRecentlyUsed_namesMembers,
    run_accounts ⟨2, 3⟩ .leastRecentlyUsed EvictionPolicy.leastRecentlyUsed_namesMembers crowded⟩

end Cache

end CallMemo
