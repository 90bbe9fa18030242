import CallMemo.Proofs.Cache.Insertion

/-!
# The order of walks

A hash map is walked in an order that says nothing about its contents. Under the default policy the
choice of a victim, the search for the stalest entry elsewhere and the dropping of all entries walk
over the maps of a cache. Each of them is given here for an arbitrary order, and comes out the same
as for the ascending one.
-/

namespace CallMemo

/-- The orders in which the shards of a cache and the entries of a shard are visited. A map that is
not changed in between is walked in the same order again. -/
structure Tour where
  /-- The shards in the order of a walk. -/
  shards : Std.ExtTreeMap SiteId Shard → List (SiteId × Shard)
  /-- Every shard is visited once. -/
  shards_perm : ∀ m, (shards m).Perm m.toList
  /-- The entries of the shard of a site in the order of a walk. -/
  entries : SiteId → Shard → List (Fingerprint × Entry)
  /-- Every entry is visited once. -/
  entries_perm : ∀ site shard, (entries site shard).Perm shard.toList

/-- Walks in descending order. -/
def Tour.descending : Tour where
  shards m := m.toList.reverse
  shards_perm m := List.reverse_perm m.toList
  entries _ shard := shard.toList.reverse
  entries_perm _ shard := List.reverse_perm shard.toList

/-- The better candidate so far, given up for one of strictly lower rank. -/
def Rank.challenge {α : Type} (rank : α → Rank) : Option α → α → Option α
  | none, x => some x
  | some best, x => if rank x < rank best then some x else some best

namespace Tour

/-- The least recently used entry met on the way. -/
def victim? (o : Tour) (site : SiteId) (shard : Shard) : Option Fingerprint :=
  ((o.entries site shard).minOn? fun (fp, e) => (⟨e.recency, fp.val⟩ : Rank)).map (·.1)

/-- The priority of the entry that would be evicted from a shard. -/
def victimPriority? (o : Tour) (site : SiteId) (shard : Shard) : Option Priority := do
  let victim ← o.victim? site shard
  let e ← shard[victim]?
  return e.recency

/-- What a shard has to offer to `requester`, if its victim ranks below the requester's own. -/
def candidate? (o : Tour) (requester : SiteId) (own : Option Priority) :
    SiteId × Shard → Option (SiteId × Priority)
  | (site, shard) =>
    if site = requester then none
    else match o.victimPriority? site shard with
      | none => none
      | some p => if own.all (p < ·) then some (site, p) else none

/-- The stalest entry of another site. The search goes through what the shards have to offer and
keeps the best candidate so far. -/
def stalestElsewhere? (o : Tour) (c : Cache) (requester : SiteId) (own : Option Priority) :
    Option (SiteId × Fingerprint) := do
  let offers := (o.shards c.shards).filterMap (o.candidate? requester own)
  let (site, _) ← offers.foldl (Rank.challenge fun (site, p) => ⟨p, site.val⟩) none
  let victim ← o.victim? site (c.shard site)
  return (site, victim)

/-- Tries up to `n` times to place an entry. -/
def place (o : Tour) (c : Cache) (site : SiteId) (fp : Fingerprint) (e : Entry)
    (n : Nat) (reclaimed : Option (SiteId × Fingerprint)) (ownTurn : Bool) : Cache.Insertion :=
  match n with
  | 0 => { cache := c, outcome := .skipped, events := [.noRoom site fp] }
  | n + 1 =>
    let shard := c.shard site
    let siteFull := c.limits.perSite.toNat ≤ shard.size
    if shard.contains fp then
      { cache := c.setShard site (shard.insert fp e), outcome := .replaced }
    else if ¬ siteFull ∧ c.total < c.limits.total then
      { cache := { c.setShard site (shard.insert fp e) with total := c.total + 1 }
        outcome := Cache.freePlaceOutcome reclaimed }
    else match (if siteFull ∨ ownTurn then o.victim? site shard else none) with
      | some victim =>
        { cache := c.setShard site ((shard.erase victim).insert fp e)
          outcome := .evicted site victim
          events := [.evicted site victim] }
      | none =>
        let own := o.victimPriority? site shard
        match o.stalestElsewhere? c site own with
        | some (other, victim) =>
          let next := o.place (c.evict other victim) site fp e n (some (other, victim)) false
          { next with events := .reclaimed other victim site :: next.events }
        | none =>
          if own.isSome then o.place c site fp e n reclaimed true
          else { cache := c, outcome := .skipped, events := [.noRoom site fp] }

/-- Inserts an entry; its site has a shard afterwards whatever becomes of it. -/
def insertEntry (o : Tour) (c : Cache) (site : SiteId) (fp : Fingerprint) (e : Entry) :
    Cache.Insertion :=
  o.place (c.setShard site (c.shard site)) site fp e Cache.attempts none false

/-- Records a result for a calling context, as used now. -/
def insert (o : Tour) (c : Cache) (site : SiteId) (fp : Fingerprint) (rawInput : List UInt64)
    (post : PostState) : Cache.Insertion :=
  o.insertEntry { c with clock := c.clock + 1 } site fp ⟨rawInput, post, .fresh c.clock⟩

/-- Restores a result with the hits of an earlier run. -/
def insertCold (o : Tour) (c : Cache) (site : SiteId) (fp : Fingerprint) (rawInput : List UInt64)
    (post : PostState) (hits : UInt64) : Cache.Insertion :=
  o.insertEntry c site fp ⟨rawInput, post, .cold hits⟩

/-- Drops all entries, shard by shard, and keeps the shards. -/
def clear (o : Tour) (c : Cache) : Cache :=
  { c with
    shards := c.shards.map fun _ _ => ∅
    total := (o.shards c.shards).foldl (fun total x => total - x.2.size.toUInt64) c.total }

/-- The cache after one call that walks in the given order; the calls left out here do not walk. -/
def step (o : Tour) (c : Cache) : Cache.Op → Cache
  | .insert site fp rawInput post => (o.insert c site fp rawInput post).cache
  | .insertCold site fp rawInput post hits => (o.insertCold c site fp rawInput post hits).cache
  | .clear => o.clear c
  | op => c.step op

/-- The cache after a list of calls, each of which walks in its own order. -/
def run (c : Cache) (ops : List (Tour × Cache.Op)) : Cache :=
  ops.foldl (fun c op => op.1.step c op.2) c

end Tour

namespace Rank

variable {α : Type} {rank : α → Rank} {l l' : List α}

/-- A walk keeps the best entry met so far. -/
theorem foldl_challenge_some {best : α} :
    l.foldl (challenge rank) (some best) = some (l.foldl (minOn rank) best) := by
  induction l generalizing best with
  | nil => rfl
  | cons x rest ih =>
    have hpick : challenge rank (some best) x = some (minOn rank best x) := by
      by_cases hlt : rank x < rank best
      · simp [challenge, minOn, le_iff, hlt]
      · simp [challenge, minOn, le_iff, hlt]
    rw [List.foldl_cons, hpick, ih, List.foldl_cons]

/-- Challenging the best so far finds the first element of lowest rank. -/
theorem foldl_challenge : l.foldl (challenge rank) none = l.minOn? rank := by
  cases l with
  | nil => rfl
  | cons x rest => exact foldl_challenge_some

/-- The order of a list does not matter to the element of lowest rank if elements of equal rank are
equal. -/
theorem minOn?_perm (h : l.Perm l')
    (inj : ∀ x ∈ l, ∀ y ∈ l, (rank x).name = (rank y).name → x = y) :
    l.minOn? rank = l'.minOn? rank := by
  cases hx : l.minOn? rank with
  | none =>
    cases l with
    | nil => rw [← h.nil_eq, List.minOn?_nil]
    | cons x rest => cases hx
  | some x =>
    have hmem : x ∈ l := List.minOn?_mem hx
    obtain ⟨y, hy⟩ := Option.isSome_iff_exists.mp
      (List.isSome_minOn?_of_mem (f := rank) (h.mem_iff.mp hmem))
    have hmem' : y ∈ l := h.mem_iff.mpr (List.minOn?_mem hy)
    have hxy : rank x ≤ rank y := by
      have hle := List.apply_get_minOn?_le_of_mem (f := rank) hmem'
      simpa only [hx, Option.get_some] using hle
    have hyx : rank y ≤ rank x := by
      have hle := List.apply_get_minOn?_le_of_mem (f := rank) (h.mem_iff.mp hmem)
      simpa only [hy, Option.get_some] using hle
    rw [hy, inj x hmem y hmem' (name_eq hxy hyx)]

end Rank

namespace Tour

variable {o : Tour} {c : Cache} {s : SiteId} {sh : Shard}

/-- Whichever way a shard is walked, the same victim is found. -/
theorem victim?_eq : o.victim? s sh = EvictionPolicy.leastRecentlyUsed.victim? sh := by
  refine congrArg (Option.map _) (Rank.minOn?_perm (o.entries_perm s sh) ?_)
  rintro ⟨f, x⟩ hx ⟨g, y⟩ hy hname
  obtain rfl : f = g := congrArg Fingerprint.mk hname
  have hread {g : Fingerprint} {x : Entry} (hx : (g, x) ∈ o.entries s sh) : sh[g]? = some x :=
    Std.ExtTreeMap.mem_toList_iff_getElem?_eq_some.mp ((o.entries_perm s sh).mem_iff.mp hx)
  rw [Option.some.inj ((hread hx).symm.trans (hread hy))]

theorem victimPriority?_eq (hc : c.policy = .leastRecentlyUsed) :
    o.victimPriority? s sh = c.victimPriority? sh := by
  rw [victimPriority?, Cache.victimPriority?, hc, victim?_eq]
  rfl

/-- A walk over all sites meets the same candidates in some order. -/
theorem filterMap_candidate?_perm (hc : c.policy = .leastRecentlyUsed) (own : Option Priority) :
    ((o.shards c.shards).filterMap (o.candidate? s own)).Perm (c.candidates s own) := by
  have hoffer : o.candidate? s own = fun (x : SiteId × Shard) =>
      if x.1 = s then none
      else match c.victimPriority? x.2 with
        | none => none
        | some p => if own.all (p < ·) then some (x.1, p) else none := by
    funext ⟨t, sh⟩
    rw [candidate?, victimPriority?_eq hc]
  rw [hoffer]
  exact (o.shards_perm c.shards).filterMap _

/-- A walk over all sites finds the same entry elsewhere, in whatever order it goes. -/
theorem stalestElsewhere?_eq (hc : c.policy = .leastRecentlyUsed) (own : Option Priority) :
    o.stalestElsewhere? c s own = c.stalestElsewhere? s own := by
  have hperm := filterMap_candidate?_perm (o := o) (s := s) hc own
  have hbest : ((o.shards c.shards).filterMap (o.candidate? s own)).minOn?
        (fun (site, p) => (⟨p, site.val⟩ : Rank)) =
      (c.candidates s own).minOn? fun (site, p) => (⟨p, site.val⟩ : Rank) := by
    refine Rank.minOn?_perm hperm ?_
    rintro ⟨t, p⟩ hp ⟨u, q⟩ hq hname
    obtain rfl : t = u := congrArg SiteId.mk hname
    have hp' := (Cache.mem_candidates_iff.mp (hperm.mem_iff.mp hp)).2.1
    have hq' := (Cache.mem_candidates_iff.mp (hperm.mem_iff.mp hq)).2.1
    rw [Option.some.inj (hp'.symm.trans hq')]
  rw [stalestElsewhere?, Cache.stalestElsewhere?, Rank.foldl_challenge, hbest, hc]
  simp only [victim?_eq]

/-- A placement does not depend on the order of the walk. -/
theorem place_eq (hc : c.policy = .leastRecentlyUsed) {fp : Fingerprint} {e : Entry} {n : Nat}
    {reclaimed : Option (SiteId × Fingerprint)} {ownTurn : Bool} :
    o.place c s fp e n reclaimed ownTurn = c.place s fp e n reclaimed ownTurn := by
  induction n generalizing c reclaimed ownTurn with
  | zero => rfl
  | succ n ih =>
    have hevict (t : SiteId) (v : Fingerprint) : (c.evict t v).policy = .leastRecentlyUsed := hc
    unfold place Cache.place
    simp only [victim?_eq, victimPriority?_eq hc, stalestElsewhere?_eq hc, hc, ih hc,
      ih (hevict _ _)]
    rfl

theorem insertEntry_eq (hc : c.policy = .leastRecentlyUsed) {fp : Fingerprint} {e : Entry} :
    o.insertEntry c s fp e = c.insertEntry s fp e := by
  have hopen : (c.setShard s (c.shard s)).policy = .leastRecentlyUsed := hc
  rw [insertEntry, place_eq hopen, Cache.insertEntry]

/-- A result is recorded in the same way. -/
theorem insert_eq (hc : c.policy = .leastRecentlyUsed) {fp : Fingerprint} {raw : List UInt64}
    {post : PostState} : o.insert c s fp raw post = c.insert s fp raw post := by
  have htick : ({ c with clock := c.clock + 1 } : Cache).policy = .leastRecentlyUsed := hc
  rw [insert, insertEntry_eq htick, Cache.insert]

theorem insertCold_eq (hc : c.policy = .leastRecentlyUsed) {fp : Fingerprint} {raw : List UInt64}
    {post : PostState} {hits : UInt64} :
    o.insertCold c s fp raw post hits = c.insertCold s fp raw post hits := by
  rw [insertCold, insertEntry_eq hc, Cache.insertCold]

/-- Subtracting the sizes one by one subtracts their sum. -/
theorem foldl_sub_size {l : List (SiteId × Shard)} {total : UInt64} {n : Nat} :
    l.foldl (fun total x => total - x.2.size.toUInt64) (total - n.toUInt64) =
      total - (l.foldl (fun n x => n + x.2.size) n).toUInt64 := by
  induction l generalizing n with
  | nil => rfl
  | cons x rest ih =>
    have hsub : total - n.toUInt64 - x.2.size.toUInt64 = total - (n + x.2.size).toUInt64 := by
      have hadd : (n + x.2.size).toUInt64 = n.toUInt64 + x.2.size.toUInt64 := UInt64.ofNat_add n _
      grind
    rw [List.foldl_cons, hsub, ih, List.foldl_cons]

/-- Clearing does not depend on the order of the walk. -/
theorem clear_eq : o.clear c = c.clear := by
  have htotal : (o.shards c.shards).foldl (fun total x => total - x.2.size.toUInt64) c.total =
      c.total - (c.shards.foldl (fun n _ (sh : Shard) => n + sh.size) 0).toUInt64 := by
    have hzero : c.total = c.total - Nat.toUInt64 0 := by simp
    rw [(o.shards_perm c.shards).foldl_eq' fun x _ y _ z => by grind,
      Std.ExtTreeMap.foldl_eq_foldl_toList, ← foldl_sub_size, ← hzero]
  rw [clear, Cache.clear, htotal]

/-- No operation depends on the order of the walks. -/
theorem step_eq (hc : c.policy = .leastRecentlyUsed) (op : Cache.Op) : o.step c op = c.step op := by
  cases op with
  | insert site fp raw post => exact congrArg Cache.Insertion.cache (insert_eq hc)
  | insertCold site fp raw post hits => exact congrArg Cache.Insertion.cache (insertCold_eq hc)
  | clear => exact clear_eq
  | lookup site fp | confirm site fp | invalidate site => rfl

/-- The orders of the walks do not show in a cache under the default policy. -/
theorem run_eq (hc : c.policy = .leastRecentlyUsed) (ops : List (Tour × Cache.Op)) :
    run c ops = c.run (ops.map (·.2)) := by
  induction ops generalizing c with
  | nil => rfl
  | cons op rest ih =>
    have hstep : (c.step op.2).policy = .leastRecentlyUsed := (Cache.step_settings op.2).2.trans hc
    rw [run, List.foldl_cons, step_eq hc]
    exact ih hstep

end Tour

end CallMemo
