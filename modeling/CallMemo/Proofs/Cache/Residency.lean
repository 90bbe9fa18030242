import CallMemo.Proofs.Cache.Queue

/-!
# Residency

With the default policy a cache behaves as the queue of its uses: an insertion and a successful
lookup bring their context to the back, and the first context of a full site or of a full cache
gives way. What is left of a run is then known in numbers: a context is still in the cache exactly
if the contexts used after it, counted for each site up to the bound of the site, leave room for it.
-/

namespace CallMemo

open Recency

namespace Cache

variable {c c' : Cache} {s : SiteId} {f v : Fingerprint} {e : Entry} {q : List Context}
  {x : Context} {n : Nat} {reclaimed : Option Context} {ownTurn : Bool} {outcome : InsertOutcome}

theorem context_eq_iff {t : SiteId} {g : Fingerprint} : (t, g) = (s, f) ↔ s = t ∧ f = g := by
  rw [Prod.mk.injEq, eq_comm, eq_comm (a := g)]

/-- An entry that is written puts its stamp on its context. -/
theorem stamp?_write (y : Context) :
    (c.setShard s ((c.shard s).insert f e)).stamp? y =
      if y = (s, f) then some e.usage.lastUsed else c.stamp? y := by
  obtain ⟨t, g⟩ := y
  simp only [stamp?, peek?_setShard_insert, context_eq_iff]
  split
  · rfl
  · rfl

/-- An eviction takes the stamp of its context away. -/
theorem stamp?_evict (y : Context) :
    (c.evict s v).stamp? y = if y = (s, v) then none else c.stamp? y := by
  obtain ⟨t, g⟩ := y
  simp only [stamp?, peek?_evict, context_eq_iff]
  split
  · rfl
  · rfl

/-- An entry in place of another does both. -/
theorem stamp?_exchange (y : Context) :
    (c.setShard s (((c.shard s).erase v).insert f e)).stamp? y =
      if y = (s, f) then some e.usage.lastUsed
      else if y = (s, v) then none else c.stamp? y := by
  obtain ⟨t, g⟩ := y
  simp only [stamp?, peek?_setShard_erase_insert, context_eq_iff]
  split
  · rfl
  · split
    · rfl
    · rfl

/-- An entry that is written with a new stamp goes to the back. -/
theorem queue_write (h : Queue c.stamp? q)
    (hn : ∀ y, ∀ a ∈ c.stamp? y, a < e.usage.lastUsed) :
    Queue (c.setShard s ((c.shard s).insert f e)).stamp? (q.erase (s, f) ++ [(s, f)]) :=
  h.renew hn stamp?_write

/-- A place is free exactly if the queue has room for the site and in all. -/
theorem not_tight_iff_queue (hc : Accounted c) (h : Queue c.stamp? q) :
    ¬ c.Tight s ↔
      siteCount s q < c.limits.perSite.toNat ∧ q.length < c.limits.total.toNat := by
  rw [not_tight_iff, Nat.not_le, UInt64.lt_iff_toNat_lt, hc.total_eq, siteCount_queue h,
    length_queue h, entryCount]

/-- A free place is taken at the next attempt. -/
theorem Placement.queue_of_room
    (hplace : Placement s f e (n + 1) reclaimed ownTurn c c' outcome) (absent : f ∉ c.shard s)
    (room : ¬ c.Tight s) (h : Queue c.stamp? q)
    (hn : ∀ y, ∀ a ∈ c.stamp? y, a < e.usage.lastUsed) :
    Queue c'.stamp? (q ++ [(s, f)]) := by
  have hout : (s, f) ∉ q := mt (mem_queue_iff h).mp absent
  cases hplace with
  | replaced present => exact absurd present absent
  | vacant absent room =>
    have hwrite := queue_write (s := s) (f := f) h hn
    rw [List.erase_of_not_mem hout] at hwrite
    exact hwrite
  | own absent tight turn named => exact absurd tight room
  | elsewhere absent tight spared stalest rest => exact absurd tight room
  | ownNext absent tight spared stalest ranked rest => exact absurd tight room
  | noRoom absent tight spared stalest unranked => exact absurd tight room

/-- A victim of the site's own makes room at the attempt that asks for it. -/
theorem Placement.queue_of_turn
    (hplace : Placement s f e (n + 1) reclaimed ownTurn c c' outcome) (absent : f ∉ c.shard s)
    (tight : c.Tight s) (turn : c.limits.perSite.toNat ≤ (c.shard s).size ∨ ownTurn = true)
    (named : c.policy.victim? (c.shard s) = some v) (h : Queue c.stamp? q)
    (hn : ∀ y, ∀ a ∈ c.stamp? y, a < e.usage.lastUsed) :
    Queue c'.stamp? (q.erase (s, v) ++ [(s, f)]) := by
  have hout : (s, f) ∉ q.erase (s, v) := fun hmem =>
    mt (mem_queue_iff h).mp absent (List.mem_of_mem_erase hmem)
  cases hplace with
  | replaced present => exact absurd present absent
  | vacant absent room => exact absurd tight room
  | @own _ _ _ _ w absent tight turn named' =>
    rw [named, Option.some.injEq] at named'
    subst named'
    let stamp?' : Context → Option UInt64 := fun y => if y = (s, v) then none else c.stamp? y
    have hwithout : Queue stamp?' (q.erase (s, v)) := h.without fun _ => rfl
    have hpast : ∀ y, ∀ a ∈ stamp?' y, a < e.usage.lastUsed :=
      Queue.stamp_lt_of_without hn fun _ => rfl
    have hexchange := hwithout.renew (x := (s, f)) hpast stamp?_exchange
    rwa [List.erase_of_not_mem hout] at hexchange
  | elsewhere absent tight spared stalest rest => cases (spared turn).symm.trans named
  | ownNext absent tight spared stalest ranked rest => cases (spared turn).symm.trans named
  | noRoom absent tight spared stalest unranked => cases (spared turn).symm.trans named

/-- A site that is not to give up a context of its own is not full, so the cache is. -/
theorem crowded_of_spared (hp : c.policy = .leastRecentlyUsed) (hc : Accounted c)
    (hsite : 0 < c.limits.perSite.toNat) (htotal : 0 < c.limits.total.toNat)
    (h : Queue c.stamp? q) (tight : c.Tight s) (spared : c.OwnSpared s ownTurn) :
    siteCount s q < c.limits.perSite.toNat ∧
      ∃ x newer, q = x :: newer ∧ newer.length + 1 = c.limits.total.toNat := by
  have hroom : siteCount s q < c.limits.perSite.toNat := by
    rw [siteCount_queue h, ← Nat.not_le]
    intro hfull
    obtain ⟨v, hv⟩ :=
      EvictionPolicy.exists_victim_of_size_pos (Nat.lt_of_lt_of_le hsite hfull)
    rw [← hp] at hv
    cases (spared (.inl hfull)).symm.trans hv
  have hcrowded : c.limits.total.toNat ≤ q.length := by
    rw [← Nat.not_lt]
    exact fun hlt => (not_tight_iff_queue hc h).mpr ⟨hroom, hlt⟩ tight
  have hle : q.length ≤ c.limits.total.toNat := by
    rw [length_queue h, ← hc.total_eq]
    exact UInt64.le_iff_toNat_le.mp hc.total_le
  cases q with
  | nil =>
    rw [List.length_nil] at hcrowded
    omega
  | cons x newer => exact ⟨hroom, x, newer, rfl, Nat.le_antisymm hle hcrowded⟩

/-- What gives way elsewhere is the first context of all, and then there is a free place. -/
theorem free_of_stalest {other : SiteId} {victim : Fingerprint}
    (hp : c.policy = .leastRecentlyUsed) (hc : Accounted c)
    (hsite : 0 < c.limits.perSite.toNat) (htotal : 0 < c.limits.total.toNat)
    (h : Queue c.stamp? q) (tight : c.Tight s) (spared : c.OwnSpared s ownTurn)
    (stalest : c.stalestElsewhere? s (c.victimPriority? (c.shard s)) = some (other, victim)) :
    ∃ newer, q = (other, victim) :: newer ∧ newer.length + 1 = c.limits.total.toNat ∧
      siteCount s q < c.limits.perSite.toNat ∧ (c.evict other victim).shard s = c.shard s ∧
      Queue (c.evict other victim).stamp? newer ∧ ¬ (c.evict other victim).Tight s := by
  obtain ⟨hroom, x, newer, rfl, hlength⟩ := crowded_of_spared hp hc hsite htotal h tight spared
  by_cases hx : x.1 = s
  · subst hx
    rw [stalestElsewhere?_of_eq hp h] at stalest
    cases stalest
  rw [stalestElsewhere?_of_ne hp h hx, Option.some.injEq] at stalest
  subst stalest
  have hcut : Queue (c.evict other victim).stamp? newer := by
    have hcut := h.without (stamp?_evict (s := other) (v := victim))
    rwa [List.erase_cons_head] at hcut
  have hevict : Accounted (c.evict other victim) :=
    (hc.evict ((mem_queue_iff h).mp List.mem_cons_self)).2
  refine ⟨newer, rfl, hlength, hroom, shard_evict_of_ne hx, hcut, ?_⟩
  rw [siteCount_cons, if_neg hx] at hroom
  exact (not_tight_iff_queue hevict hcut).mpr ⟨hroom, Nat.lt_of_succ_le (Nat.le_of_eq hlength)⟩

/-- If nothing gives way elsewhere, the first context of all is one of the site's own. -/
theorem own_of_stalest (hp : c.policy = .leastRecentlyUsed) (hc : Accounted c)
    (hsite : 0 < c.limits.perSite.toNat) (htotal : 0 < c.limits.total.toNat)
    (h : Queue c.stamp? q) (tight : c.Tight s) (spared : c.OwnSpared s ownTurn)
    (stalest : c.stalestElsewhere? s (c.victimPriority? (c.shard s)) = none) :
    ∃ g newer, q = (s, g) :: newer ∧ newer.length + 1 = c.limits.total.toNat ∧
      siteCount s q < c.limits.perSite.toNat := by
  obtain ⟨hroom, ⟨t, g⟩, newer, rfl, hlength⟩ :=
    crowded_of_spared hp hc hsite htotal h tight spared
  by_cases hx : t = s
  · subst hx
    exact ⟨g, newer, rfl, hlength, hroom⟩
  · rw [stalestElsewhere?_of_ne hp h hx] at stalest
    cases stalest

/-- Two attempts are enough to make room: one entry gives way, and then its place is free or it is
the site's own turn. -/
theorem Placement.queue_use
    (hplace : Placement s f e (n + 2) reclaimed false c c' outcome)
    (hp : c.policy = .leastRecentlyUsed) (hc : Accounted c)
    (hsite : 0 < c.limits.perSite.toNat) (htotal : 0 < c.limits.total.toNat)
    (h : Queue c.stamp? q) (hn : ∀ y, ∀ a ∈ c.stamp? y, a < e.usage.lastUsed) :
    Queue c'.stamp? (use c.limits.perSite.toNat c.limits.total.toNat (s, f) q) := by
  have use_new (absent : f ∉ c.shard s) :
      use c.limits.perSite.toNat c.limits.total.toNat (s, f) q =
        makeRoom c.limits.perSite.toNat c.limits.total.toNat s q ++ [(s, f)] := by
    rw [use, if_neg (mt (mem_queue_iff h).mp absent)]
  cases hplace with
  | replaced present =>
    rw [use, if_pos ((mem_queue_iff h).mpr present)]
    exact queue_write h hn
  | vacant absent room =>
    obtain ⟨hown, hall⟩ := (not_tight_iff_queue hc h).mp room
    rw [use_new absent, makeRoom_of_room hown hall]
    have hlast : Placement s f e (n + 1) reclaimed false c _ _ := .vacant absent room
    exact hlast.queue_of_room absent room h hn
  | own absent tight turn named =>
    have hfull : c.limits.perSite.toNat ≤ siteCount s q := by
      rw [siteCount_queue h]
      exact turn.resolve_right (by simp)
    rw [use_new absent, makeRoom_of_full hfull, eraseP_queue hp h named]
    have hlast : Placement s f e (n + 1) reclaimed false c _ _ := .own absent tight turn named
    exact hlast.queue_of_turn absent tight turn named h hn
  | elsewhere absent tight spared stalest rest =>
    obtain ⟨newer, rfl, hlength, hroom, hshard, hcut, hfree⟩ :=
      free_of_stalest hp hc hsite htotal h tight spared stalest
    rw [use_new absent, makeRoom_of_crowded hroom (Nat.le_of_eq hlength.symm), List.tail_cons]
    exact rest.queue_of_room (hshard ▸ absent) hfree hcut
      (Queue.stamp_lt_of_without hn stamp?_evict)
  | ownNext absent tight spared stalest ranked rest =>
    obtain ⟨g, newer, rfl, hlength, hroom⟩ :=
      own_of_stalest hp hc hsite htotal h tight spared stalest
    rw [use_new absent, makeRoom_of_crowded hroom (Nat.le_of_eq hlength.symm), List.tail_cons]
    have hplace := rest.queue_of_turn absent tight (.inr rfl) (victim_head hp h) h hn
    rwa [List.erase_cons_head] at hplace
  | noRoom absent tight spared stalest unranked =>
    obtain ⟨g, newer, rfl, -, -⟩ := own_of_stalest hp hc hsite htotal h tight spared stalest
    obtain ⟨p, hrank, -⟩ := victimPriority?_head hp h
    cases unranked.symm.trans hrank

/-- A cache with the default policy holds what the queue of the given uses keeps. -/
structure Follows (c : Cache) (uses : List Context) : Prop where
  /-- The policy is the default one. -/
  policy_eq : c.policy = .leastRecentlyUsed
  /-- The accounts are right. -/
  accounted : Accounted c
  /-- The contexts are those kept, in the order of their last uses. -/
  queue : Queue c.stamp? (kept c.limits.perSite.toNat c.limits.total.toNat uses)
  /-- All uses are over. -/
  stamp_lt : ∀ y, ∀ a ∈ c.stamp? y, a < c.clock
  /-- The clock has ticked once for every use. -/
  clock_eq : c.clock.toNat = uses.length + 1

/-- An empty cache follows no uses. -/
theorem follows_empty (limits : Limits) : Follows { limits } [] where
  policy_eq := rfl
  accounted := accounted_empty limits .leastRecentlyUsed
  queue := ⟨fun x => by simp [kept, stamp?, peek?, shard_eq_empty], List.Pairwise.nil⟩
  stamp_lt y a ha := by simp [stamp?, peek?, shard_eq_empty] at ha
  clock_eq := rfl

/-- The calls that use a context or look for one. -/
def Op.isUse : Op → Bool
  | .insert .. => true
  | .lookup .. => true
  | _ => false

/-- The context that a call uses: an insertion its own, a lookup the one it finds. -/
def touched? (c : Cache) : Op → Option Context
  | .insert site fp _ _ => some (site, fp)
  | .lookup site fp => if (c.lookup site fp).1.isSome then some (site, fp) else none
  | _ => none

/-- The uses of a run, the oldest first. -/
def touches (c : Cache) : List Op → List Context
  | [] => []
  | op :: rest => (c.touched? op).toList ++ (c.step op).touches rest

/-- While there are not too many uses the clock does not wrap. -/
theorem Follows.tick {uses : List Context} (h : Follows c uses) (hfew : uses.length + 2 < 2 ^ 64) :
    (c.clock + 1).toNat = uses.length + 2 := by
  rw [UInt64.toNat_add, h.clock_eq, UInt64.toNat_one, Nat.mod_eq_of_lt hfew]

theorem Follows.clock_lt {uses : List Context} (h : Follows c uses)
    (hfew : uses.length + 2 < 2 ^ 64) : c.clock < c.clock + 1 := by
  rw [UInt64.lt_iff_toNat_lt, h.tick hfew, h.clock_eq]
  exact Nat.lt_succ_self _

/-- An insertion goes on as the queue does. -/
theorem Follows.insert {uses : List Context} (h : Follows c uses)
    (hsite : 0 < c.limits.perSite.toNat) (htotal : 0 < c.limits.total.toNat)
    (hfew : uses.length + 2 < 2 ^ 64) (raw : List UInt64) (post : PostState) :
    Follows (c.insert s f raw post).cache (uses ++ [(s, f)]) := by
  let start : Cache := { c with clock := c.clock + 1 }
  let base : Cache := start.setShard s (start.shard s)
  let e : Entry := ⟨raw, post, .fresh c.clock⟩
  have hplace : Placement s f e (2 + 2) none false base (c.insert s f raw post).cache _ :=
    insertEntry_placement (c := start)
  obtain ⟨hlimits, hpolicy⟩ := hplace.settings_eq
  have hclock : (c.insert s f raw post).cache.clock = c.clock + 1 := hplace.clock_eq
  have hnames : base.policy.NamesMembers :=
    h.policy_eq ▸ EvictionPolicy.leastRecentlyUsed_namesMembers
  have hbase : Accounted base := (h.accounted.setClock (c.clock + 1)).openShard s
  have hstamp : base.stamp? = c.stamp? := by
    funext y
    rw [stamp?, peek?_setShard_shard]
    rfl
  have hqueue : Queue base.stamp? (kept c.limits.perSite.toNat c.limits.total.toNat uses) :=
    hstamp ▸ h.queue
  have hpast : ∀ y, ∀ a ∈ base.stamp? y, a < e.usage.lastUsed := hstamp ▸ h.stamp_lt
  refine ⟨hpolicy.trans h.policy_eq, hbase.placement hnames hplace, ?_, fun y a ha => ?_, ?_⟩
  · have huse := hplace.queue_use h.policy_eq hbase hsite htotal hqueue hpast
    rw [hlimits]
    exact (kept_concat (l := uses) (x := (s, f)) hsite htotal).symm ▸ huse
  · obtain ⟨x, hx, rfl⟩ := Option.map_eq_some_iff.mp ha
    rw [hclock]
    rcases hplace.peek?_cases hx with ⟨-, -, rfl⟩ | ⟨-, hold⟩
    · exact h.clock_lt hfew
    · exact UInt64.lt_trans (hpast y _ (by rw [stamp?, hold]; rfl)) (h.clock_lt hfew)
  · rw [hclock, h.tick hfew, List.length_append, List.length_singleton]

/-- A successful lookup goes on as the queue does. -/
theorem Follows.lookup {uses : List Context} (h : Follows c uses)
    (hsite : 0 < c.limits.perSite.toNat) (htotal : 0 < c.limits.total.toNat)
    (hfew : uses.length + 2 < 2 ^ 64) (hfound : c.peek? s f = some e) :
    Follows (c.lookup s f).2 (uses ++ [(s, f)]) := by
  have hmem : (s, f) ∈ kept c.limits.perSite.toNat c.limits.total.toNat uses :=
    (h.queue.mem_iff _).mpr (by simp [stamp?, hfound])
  have hold : e.usage.lastUsed < c.clock := h.stamp_lt (s, f) _ (by simp [stamp?, hfound])
  have hused : (e.hit c.clock).usage.lastUsed = c.clock := if_pos (UInt64.le_of_lt hold)
  have hpast : ∀ y, ∀ a ∈ c.stamp? y, a < (e.hit c.clock).usage.lastUsed := by
    rw [hused]
    exact h.stamp_lt
  have haccounted : Accounted (c.lookup s f).2 := h.accounted.lookup
  rw [lookup_of_some hfound] at haccounted ⊢
  refine ⟨h.policy_eq, haccounted, ?_, fun y a ha => ?_, ?_⟩
  · change Queue _ (kept c.limits.perSite.toNat c.limits.total.toNat _)
    rw [kept_concat hsite htotal, use, if_pos hmem]
    exact queue_write h.queue hpast
  · have ha' := (stamp?_write y).symm.trans ha
    split at ha'
    · rw [← Option.some.inj ha', hused]
      exact h.clock_lt hfew
    · exact UInt64.lt_trans (h.stamp_lt y a ha') (h.clock_lt hfew)
  · rw [List.length_append, List.length_singleton]
    exact h.tick hfew

/-- One call uses at most one context, and the cache goes on as the queue does. -/
theorem Follows.step {uses : List Context} (h : Follows c uses)
    (hsite : 0 < c.limits.perSite.toNat) (htotal : 0 < c.limits.total.toNat)
    (hfew : uses.length + 2 < 2 ^ 64) {op : Op} (huse : op.isUse) :
    Follows (c.step op) (uses ++ (c.touched? op).toList) := by
  cases op with
  | insert site fp raw post => exact h.insert hsite htotal hfew raw post
  | lookup site fp =>
    cases hfound : c.peek? site fp with
    | none =>
      rw [Cache.step, touched?, lookup_of_none hfound]
      simpa using h
    | some e =>
      have hnext := h.lookup hsite htotal hfew hfound
      rw [Cache.step, touched?, lookup_of_some hfound] at *
      exact hnext
  | insertCold | confirm | invalidate | clear => cases huse

/-- A run goes on as the queue does. -/
theorem Follows.run {uses : List Context} (h : Follows c uses)
    (hsite : 0 < c.limits.perSite.toNat) (htotal : 0 < c.limits.total.toNat) {ops : List Op}
    (huse : ∀ op ∈ ops, op.isUse) (hfew : uses.length + ops.length + 1 < 2 ^ 64) :
    Follows (c.run ops) (uses ++ c.touches ops) := by
  induction ops generalizing c uses with
  | nil =>
    rw [touches, List.append_nil]
    exact h
  | cons op rest ih =>
    rw [List.length_cons] at hfew
    have hnext := h.step hsite htotal (by omega) (huse op List.mem_cons_self)
    have hone : (c.touched? op).toList.length ≤ 1 := by
      cases c.touched? op <;> simp
    have hlimits : (c.step op).limits = c.limits := (step_settings op).1
    have hrun := ih hnext (hlimits ▸ hsite) (hlimits ▸ htotal)
      (fun o ho => huse o (List.mem_cons_of_mem _ ho)) (by rw [List.length_append]; omega)
    rw [List.append_assoc] at hrun
    exact hrun

/-- A context that was used in a run is in the cache at the end exactly if, counting the contexts
used after its last use, its own site is not full without it and all sites together, each counted
up to its bound, leave a place. -/
theorem contains_run_iff (limits : Limits) (hsite : 0 < limits.perSite)
    (htotal : 0 < limits.total) (ops : List Op) (huse : ∀ op ∈ ops, op.isUse)
    (hfew : ops.length < 2 ^ 64 - 1) (x : Context)
    (hx : x ∈ touches { limits, policy := .leastRecentlyUsed } ops) :
    let later := since x (touches { limits, policy := .leastRecentlyUsed } ops)
    (run { limits, policy := .leastRecentlyUsed } ops).contains x.1 x.2 = true ↔
      distinct x.1 later < limits.perSite.toNat ∧
        distinct x.1 later + ∑ t ∈ (later.map Prod.fst).toFinset.erase x.1,
          min limits.perSite.toNat (distinct t later) < limits.total.toNat := by
  obtain ⟨older, huses, hout⟩ := exists_since hx
  have hrun := (follows_empty limits).run (UInt64.lt_iff_toNat_lt.mp hsite)
    (UInt64.lt_iff_toNat_lt.mp htotal) huse (by rw [List.length_nil]; omega)
  have hqueue := hrun.queue
  rw [(run_settings ops).1, List.nil_append, huses] at hqueue
  rw [contains, Std.ExtTreeMap.contains_iff_mem, ← mem_queue_iff hqueue]
  exact mem_kept_iff hout

/-- Three sites use a cache of three places, two for each site. -/
def pressed : List Op :=
  [.insert ⟨1⟩ ⟨1⟩ [1] { nextPc := 1 }, .insert ⟨1⟩ ⟨2⟩ [2] { nextPc := 2 },
    .insert ⟨2⟩ ⟨1⟩ [3] { nextPc := 3 }, .lookup ⟨1⟩ ⟨1⟩, .lookup ⟨3⟩ ⟨3⟩,
    .insert ⟨3⟩ ⟨1⟩ [4] { nextPc := 4 }, .insert ⟨1⟩ ⟨3⟩ [5] { nextPc := 5 }]

/-- A context is gone that the last uses leave no place for. -/
theorem contains_run_iff_pressed :
    let c := run { limits := ⟨2, 3⟩, policy := .leastRecentlyUsed } pressed
    c.contains ⟨1⟩ ⟨1⟩ = true ∧ c.contains ⟨2⟩ ⟨1⟩ = false := by
  have huse : ∀ op ∈ pressed, op.isUse := by decide
  have hfew : pressed.length < 2 ^ 64 - 1 := by decide
  have law := contains_run_iff ⟨2, 3⟩ (by decide) (by decide) pressed huse hfew
  refine ⟨(law (⟨1⟩, ⟨1⟩) (by decide +kernel)).mpr (by decide +kernel),
    Bool.eq_false_iff.mpr fun h => ?_⟩
  exact absurd ((law (⟨2⟩, ⟨1⟩) (by decide +kernel)).mp h) (by decide +kernel)

end Cache

end CallMemo
