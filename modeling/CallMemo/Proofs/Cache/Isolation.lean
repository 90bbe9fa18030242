import CallMemo.Proofs.Cache.Likeness
import CallMemo.Proofs.Cache.Calls

/-!
# Isolation of sites

If the bound on all entries leaves room for every site that is inserted into, each up to its own
bound, then a site that is not full never meets that bound. With the default policy an insertion
then touches its own shard only, and the calls on a site return what they would return without the
calls on other sites. Two runs whose clocks differ are compared by shards that are alike.
-/

namespace CallMemo

namespace Cache

variable {c d : Cache} {S : Finset SiteId} {s t : SiteId} {f g : Fingerprint} {e x : Entry}
  {op : Op}

/-- The calls of a run with what they return. -/
def answers (c : Cache) : List Op → List (Op × Answer)
  | [] => []
  | op :: rest => (op, c.answer op) :: (c.step op).answers rest

/-- The site that a call may add an entry to. -/
def Op.target? : Op → Option SiteId
  | .insert site _ _ _ | .insertCold site _ _ _ _ => some site
  | .lookup .. | .confirm .. | .invalidate .. | .clear => none

/-- The sites that are inserted into in a run. -/
def targets (ops : List Op) : Finset SiteId := (ops.filterMap Op.target?).toFinset

/-- Whether a call is on a site; clearing the cache is on all of them. -/
def Op.concerns (s : SiteId) : Op → Bool
  | .insert site _ _ _ | .insertCold site _ _ _ _ | .lookup site _ | .confirm site _
  | .invalidate site => site = s
  | .clear => true

/-- What is shown of the entries of a site, by ascending fingerprint. -/
def exportSite (c : Cache) (site : SiteId) : List ExportedEntry :=
  (c.entries site).map fun (fp, e) => e.exported fp

/-- The export of a site is made of its shard alone. -/
theorem exportSite_eq : c.exportSite s = (Shard.exported (c.shard s)).toList.map (·.2) := by
  rw [exportSite, entries, Shard.exported, Std.ExtTreeMap.toList_map, List.map_map]
  rfl

/-- The entries of a cache with the default policy belong to sites of `S`, and there is room for all
of these up to their bounds. All uses are over. -/
structure Housed (S : Finset SiteId) (c : Cache) : Prop where
  /-- The policy is the default one. -/
  policy_eq : c.policy = .leastRecentlyUsed
  /-- The accounts are right. -/
  accounted : Accounted c
  /-- Sites may have entries. -/
  perSite_pos : 0 < c.limits.perSite.toNat
  /-- All sites together meet the bound on all entries at most. -/
  room : S.card * c.limits.perSite.toNat ≤ c.limits.total.toNat
  /-- Entries belong to sites of `S`. -/
  site_mem : ∀ t g x, c.peek? t g = some x → t ∈ S
  /-- All uses are over. -/
  stamp_lt : ∀ t g x, c.peek? t g = some x → x.usage.lastUsed < c.clock
  /-- The reading zero is over. -/
  clock_ne : c.clock ≠ 0

/-- Other sites have no entries. -/
theorem Housed.entryCount_eq_zero (h : Housed S c) (ht : t ∉ S) : c.entryCount t = 0 :=
  entryCount_eq_zero_iff.mpr fun g =>
    Option.eq_none_iff_forall_ne_some.mpr fun x hx => ht (h.site_mem t g x hx)

/-- So the size is the sum over the sites that are housed. -/
theorem Housed.size_eq_sum (h : Housed S c) : c.size = ∑ t ∈ S, c.entryCount t :=
  size_eq_sum_of_support fun _ ht => h.entryCount_eq_zero ht

/-- A site that is not full finds a free place. -/
theorem Housed.not_tight (h : Housed S c) (hs : s ∈ S)
    (hroom : (c.shard s).size < c.limits.perSite.toNat) : ¬ c.Tight s := by
  have hlt : c.size < S.card * c.limits.perSite.toNat := by
    rw [h.size_eq_sum, ← smul_eq_mul, ← Finset.sum_const]
    exact Finset.sum_lt_sum (fun t _ => h.accounted.entryCount_le t) ⟨s, hs, hroom⟩
  have htotal := h.accounted.total_eq
  have hle := h.room
  rw [not_tight_iff, UInt64.lt_iff_toNat_lt]
  omega

/-- If the site has a free place or a victim of its own, its shard alone decides what becomes of an
entry, and no other shard is touched. -/
theorem Placement.eq_seat {n : Nat} {outcome : InsertOutcome}
    (hplace : Placement s f e (n + 1) none false c d outcome)
    (hp : c.policy = .leastRecentlyUsed) (hpos : 0 < c.limits.perSite.toNat)
    (hroom : (c.shard s).size < c.limits.perSite.toNat → ¬ c.Tight s) :
    outcome = (Shard.seat (c.shard s) c.limits.perSite.toNat s f e).2 ∧
      ∀ t, d.shard t =
        if s = t then (Shard.seat (c.shard s) c.limits.perSite.toNat s f e).1 else c.shard t := by
  have not_spared {P : Prop} (tight : c.Tight s) (spared : c.OwnSpared s false) : P := by
    have hfull : c.limits.perSite.toNat ≤ (c.shard s).size :=
      Nat.le_of_not_lt fun hlt => hroom hlt tight
    obtain ⟨v, hv⟩ :=
      EvictionPolicy.exists_victim_of_size_pos (Nat.lt_of_lt_of_le hpos hfull)
    rw [← hp, spared (.inl hfull)] at hv
    cases hv
  cases hplace with
  | replaced present =>
    rw [Shard.seat, if_pos present]
    exact ⟨rfl, fun t => shard_setShard⟩
  | vacant absent free =>
    rw [Shard.seat, if_neg absent, if_pos (Nat.lt_of_not_le (not_tight_iff.mp free).1)]
    exact ⟨rfl, fun t => shard_setShard⟩
  | own absent tight turn named =>
    have hfull := turn.resolve_right (by simp)
    rw [hp] at named
    rw [Shard.seat, if_neg absent, if_neg (Nat.not_lt.mpr hfull), named]
    exact ⟨rfl, fun t => shard_setShard⟩
  | elsewhere absent tight spared stalest rest => exact not_spared tight spared
  | ownNext absent tight spared stalest ranked rest => exact not_spared tight spared
  | noRoom absent tight spared stalest unranked => exact not_spared tight spared

/-- An insertion seats its entry in the shard of its site. -/
theorem Housed.insertEntry_eq_seat (h : Housed S c) (hs : s ∈ S) (clock : UInt64)
    (f : Fingerprint) (e : Entry) :
    ({ c with clock }.insertEntry s f e).outcome =
        (Shard.seat (c.shard s) c.limits.perSite.toNat s f e).2 ∧
      ∀ t, ({ c with clock }.insertEntry s f e).cache.shard t =
        if s = t then (Shard.seat (c.shard s) c.limits.perSite.toNat s f e).1 else c.shard t := by
  have hplace : Placement s f e (3 + 1) none false _ ({ c with clock }.insertEntry s f e).cache _ :=
    insertEntry_placement
  have hseat := hplace.eq_seat h.policy_eq h.perSite_pos (by
    rw [Tight, shard_setShard_self]
    exact h.not_tight hs)
  rw [shard_setShard_self] at hseat
  refine ⟨hseat.1, fun t => (hseat.2 t).trans ?_⟩
  split
  · rfl
  · next hne => exact shard_setShard_of_ne hne

theorem Housed.names (h : Housed S c) : c.policy.NamesMembers :=
  h.policy_eq ▸ EvictionPolicy.leastRecentlyUsed_namesMembers

theorem Housed.timely (h : Housed S c) : Timely c := ⟨h.clock_ne, h.stamp_lt⟩

/-- Every call keeps the entries housed, if it inserts into a site of `S` and the clock does not run
over. -/
theorem Housed.step (h : Housed S c) (hin : ∀ t, op.target? = some t → t ∈ S)
    (hfew : c.clock.toNat + (c.touched? op).toList.length < 2 ^ 64) : Housed S (c.step op) := by
  obtain ⟨hlimits, hpolicy⟩ := c.step_settings op
  have htimely := h.timely.step hfew
  exact {
    policy_eq := hpolicy.trans h.policy_eq
    accounted := h.accounted.step h.names op
    perSite_pos := hlimits ▸ h.perSite_pos
    room := hlimits ▸ h.room
    site_mem := fun t g x hx => by
      cases stems_of_peek? hx with
      | recorded hop taken => exact hin t (by rw [hop]; rfl)
      | restored hop taken => exact hin t (by rw [hop]; rfl)
      | used hop hy => exact h.site_mem t g _ hy
      | confirmed hop hy => exact h.site_mem t g _ hy
      | kept away hy => exact h.site_mem t g _ hy
    stamp_lt := htimely.stamp_lt
    clock_ne := htimely.clock_ne }

/-- A call on other sites leaves the shard of a site alone. -/
theorem shard_step_of_not_concerns (h : Housed S c)
    (hin : ∀ t, op.target? = some t → t ∈ S) (hop : op.concerns s = false) :
    (c.step op).shard s = c.shard s := by
  cases op with
  | insert site fp raw post =>
    have hne : site ≠ s := of_decide_eq_false hop
    exact ((h.insertEntry_eq_seat (hin site rfl) _ _ _).2 s).trans (if_neg hne)
  | insertCold site fp raw post hits =>
    have hne : site ≠ s := of_decide_eq_false hop
    exact ((h.insertEntry_eq_seat (hin site rfl) c.clock _ _).2 s).trans (if_neg hne)
  | lookup site fp => exact shard_lookup_of_ne (of_decide_eq_false hop)
  | confirm site fp => exact shard_confirm_of_ne (of_decide_eq_false hop)
  | invalidate site => exact shard_invalidate.trans (if_neg (of_decide_eq_false hop))
  | clear => cases hop

/-- Two caches with room for the same sites, in which the shards of a site are alike. The clock of
the second one may lag behind. -/
structure Parallel (S : Finset SiteId) (s : SiteId) (c d : Cache) : Prop where
  /-- The first one has room for the sites. -/
  housed : Housed S c
  /-- The second one has room for the sites. -/
  housed' : Housed S d
  /-- The bounds are the same. -/
  limits_eq : d.limits = c.limits
  /-- The second clock does not run ahead. -/
  clock_le : d.clock ≤ c.clock
  /-- The shards of the site are alike. -/
  alike : Shard.Alike (c.shard s) (d.shard s)

/-- Entries that are used now join. -/
theorem Parallel.joins_now (h : Parallel S s c d) {x x' : Entry}
    (hshown : x.exported f = x'.exported f) (hx : x.usage.lastUsed = c.clock)
    (hx' : x'.usage.lastUsed = d.clock) : Shard.Joins (c.shard s) (d.shard s) f x x' := by
  refine Shard.joins_of_lt hshown ?_ ?_ ?_ ?_
  · rw [hx]
    exact fun g y hy => h.housed.stamp_lt s g y hy
  · rw [hx']
    exact fun g y hy => h.housed'.stamp_lt s g y hy
  · rw [hx]
    exact h.housed.clock_ne
  · rw [hx']
    exact h.housed'.clock_ne

/-- Insertions of like entries return the same and keep the shards of the site alike. -/
theorem Parallel.insertEntry (h : Parallel S s c d) (hs : s ∈ S) {x x' : Entry}
    (hj : Shard.Joins (c.shard s) (d.shard s) f x x') (m n : UInt64) :
    ({ c with clock := m }.insertEntry s f x).outcome =
        ({ d with clock := n }.insertEntry s f x').outcome ∧
      Shard.Alike (({ c with clock := m }.insertEntry s f x).cache.shard s)
        (({ d with clock := n }.insertEntry s f x').cache.shard s) := by
  obtain ⟨hout, hshard⟩ := h.housed.insertEntry_eq_seat hs m f x
  obtain ⟨hout', hshard'⟩ := h.housed'.insertEntry_eq_seat hs n f x'
  obtain ⟨houtcome, halike⟩ := h.alike.seat hj c.limits.perSite.toNat s
  rw [hout, hout', hshard s, hshard' s, if_pos rfl, if_pos rfl, h.limits_eq]
  exact ⟨houtcome, halike⟩

/-- Lookups find the same and keep the shards of the site alike. -/
theorem Parallel.lookup (h : Parallel S s c d) (f : Fingerprint) :
    (c.lookup s f).1 = (d.lookup s f).1 ∧
      Shard.Alike ((c.lookup s f).2.shard s) ((d.lookup s f).2.shard s) := by
  cases hx : c.peek? s f with
  | none =>
    have hx' : d.peek? s f = none := h.alike.getElem?_eq_none hx
    rw [lookup_of_none hx, lookup_of_none hx']
    exact ⟨rfl, h.alike⟩
  | some x =>
    obtain ⟨x', hpair⟩ := h.alike.exists_pair hx
    have hx' : d.peek? s f = some x' := hpair.2
    have hshown := h.alike.exported_eq_of_pair hpair
    have hj := h.joins_now (Entry.exported_hit hshown c.clock d.clock)
      (h.housed.timely.lastUsed_hit hx) (h.housed'.timely.lastUsed_hit hx')
    rw [lookup_of_some hx, lookup_of_some hx', Entry.toHit_eq hshown]
    refine ⟨rfl, ?_⟩
    change Shard.Alike ((c.setShard s _).shard s) ((d.setShard s _).shard s)
    rw [shard_setShard_self, shard_setShard_self]
    exact h.alike.insert hj

/-- Checks that agreed confirm the same and keep the shards of the site alike. -/
theorem Parallel.confirm (h : Parallel S s c d) (f : Fingerprint) :
    (c.confirm s f).1 = (d.confirm s f).1 ∧
      Shard.Alike ((c.confirm s f).2.shard s) ((d.confirm s f).2.shard s) := by
  cases hx : c.peek? s f with
  | none =>
    have hx' : d.peek? s f = none := h.alike.getElem?_eq_none hx
    rw [confirm_of_none hx, confirm_of_none hx']
    exact ⟨rfl, h.alike⟩
  | some x =>
    obtain ⟨x', hpair⟩ := h.alike.exists_pair hx
    rw [confirm_of_some hx, confirm_of_some hpair.2, shard_setShard_self, shard_setShard_self]
    exact ⟨rfl, h.alike.insert (h.alike.joins_confirm hpair)⟩

/-- A call on the site returns the same and keeps its shards alike. -/
theorem Parallel.answer_eq (h : Parallel S s c d) (hin : ∀ t, op.target? = some t → t ∈ S)
    (hop : op.concerns s = true) :
    c.answer op = d.answer op ∧ Shard.Alike ((c.step op).shard s) ((d.step op).shard s) := by
  cases op with
  | insert site fp raw post =>
    obtain rfl : site = s := of_decide_eq_true hop
    have hj : Shard.Joins (c.shard site) (d.shard site) fp ⟨raw, post, .fresh c.clock⟩
        ⟨raw, post, .fresh d.clock⟩ := h.joins_now rfl rfl rfl
    exact (h.insertEntry (hin site rfl) hj (c.clock + 1) (d.clock + 1)).imp_left
      (congrArg Answer.insertion)
  | insertCold site fp raw post hits =>
    obtain rfl : site = s := of_decide_eq_true hop
    have hj : Shard.Joins (c.shard site) (d.shard site) fp ⟨raw, post, .cold hits⟩
        ⟨raw, post, .cold hits⟩ := h.alike.joins_cold rfl rfl rfl
    exact (h.insertEntry (hin site rfl) hj c.clock d.clock).imp_left (congrArg Answer.insertion)
  | lookup site fp =>
    obtain rfl : site = s := of_decide_eq_true hop
    exact (h.lookup fp).imp_left (congrArg Answer.lookup)
  | confirm site fp =>
    obtain rfl : site = s := of_decide_eq_true hop
    exact (h.confirm fp).imp_left (congrArg Answer.confirm)
  | invalidate site =>
    obtain rfl : site = s := of_decide_eq_true hop
    refine ⟨congrArg Answer.invalidate ?_, ?_⟩
    · rw [invalidate_fst, invalidate_fst, entryCount, h.alike.size_eq, entryCount]
    · rw [Cache.step, Cache.step, shard_invalidate, shard_invalidate, if_pos rfl, if_pos rfl]
      exact Shard.alike_empty
  | clear =>
    refine ⟨rfl, ?_⟩
    rw [Cache.step, Cache.step, shard_clear, shard_clear]
    exact Shard.alike_empty

theorem touched?_eq_of_answer_eq (h : c.answer op = d.answer op) :
    c.touched? op = d.touched? op := by
  cases op with
  | lookup site fp => rw [touched?, touched?, Answer.lookup.inj h]
  | insert | insertCold | confirm | invalidate | clear => rfl

/-- A call on the site is made in both runs. -/
theorem Parallel.step (h : Parallel S s c d) (hin : ∀ t, op.target? = some t → t ∈ S)
    (hfew : c.clock.toNat + (c.touched? op).toList.length < 2 ^ 64) (hop : op.concerns s = true) :
    Parallel S s (c.step op) (d.step op) := by
  obtain ⟨hanswer, halike⟩ := h.answer_eq hin hop
  have htouched := touched?_eq_of_answer_eq hanswer
  have hle := UInt64.le_iff_toNat_le.mp h.clock_le
  have hfew' : d.clock.toNat + (d.touched? op).toList.length < 2 ^ 64 := by
    rw [← htouched]
    omega
  refine ⟨h.housed.step hin hfew, h.housed'.step hin hfew', ?_, ?_, halike⟩
  · rw [(step_settings op).1, (step_settings op).1, h.limits_eq]
  · rw [UInt64.le_iff_toNat_le, toNat_clock_step hfew, toNat_clock_step hfew', htouched]
    exact Nat.add_le_add_right hle _

/-- A call on other sites is made in the first run only. -/
theorem Parallel.step_left (h : Parallel S s c d) (hin : ∀ t, op.target? = some t → t ∈ S)
    (hfew : c.clock.toNat + (c.touched? op).toList.length < 2 ^ 64) (hop : op.concerns s = false) :
    Parallel S s (c.step op) d := by
  have hle := UInt64.le_iff_toNat_le.mp h.clock_le
  refine ⟨h.housed.step hin hfew, h.housed', ?_, ?_, ?_⟩
  · rw [(step_settings op).1, h.limits_eq]
  · rw [UInt64.le_iff_toNat_le, toNat_clock_step hfew]
    omega
  · rw [shard_step_of_not_concerns h.housed hin hop]
    exact h.alike

/-- The calls on a site return the same without the calls on other sites. -/
theorem Parallel.run (h : Parallel S s c d) {ops : List Op}
    (hin : ∀ op ∈ ops, ∀ t, op.target? = some t → t ∈ S)
    (hfew : c.clock.toNat + (c.touches ops).length < 2 ^ 64) :
    (c.answers ops).filter (·.1.concerns s) = d.answers (ops.filter (·.concerns s)) ∧
      Parallel S s (c.run ops) (d.run (ops.filter (·.concerns s))) := by
  induction ops generalizing c d with
  | nil => exact ⟨rfl, h⟩
  | cons op rest ih =>
    rw [touches, List.length_append] at hfew
    have hfirst : c.clock.toNat + (c.touched? op).toList.length < 2 ^ 64 := by omega
    have hlater : (c.step op).clock.toNat + ((c.step op).touches rest).length < 2 ^ 64 := by
      rw [toNat_clock_step hfirst]
      omega
    have hop := hin op List.mem_cons_self
    have hrest := fun o ho => hin o (List.mem_cons_of_mem op ho)
    cases hconcerns : op.concerns s with
    | true =>
      obtain ⟨hanswers, hrun⟩ := ih (h.step hop hfirst hconcerns) hrest hlater
      simp only [answers, List.filter_cons, hconcerns, if_true, hanswers,
        (h.answer_eq hop hconcerns).1, true_and]
      exact hrun
    | false =>
      obtain ⟨hanswers, hrun⟩ := ih (h.step_left hop hfirst hconcerns) hrest hlater
      simp only [answers, List.filter_cons, hconcerns, Bool.false_eq_true, if_false, hanswers,
        true_and]
      exact hrun

/-- An empty cache with room for all sites houses them. -/
theorem housed_empty {limits : Limits} (hsite : 0 < limits.perSite)
    (hroom : S.card * limits.perSite.toNat ≤ limits.total.toNat) : Housed S { limits } where
  policy_eq := rfl
  accounted := accounted_empty limits .leastRecentlyUsed
  perSite_pos := UInt64.lt_iff_toNat_lt.mp hsite
  room := hroom
  site_mem t g x hx := by simp [peek?, shard_eq_empty] at hx
  stamp_lt t g x hx := by simp [peek?, shard_eq_empty] at hx
  clock_ne := (by decide : (1 : UInt64) ≠ 0)

/-- If a run inserts into few sites, so that the bound on all entries leaves room for each of them
up to its own bound, then every site is served as if it were alone: its calls return the same
without the calls on other sites, and in the end it has the same entries. -/
theorem run_isolated (limits : Limits) (hsite : 0 < limits.perSite) (ops : List Op) (m : Nat)
    (hm : (targets ops).card ≤ m) (hroom : m * limits.perSite.toNat ≤ limits.total.toNat)
    (hfew : (touches { limits, policy := .leastRecentlyUsed } ops).length < 2 ^ 64 - 1)
    (s : SiteId) :
    let start : Cache := { limits, policy := .leastRecentlyUsed }
    let own := ops.filter (·.concerns s)
    (start.answers ops).filter (·.1.concerns s) = start.answers own ∧
      (∀ fp, (start.run ops).contains s fp = (start.run own).contains s fp) ∧
      (start.run ops).entryCount s = (start.run own).entryCount s ∧
      (∀ fp, (start.run ops).confidence? s fp = (start.run own).confidence? s fp) ∧
      (start.run ops).exportSite s = (start.run own).exportSite s := by
  intro start own
  have hhoused : Housed (targets ops) start :=
    housed_empty hsite ((Nat.mul_le_mul_right _ hm).trans hroom)
  have hparallel : Parallel (targets ops) s start start :=
    ⟨hhoused, hhoused, rfl, UInt64.le_refl _, Shard.alike_empty⟩
  have hin : ∀ op ∈ ops, ∀ t, op.target? = some t → t ∈ targets ops := fun op hop t ht =>
    List.mem_toFinset.mpr (List.mem_filterMap.mpr ⟨op, hop, ht⟩)
  have hticks : start.clock.toNat + (start.touches ops).length < 2 ^ 64 := by
    change 1 + (touches { limits, policy := .leastRecentlyUsed } ops).length < 2 ^ 64
    omega
  obtain ⟨hanswers, hrun⟩ := hparallel.run hin hticks
  have halike := hrun.alike
  refine ⟨hanswers, fun fp => ?_, halike.size_eq, fun fp => ?_, ?_⟩
  · rw [contains, contains, Bool.eq_iff_iff, Std.ExtTreeMap.contains_iff_mem,
      Std.ExtTreeMap.contains_iff_mem]
    exact halike.mem_iff
  · have hconfidence := congrArg (Option.map ExportedEntry.confidence)
      (halike.map_getElem?_eq fp)
    rw [Option.map_map, Option.map_map] at hconfidence
    exact hconfidence
  · rw [exportSite_eq, exportSite_eq, halike.exported_eq]

/-- Two sites take turns in a cache with room for two entries of each. -/
def mingled : List Op :=
  [.insertCold ⟨1⟩ ⟨1⟩ [1] { nextPc := 1 } 4, .insert ⟨2⟩ ⟨1⟩ [2] { nextPc := 2 },
    .insert ⟨1⟩ ⟨2⟩ [3] { nextPc := 3 }, .lookup ⟨2⟩ ⟨1⟩, .lookup ⟨1⟩ ⟨1⟩, .lookup ⟨3⟩ ⟨1⟩,
    .insert ⟨2⟩ ⟨2⟩ [4] { nextPc := 4 }, .insert ⟨1⟩ ⟨3⟩ [5] { nextPc := 5 }, .confirm ⟨1⟩ ⟨1⟩,
    .insert ⟨2⟩ ⟨3⟩ [6] { nextPc := 6 }, .invalidate ⟨2⟩, .lookup ⟨1⟩ ⟨2⟩]

/-- The calls of two sites that take turns do not disturb each other. -/
theorem run_isolated_mingled :
    let start : Cache := { limits := ⟨2, 4⟩, policy := .leastRecentlyUsed }
    let own := mingled.filter (·.concerns ⟨1⟩)
    (targets mingled).card ≤ 2 ∧
      (start.answers mingled).filter (·.1.concerns ⟨1⟩) = start.answers own ∧
      (start.answers own)[3]? =
        some (.insert ⟨1⟩ ⟨3⟩ [5] { nextPc := 5 }, .insertion (.evicted ⟨1⟩ ⟨2⟩)) ∧
      (∀ fp, (start.run mingled).contains ⟨1⟩ fp = (start.run own).contains ⟨1⟩ fp) ∧
      (start.run mingled).exportSite ⟨1⟩ = (start.run own).exportSite ⟨1⟩ := by
  have hm : (targets mingled).card ≤ 2 := by decide
  have hfew : (touches { limits := ⟨2, 4⟩, policy := .leastRecentlyUsed } mingled).length <
      2 ^ 64 - 1 := by decide +kernel
  obtain ⟨answers_eq, contains_eq, -, -, export_eq⟩ :=
    run_isolated ⟨2, 4⟩ (by decide) mingled 2 hm (by decide) hfew ⟨1⟩
  exact ⟨hm, answers_eq, by decide +kernel, contains_eq, export_eq⟩

end Cache

end CallMemo
