import CallMemo.Proofs.Cache.Effect
import CallMemo.Proofs.Cache.Tour

/-!
# The stalest entry of all

An insertion never compares all entries with each other. It compares the victims of the sites by
priority, leaves out those that do not rank below the requester's own, and lets the requester's own
victim give way only when nothing else is left. Under the default policy the entry that gives way
is nevertheless the first one in a single order of all entries, whichever way the maps are walked.
-/

namespace CallMemo

namespace Cache

/-- The place of an entry in the order of a site's entries. -/
def standing (g : Fingerprint) (x : Entry) : List UInt64 :=
  [x.usage.lastUsed, x.usage.hits, g.val]

/-- The place of an entry of site `t` in the order of all entries when site `s` needs room. -/
def standingFor (s t : SiteId) (g : Fingerprint) (x : Entry) : List UInt64 :=
  [x.usage.lastUsed, x.usage.hits, if t = s then 0 else 1, t.val, g.val]

/-- The first entry of a site. -/
def StalestOf (c : Cache) (s : SiteId) (v : Fingerprint) : Prop :=
  ∃ e, c.peek? s v = some e ∧ ∀ g x, c.peek? s g = some x → g ≠ v →
    List.Lex (· < ·) (standing v e) (standing g x)

/-- The first entry of all when site `s` needs room. -/
def StalestFor (c : Cache) (s t : SiteId) (v : Fingerprint) : Prop :=
  ∃ e, c.peek? t v = some e ∧ ∀ u g x, c.peek? u g = some x → (u, g) ≠ (t, v) →
    List.Lex (· < ·) (standingFor s t v e) (standingFor s u g x)

variable {c c' : Cache} {s t u : SiteId} {f g v w : Fingerprint} {e x : Entry} {o : InsertOutcome}

/-- Within a site the stalest entry is the one that ranks lowest. -/
theorem standing_lex_iff : List.Lex (· < ·) (standing v e) (standing g x) ↔
    (⟨e.recency, v.val⟩ : Rank) < ⟨x.recency, g.val⟩ := by
  simp only [standing, List.cons_lex_cons_iff, List.not_lex_nil, Rank.lt_iff, Priority.lt_iff,
    Entry.recency, Priority.mk.injEq]
  tauto

/-- Among all entries recency comes first, then the own site, then the identities of site and entry.
-/
theorem standingFor_lex_iff :
    List.Lex (· < ·) (standingFor s t v e) (standingFor s u g x) ↔
      e.recency < x.recency ∨ e.recency = x.recency ∧
        (t = s ∧ u ≠ s ∨ (t = s ↔ u = s) ∧ (t.val < u.val ∨ t.val = u.val ∧ v.val < g.val)) := by
  simp only [standingFor, List.cons_lex_cons_iff, List.not_lex_nil, Priority.lt_iff,
    Entry.recency, Priority.mk.injEq]
  by_cases ht : t = s <;> by_cases hu : u = s <;> simp [ht, hu] <;> tauto

/-- The lowest rank in a shard comes first in the order of the shard. -/
theorem standing_of_le (h : (⟨e.recency, v.val⟩ : Rank) ≤ ⟨x.recency, g.val⟩) (hne : g ≠ v) :
    List.Lex (· < ·) (standing v e) (standing g x) := by
  rw [standing_lex_iff]
  exact Rank.lt_of_le_of_name_ne h fun hname => hne (congrArg Fingerprint.mk hname.symm)

/-- Within a site both orders agree. -/
theorem standingFor_of_standing (h : List.Lex (· < ·) (standing v e) (standing g x)) :
    List.Lex (· < ·) (standingFor s t v e) (standingFor s t g x) := by
  rw [standing_lex_iff, Rank.lt_iff] at h
  rw [standingFor_lex_iff]
  exact h.imp_right fun hk => ⟨hk.1, .inr ⟨Iff.rfl, .inr ⟨rfl, hk.2⟩⟩⟩

/-- No two of them stand before each other. -/
theorem lex_asymm {a b : List UInt64} (h : List.Lex (· < ·) a b) : ¬ List.Lex (· < ·) b a :=
  List.lt_asymm h

/-- No two entries of a site come first. -/
theorem StalestOf.unique (h : c.StalestOf s v) (h' : c.StalestOf s w) : v = w := by
  obtain ⟨e, he, hfirst⟩ := h
  obtain ⟨x, hx, hfirst'⟩ := h'
  by_contra hne
  exact lex_asymm (hfirst w x hx fun hk => hne hk.symm) (hfirst' v e he hne)

/-- No two entries of all come first. -/
theorem StalestFor.unique (h : c.StalestFor s t v) (h' : c.StalestFor s u w) :
    (t, v) = (u, w) := by
  obtain ⟨e, he, hfirst⟩ := h
  obtain ⟨x, hx, hfirst'⟩ := h'
  by_contra hne
  exact lex_asymm (hfirst u w x hx fun hk => hne hk.symm) (hfirst' t v e he hne)

/-- The victim of a shard is its first entry. -/
theorem stalestOf_of_victim? (hc : c.policy = .leastRecentlyUsed)
    (named : c.policy.victim? (c.shard s) = some v) : c.StalestOf s v := by
  rw [hc] at named
  obtain ⟨e, he, hle⟩ := EvictionPolicy.victim?_eq_some_iff.mp named
  exact ⟨e, he, fun g x hx hne => standing_of_le (hle g x hx) hne⟩

/-- A site offers the recency of its victim. -/
theorem victimPriority?_of_victim? (hc : c.policy = .leastRecentlyUsed)
    (named : c.policy.victim? (c.shard u) = some w) (hx : c.peek? u w = some x) :
    c.victimPriority? (c.shard u) = some x.recency := by
  refine victimPriority?_eq_some_iff.mpr ⟨w, x, named, hx, ?_⟩
  rw [hc]
  rfl

/-- An entry of a site has the site's victim at or before it. -/
theorem exists_victim_le (hc : c.policy = .leastRecentlyUsed) (hx : c.peek? u g = some x) :
    ∃ (w : Fingerprint) (y : Entry), c.victimPriority? (c.shard u) = some y.recency ∧
      (⟨y.recency, w.val⟩ : Rank) ≤ ⟨x.recency, g.val⟩ := by
  obtain ⟨w, hw⟩ := EvictionPolicy.exists_victim (mem_shard_of_peek? hx)
  obtain ⟨y, hy, hle⟩ := EvictionPolicy.victim?_eq_some_iff.mp hw
  rw [← hc] at hw
  exact ⟨w, y, victimPriority?_of_victim? hc hw hy, hle g x hx⟩

/-- A rank that is not exceeded has a priority that is not exceeded. -/
theorem recency_not_lt (h : (⟨e.recency, v.val⟩ : Rank) ≤ ⟨x.recency, g.val⟩) :
    ¬ x.recency < e.recency := by
  rw [Rank.le_iff, Rank.lt_iff] at h
  exact fun hlt => h (.inl hlt)

/-- Where no other site has a lower ranked victim, the site's own victim is the first entry of all:
others of the same recency and hits come later because they are elsewhere. -/
theorem stalestFor_of_own (hc : c.policy = .leastRecentlyUsed)
    (named : c.policy.victim? (c.shard s) = some v)
    (stalest : c.stalestElsewhere? s (c.victimPriority? (c.shard s)) = none) :
    c.StalestFor s s v := by
  obtain ⟨e, he, hfirst⟩ := stalestOf_of_victim? hc named
  have hown := victimPriority?_of_victim? hc named he
  refine ⟨e, he, fun u g x hx hne => ?_⟩
  by_cases hu : u = s
  · subst hu
    exact standingFor_of_standing (hfirst g x hx fun hk => hne (congrArg _ hk))
  · obtain ⟨w, y, hrank, hle⟩ := exists_victim_le hc hx
    have hcandidate : ¬ y.recency < e.recency := by
      intro hlt
      have hmem : (u, y.recency) ∈ c.candidates s (c.victimPriority? (c.shard s)) :=
        mem_candidates_iff.mpr ⟨hu, hrank, by simpa [hown] using hlt⟩
      rw [stalestElsewhere?_eq_none_iff.mp stalest] at hmem
      cases hmem
    have hvictim := recency_not_lt hle
    rw [standingFor_lex_iff]
    grind [Priority.lt_trans, Priority.eq_of_not_lt]

/-- The lowest ranked candidate of the other sites is the first entry of all. -/
theorem stalestFor_of_elsewhere (hc : c.policy = .leastRecentlyUsed)
    (stalest : c.stalestElsewhere? s (c.victimPriority? (c.shard s)) = some (t, v)) :
    c.StalestFor s t v := by
  obtain ⟨named, p, hp, hlowest⟩ := stalestElsewhere?_eq_some_iff.mp stalest
  obtain ⟨ht, hrank, hbelow⟩ := mem_candidates_iff.mp hp
  obtain ⟨e, he, hfirst⟩ := stalestOf_of_victim? hc named
  obtain rfl : e.recency = p :=
    Option.some.inj ((victimPriority?_of_victim? hc named he).symm.trans hrank)
  refine ⟨e, he, fun u g x hx hne => ?_⟩
  obtain ⟨w, y, hrank', hle⟩ := exists_victim_le hc hx
  have hvictim := recency_not_lt hle
  by_cases htu : u = t
  · subst htu
    exact standingFor_of_standing (hfirst g x hx fun hk => hne (congrArg _ hk))
  by_cases hu : u = s
  · -- the candidate ranks below the requester's own victim
    subst hu
    exact standingFor_lex_iff.mpr (.inl (Priority.lt_of_lt_of_not_lt (hbelow _ hrank') hvictim))
  by_cases hcandidate : ∀ q ∈ c.victimPriority? (c.shard s), y.recency < q
  · have hlower := hlowest u _ (mem_candidates_iff.mpr ⟨hu, hrank', hcandidate⟩)
    have hsite : u.val ≠ t.val := fun hk => htu (congrArg SiteId.mk hk)
    rw [Rank.le_iff, Rank.lt_iff] at hlower
    rw [standingFor_lex_iff]
    grind [Priority.lt_trans, Priority.eq_of_not_lt]
  · -- a victim that is no candidate does not rank below the requester's own
    obtain ⟨q, hq, hge⟩ : ∃ q ∈ c.victimPriority? (c.shard s), ¬ y.recency < q := by
      simpa using hcandidate
    have hlt := Priority.lt_of_lt_of_not_lt (hbelow q hq) hge
    exact standingFor_lex_iff.mpr (.inl (Priority.lt_of_lt_of_not_lt hlt hvictim))

/-- An entry that gives way in a full site is the first one of the site, and otherwise the first one
of all. -/
theorem GivesWay.stalest (h : GivesWay c s t v) (hc : c.policy = .leastRecentlyUsed) :
    c.limits.perSite.toNat ≤ c.entryCount s ∧ t = s ∧ c.StalestOf s v ∨
      c.entryCount s < c.limits.perSite.toNat ∧ c.StalestFor s t v := by
  cases h with
  | full full named => exact .inl ⟨full, rfl, stalestOf_of_victim? hc named⟩
  | own room crowded named stalest => exact .inr ⟨room, stalestFor_of_own hc named stalest⟩
  | elsewhere room crowded stalest => exact .inr ⟨room, stalestFor_of_elsewhere hc stalest⟩

/-- Which entry gives way when one is inserted for site `s` under a fingerprint it does not have. -/
structure VictimChoice (c : Cache) (s : SiteId) (i : Insertion) : Prop where
  /-- The entry that is said to give way is the one that goes. -/
  removed_iff : ∀ t v, i.outcome = .evicted t v →
    ∀ u g, c.contains u g = true ∧ i.cache.contains u g = false ↔ (u, g) = (t, v)
  /-- An entry has to give way exactly if the site or the cache is full. -/
  evicts_iff : 0 < c.limits.perSite → 0 < c.limits.total →
    ((∃ t v, i.outcome = .evicted t v) ↔
      c.entryCount s = c.limits.perSite.toNat ∨ c.total = c.limits.total)
  /-- A full site gives up its first entry. -/
  full : c.entryCount s = c.limits.perSite.toNat →
    ∀ t v, i.outcome = .evicted t v ↔ t = s ∧ c.StalestOf s v
  /-- A full cache gives up the first entry of all. -/
  crowded : c.entryCount s ≠ c.limits.perSite.toNat → c.total = c.limits.total →
    ∀ t v, i.outcome = .evicted t v ↔ c.StalestFor s t v

/-- With both bounds positive something gives way to a new entry that finds no place. -/
theorem Inserting.exists_evicted (h : Inserting s f e c c' o) (hc : Accounted c)
    (hp : c.policy.Decides) (absent : f ∉ c.shard s) (tight : c.Tight s)
    (hsite : 0 < c.limits.perSite) (htotal : 0 < c.limits.total) : ∃ t v, o = .evicted t v := by
  cases h with
  | replaced present => exact absurd present absent
  | inserted absent' room => exact absurd tight room
  | evicted absent' gives => exact ⟨_, _, rfl⟩
  | skipped absent' refuses =>
    rcases refuses.bound_eq_zero hc hp with hzero | hzero
    · exact absurd hzero (UInt64.pos_iff_ne_zero.mp hsite)
    · exact absurd hzero (UInt64.pos_iff_ne_zero.mp htotal)

/-- Entries give way where no place is free. -/
theorem GivesWay.tight (h : GivesWay c s t v) : c.Tight s := by
  cases h with
  | full full named => exact .inl full
  | own room crowded named stalest => exact .inr (crowded ▸ UInt64.le_refl _)
  | elsewhere room crowded stalest => exact .inr (crowded ▸ UInt64.le_refl _)

/-- A cache with an entry has positive bounds. -/
theorem Accounted.bounds_pos (hc : Accounted c) (he : c.peek? t v = some e) :
    0 < c.limits.perSite ∧ 0 < c.limits.total := by
  have hcount : 0 < c.entryCount t := by
    rw [Nat.pos_iff_ne_zero]
    intro hzero
    cases (entryCount_eq_zero_iff.mp hzero v).symm.trans he
  have hsite := hc.entryCount_le t
  have hsize := c.entryCount_le_size t
  have htotal := UInt64.le_iff_toNat_le.mp hc.total_le
  rw [hc.total_eq] at htotal
  rw [UInt64.lt_iff_toNat_lt, UInt64.lt_iff_toNat_lt, UInt64.toNat_zero]
  omega

/-- Which entry gives way, from the ways of an insertion. -/
theorem Inserting.victimChoice {i : Insertion} (h : Inserting s f e c i.cache i.outcome)
    (hc : Accounted c) (hlru : c.policy = .leastRecentlyUsed) (absent : f ∉ c.shard s) :
    VictimChoice c s i := by
  have hp : c.policy.Decides := hlru ▸ EvictionPolicy.leastRecentlyUsed_decides
  have gives {t : SiteId} {v : Fingerprint} (evicted : i.outcome = .evicted t v) :
      GivesWay c s t v := by
    rw [evicted] at h
    exact h.of_evicted.2
  constructor
  case removed_iff =>
    intro t v evicted
    rw [evicted] at h
    exact h.removed_iff hp.namesMembers
  case evicts_iff =>
    intro hsite htotal
    constructor
    · rintro ⟨t, v, evicted⟩
      rcases (gives evicted).tight with full | crowded
      · exact .inl ((hc.entryCount_le s).antisymm full)
      · exact .inr (UInt64.le_antisymm hc.total_le crowded)
    · rintro (full | crowded)
      · exact h.exists_evicted hc hp absent (.inl full.ge) hsite htotal
      · exact h.exists_evicted hc hp absent (.inr (crowded ▸ UInt64.le_refl _)) hsite htotal
  case full =>
    intro full t v
    have first {t : SiteId} {v : Fingerprint} (evicted : i.outcome = .evicted t v) :
        t = s ∧ c.StalestOf s v := by
      rcases (gives evicted).stalest hlru with ⟨-, ht, hv⟩ | ⟨room, -⟩
      · exact ⟨ht, hv⟩
      · exact absurd full room.ne
    refine ⟨first, ?_⟩
    rintro ⟨rfl, hv⟩
    obtain ⟨x, hx, -⟩ := id hv
    obtain ⟨hsite, htotal⟩ := hc.bounds_pos hx
    obtain ⟨u, w, evicted⟩ := h.exists_evicted hc hp absent (.inl full.ge) hsite htotal
    obtain ⟨rfl, hw⟩ := first evicted
    rw [evicted, hv.unique hw]
  case crowded =>
    intro room crowded t v
    have first {t : SiteId} {v : Fingerprint} (evicted : i.outcome = .evicted t v) :
        c.StalestFor s t v := by
      rcases (gives evicted).stalest hlru with ⟨full, -⟩ | ⟨-, hv⟩
      · exact absurd ((hc.entryCount_le s).antisymm full) room
      · exact hv
    refine ⟨first, fun hv => ?_⟩
    obtain ⟨x, hx, -⟩ := id hv
    obtain ⟨hsite, htotal⟩ := hc.bounds_pos hx
    obtain ⟨u, w, evicted⟩ :=
      h.exists_evicted hc hp absent (.inr (crowded ▸ UInt64.le_refl _)) hsite htotal
    have heq := hv.unique (first evicted)
    rw [evicted]
    cases heq
    rfl

/-- Under the default policy, in every cache that calls can lead to and whichever way each call
walks the maps: the entry that gives way to one under a new context of a site is the first one of
the site if that is full, and otherwise the first one of all. -/
theorem victim_is_stalest (limits : Limits) (ops : List (Tour × Op)) (o : Tour) (s : SiteId)
    (f : Fingerprint) (raw : List UInt64) (post : PostState) (hits : UInt64) :
    let c := Tour.run { limits } ops
    c.contains s f = false →
      VictimChoice c s (o.insert c s f raw post) ∧
        VictimChoice c s (o.insertCold c s f raw post hits) := by
  intro c absent
  have hrun : c = run { limits } (ops.map (·.2)) := Tour.run_eq rfl ops
  have hlru : c.policy = .leastRecentlyUsed := hrun ▸ (run_settings _).2
  have hc : Accounted c := by
    rw [hrun]
    exact ((accounted_empty limits _).run EvictionPolicy.leastRecentlyUsed_namesMembers _).1
  have hp : c.policy.NamesMembers := hlru ▸ EvictionPolicy.leastRecentlyUsed_namesMembers
  have absent' : f ∉ c.shard s := by
    intro present
    cases absent.symm.trans (Std.ExtTreeMap.contains_iff_mem.mpr present)
  rw [Tour.insert_eq hlru, Tour.insertCold_eq hlru]
  exact ⟨(hc.inserting_insert hp raw post).victimChoice hc hlru absent',
    (hc.inserting_insertCold hp raw post hits).victimChoice hc hlru absent'⟩

/-- Entries of two sites that were restored with the same hits, beside one in use. -/
def restored : List Op :=
  [.insertCold ⟨1⟩ ⟨1⟩ [1] { nextPc := 1 } 4, .insertCold ⟨2⟩ ⟨5⟩ [2] { nextPc := 2 } 4,
    .insert ⟨3⟩ ⟨1⟩ [3] { nextPc := 3 }]

/-- Among entries of equal recency and hits the requester's own one gives way. -/
theorem victim_is_stalest_restored :
    let c := Tour.run { limits := ⟨3, 3⟩ } (restored.map (.descending, ·))
    let i := Tour.descending.insert c ⟨2⟩ ⟨9⟩ [4] { nextPc := 4 }
    let j := Tour.descending.insertCold c ⟨2⟩ ⟨9⟩ [4] { nextPc := 4 } 7
    c.contains ⟨2⟩ ⟨9⟩ = false ∧ i.outcome = .evicted ⟨2⟩ ⟨5⟩ ∧ j.outcome = .evicted ⟨2⟩ ⟨5⟩ ∧
      VictimChoice c ⟨2⟩ i ∧ VictimChoice c ⟨2⟩ j := by
  have absent : (Tour.run { limits := ⟨3, 3⟩ } (restored.map (.descending, ·))).contains ⟨2⟩ ⟨9⟩ =
      false := by decide +kernel
  refine ⟨absent, by decide +kernel, by decide +kernel, ?_⟩
  exact victim_is_stalest ⟨3, 3⟩ (restored.map (.descending, ·)) .descending ⟨2⟩ ⟨9⟩ [4]
    { nextPc := 4 } 7 absent

end Cache

end CallMemo
