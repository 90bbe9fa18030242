import CallMemo.Proofs.Cache.Residency
import CallMemo.Proofs.Engine.Tally

/-!
# Dispatches in the queue

With the default policy a dispatch brings its context to the back of the queue, whether it finds a
result or records one, as long as fingerprints do not confuse inputs and no check fails. What it
counts follows from the queue: a hit for a context that is kept, and otherwise a miss and an
insertion that evicts exactly if there is no free place.
-/

namespace CallMemo

open Recency

variable {σ ε : Type}

/-- A queue has a free place for a new context of a site. -/
def Recency.hasRoom (perSite total : Nat) (s : SiteId) (q : List Context) : Bool :=
  siteCount s q < perSite ∧ q.length < total

namespace Cache

variable {c c' : Cache} {s : SiteId} {f : Fingerprint} {e : Entry} {q uses : List Context}
  {n : Nat} {reclaimed : Option Context} {ownTurn : Bool} {outcome : InsertOutcome}

/-- A context has a result exactly if the queue keeps it. -/
theorem Follows.recorded?_eq_none_iff (h : Follows c uses) :
    c.recorded? s f = none ↔
      (s, f) ∉ kept c.limits.perSite.toNat c.limits.total.toNat uses := by
  rw [h.queue.mem_iff, recorded?, Option.map_eq_none_iff, stamp?, Option.isSome_map,
    Option.not_isSome_iff_eq_none]

/-- A confirmation is no use. -/
theorem stamp?_confirm (y : Context) : (c.confirm s f).2.stamp? y = c.stamp? y := by
  rw [stamp?, peek?_confirm, stamp?]
  split
  · rw [Option.map_map]
    rfl
  · rfl

theorem confirm_frame (c : Cache) (s : SiteId) (f : Fingerprint) :
    (c.confirm s f).2.limits = c.limits ∧ (c.confirm s f).2.policy = c.policy ∧
      (c.confirm s f).2.clock = c.clock := by
  rw [confirm]
  split
  · exact ⟨rfl, rfl, rfl⟩
  · exact ⟨rfl, rfl, rfl⟩

/-- A check that agreed is no use. -/
theorem Follows.confirm (h : Follows c uses) : Follows (c.confirm s f).2 uses := by
  obtain ⟨hlimits, hpolicy, hclock⟩ := confirm_frame c s f
  have hstamp : (c.confirm s f).2.stamp? = c.stamp? := funext stamp?_confirm
  refine ⟨hpolicy.trans h.policy_eq, h.accounted.confirm, ?_, ?_, ?_⟩
  · rw [hlimits, hstamp]
    exact h.queue
  · rw [hclock, hstamp]
    exact h.stamp_lt
  · rw [hclock]
    exact h.clock_eq

/-- A newcomer that finds room evicts nothing at the last. -/
theorem Placement.outcome_of_room
    (hplace : Placement s f e (n + 1) reclaimed ownTurn c c' outcome) (absent : f ∉ c.shard s)
    (room : ¬ c.Tight s) : outcome = freePlaceOutcome reclaimed := by
  cases hplace with
  | replaced present => exact absurd present absent
  | vacant absent room => rfl
  | own absent tight turn named => exact absurd tight room
  | elsewhere absent tight spared stalest rest => exact absurd tight room
  | ownNext absent tight spared stalest ranked rest => exact absurd tight room
  | noRoom absent tight spared stalest unranked => exact absurd tight room

/-- One that does not evicts an entry of its own site if it is the turn of that site. -/
theorem Placement.outcome_of_turn
    (hplace : Placement s f e (n + 1) reclaimed ownTurn c c' outcome) (absent : f ∉ c.shard s)
    (tight : c.Tight s) (turn : c.limits.perSite.toNat ≤ (c.shard s).size ∨ ownTurn = true)
    {v : Fingerprint} (named : c.policy.victim? (c.shard s) = some v) :
    ∃ w, outcome = .evicted s w := by
  cases hplace with
  | replaced present => exact absurd present absent
  | vacant absent room => exact absurd tight room
  | own absent tight turn named => exact ⟨_, rfl⟩
  | elsewhere absent tight spared stalest rest => cases (spared turn).symm.trans named
  | ownNext absent tight spared stalest ranked rest => cases (spared turn).symm.trans named
  | noRoom absent tight spared stalest unranked => cases (spared turn).symm.trans named

/-- An absent context takes a free place, or else another context gives way to it. -/
theorem Placement.happening_eq
    (hplace : Placement s f e (n + 2) none false c c' outcome)
    (hp : c.policy = .leastRecentlyUsed) (hc : Accounted c)
    (hsite : 0 < c.limits.perSite.toNat) (htotal : 0 < c.limits.total.toNat)
    (h : Queue c.stamp? q) (absent : f ∉ c.shard s) :
    Engine.happening outcome =
      .insert (!hasRoom c.limits.perSite.toNat c.limits.total.toNat s q) := by
  have hroom : hasRoom c.limits.perSite.toNat c.limits.total.toNat s q = true ↔ ¬ c.Tight s := by
    rw [not_tight_iff_queue hc h, hasRoom, decide_eq_true_iff]
  by_cases tight : c.Tight s
  · -- some context is evicted, at the first attempt or at the second one
    rw [Bool.eq_false_iff.mpr (mt hroom.mp (not_not_intro tight)), Bool.not_false]
    cases hplace with
    | replaced present => exact absurd present absent
    | vacant absent room => exact absurd tight room
    | own absent tight turn named => rfl
    | elsewhere absent tight spared stalest rest =>
      obtain ⟨newer, -, -, -, hshard, -, free⟩ :=
        free_of_stalest hp hc hsite htotal h tight spared stalest
      rw [rest.outcome_of_room (hshard ▸ absent) free]
      rfl
    | ownNext absent tight spared stalest ranked rest =>
      obtain ⟨g, newer, rfl, -, -⟩ := own_of_stalest hp hc hsite htotal h tight spared stalest
      obtain ⟨w, rfl⟩ := rest.outcome_of_turn absent tight (.inr rfl) (victim_head hp h)
      rfl
    | noRoom absent tight spared stalest unranked =>
      obtain ⟨g, newer, rfl, -, -⟩ := own_of_stalest hp hc hsite htotal h tight spared stalest
      obtain ⟨p, hrank, -⟩ := victimPriority?_head hp h
      cases unranked.symm.trans hrank
  · rw [hroom.mpr tight, hplace.outcome_of_room absent tight]
    rfl

/-- An insertion of a context that is not kept takes a free place, or another one gives way. -/
theorem Follows.happening_insert (h : Follows c uses) (hsite : 0 < c.limits.perSite.toNat)
    (htotal : 0 < c.limits.total.toNat) (absent : c.recorded? s f = none) (raw : List UInt64)
    (post : PostState) :
    Engine.happening (c.insert s f raw post).outcome =
      .insert (!hasRoom c.limits.perSite.toNat c.limits.total.toNat s
        (kept c.limits.perSite.toNat c.limits.total.toNat uses)) := by
  let start : Cache := { c with clock := c.clock + 1 }
  have hplace : Placement s f ⟨raw, post, .fresh c.clock⟩ (2 + 2) none false
      (start.setShard s (start.shard s)) (c.insert s f raw post).cache _ :=
    insertEntry_placement (c := start)
  have hstamp : (start.setShard s (start.shard s)).stamp? = c.stamp? := by
    funext y
    rw [stamp?, peek?_setShard_shard]
    rfl
  have hshard : f ∉ (start.setShard s (start.shard s)).shard s := by
    rw [shard_setShard_self]
    exact mt (mem_queue_iff h.queue).mpr (h.recorded?_eq_none_iff.mp absent)
  exact hplace.happening_eq h.policy_eq ((h.accounted.setClock _).openShard s) hsite htotal
    (hstamp ▸ h.queue) hshard

end Cache

namespace Engine

open Cache (Follows)
open Metrics (Happening)

variable {e : Engine} {site : CallSite} {input : List UInt64} {draw : UInt64}
  {handler : Handler σ ε} {world world' : σ} {post : PostState} {uses : List Context}

/-- A handle may be served from the cache unless its site is demoted. -/
theorem isMemoizable_iff {id : SiteId} (handle : e.callSite? id = some site) :
    site.isMemoizable = true ↔ ¬ e.Demoted id := by
  obtain ⟨-, hreg⟩ := registered_of_callSite? handle
  constructor
  · rintro memoizable ⟨r, hr, hm⟩
    obtain rfl := Option.some.inj (hreg.symm.trans hr)
    exact Bool.false_ne_true (hm.symm.trans memoizable)
  · intro hdemoted
    by_contra hm
    exact hdemoted ⟨_, hreg, Bool.eq_false_iff.mpr hm⟩

/-- A dispatch records nothing but what its handler yields for its input. -/
theorem recorded?_of_dispatch {t : SiteId} {g : Fingerprint} {hit : Hit}
    (succeeds : (handler input world).1 = .ok post)
    (hr : (e.dispatch site input draw handler world).engine.cache.recorded? t g = some hit) :
    (site.id, e.codec.encode site.id input) = (t, g) ∧ hit = ⟨input, post⟩ ∨
      e.cache.recorded? t g = some hit := by
  have hd := dispatch_dispatching e site input draw handler world
  generalize e.dispatch site input draw handler world = d at hd hr
  cases hd with
  | refused width => exact .inr hr
  | replayed consulted => exact .inr (consulted.frame.2.2.2 t g ▸ hr)
  | failed consulted outcome => exact .inr (consulted.frame.2.2.2 t g ▸ hr)
  | bypassed consulted outcome => exact .inr (consulted.frame.2.2.2 t g ▸ hr)
  | recorded consulted outcome =>
    obtain rfl := consulted.fingerprint_eq rfl
    obtain rfl := Except.ok.inj (succeeds.symm.trans (congrArg Prod.fst outcome))
    rw [cache_record] at hr
    rcases Cache.recorded?_insert hr with ⟨-, ⟨rfl, rfl⟩, rfl⟩ | ⟨-, hold⟩
    · exact .inl ⟨rfl, rfl⟩
    · exact .inr (consulted.frame.2.2.2 t g ▸ hold)
  | confirmed consulted outcome =>
    rw [Cache.recorded?_confirm] at hr
    exact .inr (consulted.frame.2.2.2 t g ▸ hr)
  | contradicted consulted outcome differs =>
    have hold := (contradict_frame _ _).2.2 t g hit hr
    exact .inr (consulted.frame.2.2.2 t g ▸ hold)

/-- A dispatch that is not confused by fingerprints and comes upon no contradiction. -/
structure Smooth (e : Engine) (site : CallSite) (input : List UInt64) (draw : UInt64)
    (handler : Handler σ ε) (world : σ) : Prop where
  /-- The site may be served from the cache. -/
  memoizable : site.isMemoizable = true
  /-- The width is right. -/
  width : input.length = site.readSet.width
  /-- The handler succeeds. -/
  succeeds : ∃ post, (handler input world).1 = .ok post
  /-- What is recorded under the fingerprint is recorded for the input. -/
  own : ∀ hit, e.cache.recorded? site.id (e.codec.encode site.id input) = some hit →
    hit.rawInput = input
  /-- Nothing is reported. -/
  quiet : (e.dispatch site input draw handler world).violation = none

/-- The ways of such a dispatch. -/
inductive Smoothly (e : Engine) (site : CallSite) (input : List UInt64) : Engine → Prop
  /-- A result is recorded. -/
  | recorded (absent : e.cache.recorded? site.id (e.codec.encode site.id input) = none) (post) :
      Smoothly e site input
        ((e.count .miss).record site.id (e.codec.encode site.id input) input post).1
  /-- The recorded result is used. -/
  | replayed {hit}
      (present : e.cache.recorded? site.id (e.codec.encode site.id input) = some hit) :
      Smoothly e site input ((e.marked site.id (e.codec.encode site.id input)).count .hit)
  /-- The recorded result is used and confirmed. -/
  | confirmed {hit}
      (present : e.cache.recorded? site.id (e.codec.encode site.id input) = some hit) :
      Smoothly e site input
        { ((e.marked site.id (e.codec.encode site.id input)).count .hit).count
            (.validation true) with
          cache := (((e.marked site.id (e.codec.encode site.id input)).cache).confirm site.id
            (e.codec.encode site.id input)).2 }

/-- There is no other way for a smooth dispatch. -/
theorem Smooth.smoothly (h : Smooth e site input draw handler world) :
    Smoothly e site input (e.dispatch site input draw handler world).engine := by
  obtain ⟨memoizable, width, ⟨post, succeeds⟩, own, quiet⟩ := h
  have hd := dispatch_dispatching e site input draw handler world
  generalize e.dispatch site input draw handler world = d at hd quiet ⊢
  cases hd with
  | refused other => exact absurd width other
  | replayed consulted =>
    cases consulted with
    | replay _ _ present _ _ => exact .replayed present
  | failed consulted outcome => cases succeeds.symm.trans (congrArg Prod.fst outcome)
  | bypassed consulted outcome =>
    cases consulted with
    | bypass _ demoted => cases demoted.symm.trans memoizable
  | recorded consulted outcome =>
    cases consulted with
    | miss _ _ absent => exact .recorded absent _
    | collision _ _ present other => exact absurd (own _ present) other
  | confirmed consulted outcome =>
    cases consulted with
    | recheck _ _ present _ _ => exact .confirmed present
  | contradicted consulted outcome differs => cases quiet

/-- Such a dispatch uses its context. -/
theorem Smooth.follows (h : Smooth e site input draw handler world)
    (hfollows : Follows e.cache uses) (hsite : 0 < e.cache.limits.perSite.toNat)
    (htotal : 0 < e.cache.limits.total.toNat) (hfew : uses.length + 2 < 2 ^ 64) :
    Follows (e.dispatch site input draw handler world).engine.cache
      (uses ++ [(site.id, e.codec.encode site.id input)]) := by
  have looked {hit} (present :
      e.cache.recorded? site.id (e.codec.encode site.id input) = some hit) :
      Follows (e.marked site.id (e.codec.encode site.id input)).cache
        (uses ++ [(site.id, e.codec.encode site.id input)]) := by
    obtain ⟨x, hx, -⟩ := Option.map_eq_some_iff.mp present
    exact hfollows.lookup hsite htotal hfew hx
  have hd := h.smoothly
  generalize (e.dispatch site input draw handler world).engine = e' at hd ⊢
  cases hd with
  | recorded absent post =>
    rw [cache_record]
    exact hfollows.insert hsite htotal hfew input post
  | replayed present => exact looked present
  | confirmed present => exact (looked present).confirm

/-- It counts a hit for a context that is kept. -/
theorem Smooth.metrics_of_mem (h : Smooth e site input draw handler world)
    (hfollows : Follows e.cache uses)
    (hmem : (site.id, e.codec.encode site.id input) ∈
      kept e.cache.limits.perSite.toNat e.cache.limits.total.toNat uses) :
    ∃ hs, (hs = [.hit] ∨ hs = [.hit, .validation true]) ∧
      (e.dispatch site input draw handler world).engine.metrics =
        hs.foldl Metrics.record e.metrics := by
  have hd := h.smoothly
  generalize (e.dispatch site input draw handler world).engine = e' at hd ⊢
  cases hd with
  | recorded absent post => exact absurd hmem (hfollows.recorded?_eq_none_iff.mp absent)
  | replayed present => exact ⟨_, .inl rfl, rfl⟩
  | confirmed present => exact ⟨_, .inr rfl, rfl⟩

/-- It counts a miss for any other context, and an insertion that evicts if no place is free. -/
theorem Smooth.metrics_of_not_mem (h : Smooth e site input draw handler world)
    (hfollows : Follows e.cache uses)
    (hsite : 0 < e.cache.limits.perSite.toNat) (htotal : 0 < e.cache.limits.total.toNat)
    (hout : (site.id, e.codec.encode site.id input) ∉
      kept e.cache.limits.perSite.toNat e.cache.limits.total.toNat uses) :
    (e.dispatch site input draw handler world).engine.metrics =
      [.miss, .insert (!hasRoom e.cache.limits.perSite.toNat e.cache.limits.total.toNat site.id
        (kept e.cache.limits.perSite.toNat e.cache.limits.total.toNat uses))].foldl
          Metrics.record e.metrics := by
  have habsent := hfollows.recorded?_eq_none_iff.mpr hout
  have hd := h.smoothly
  generalize (e.dispatch site input draw handler world).engine = e' at hd ⊢
  cases hd with
  | recorded absent post =>
    rw [metrics_record, cache_count, hfollows.happening_insert hsite htotal absent]
    rfl
  | replayed present => cases habsent.symm.trans present
  | confirmed present => cases habsent.symm.trans present

end Engine

end CallMemo
