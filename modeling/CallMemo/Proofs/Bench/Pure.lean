import CallMemo.Proofs.Bench.Rotation
import CallMemo.Proofs.Engine.Transparency

/-!
# The bench without the drifting routine

Both routines are pure, so every worker has the same sum, whatever the settings are, however replays
are sampled, and whatever earlier workers have left in the cache. Of a single worker all counters
that depend on the cache are known: with two places for entries it misses twice, and with one place
it never hits.
-/

namespace CallMemo.Bench

open Recency
open Engine (Faithful)
open Metrics (Happening)

variable {codec : Codec} {i n perSite total : Nat} {s : Shared} {w : Worker} {e : Engine}
  {site : CallSite} {hs now : List Happening} {config : Config}

/-- What the pure routines yield. -/
def outcome (t : SiteId) (input : List UInt64) : Except Empty PostState :=
  .ok ((if t = Routine.twiddle.site then Routine.twiddle else .addSeven).post (input.headD 0) 0)

/-- Without the drifting routine only the pure ones have turns. -/
theorem turn_false (i : Nat) : turn false i = .addSeven ∨ turn false i = .twiddle := by
  by_cases hi : i % 2 = 0
  · exact .inl (by simp [turn, hi])
  · exact .inr (by simp [turn, hi])

/-- A pure routine yields the same in every state. -/
theorem run_eq_outcome (i : Nat) (input : List UInt64) (drift : UInt64) :
    ((turn false i).run input drift).1 = outcome (turn false i).site input := by
  rcases turn_false i with h | h
  · rw [h]
    rfl
  · rw [h]
    rfl

/-- The state of the drifting routine does not matter to the others. -/
theorem post_eq_result (i : Nat) (drift : UInt64) :
    (turn false i).post (argument i) drift = result false i := by
  rw [result]
  rcases turn_false i with h | h
  · rw [h]
    rfl
  · rw [h]
    rfl

/-- An engine that has been used for the pure routines only. -/
structure Steady (e : Engine) : Prop where
  /-- The routines are registered. -/
  ready : Ready false e
  /-- The results are theirs. -/
  faithful : Faithful outcome e

/-- Pure routines are not demoted. -/
theorem Steady.not_demoted (h : Steady e) (t : SiteId) : ¬ e.Demoted t := by
  rintro ⟨r, hr, hm⟩
  rw [Registration.isMemoizable, h.faithful.memoizable t r hr] at hm
  cases hm

/-- Whether or not a routine runs in its turn, the result is what it yields. -/
theorem Steady.next (h : Steady e) (hid : site.id = (turn false i).site)
    (hreadSet : site.readSet = operand) (draw drift : UInt64) :
    Steady (dispatch false draw i site e drift).engine ∧
      (dispatch false draw i site e drift).violation = none ∧
      (dispatch false draw i site e drift).result = .ok (result false i) := by
  have pure : ∀ input world, ((turn false i).run input world).1 = outcome site.id input := by
    intro input world
    rw [hid, run_eq_outcome]
  have hwidth : [argument i].length = site.readSet.width := by
    rw [hreadSet]
    rfl
  have hready : Ready false (dispatch false draw i site e drift).engine :=
    fun r hr => (Engine.readSet?_dispatch ..).trans (h.ready r hr)
  obtain ⟨hfaithful, hquiet, hresult⟩ := h.faithful.dispatch pure
  refine ⟨⟨hready, hfaithful⟩, hquiet, (hresult hwidth).trans ?_⟩
  rw [hid, ← run_eq_outcome i _ (.ofNat (i / 3)), Routine.run_singleton, result]
  rfl

/-- The sum of a worker that makes `n` iterations, not reduced. -/
def pureSum (n : Nat) : Nat := 12 * ((n + 1) / 2) + 4663 * (n / 2)

/-- Every iteration adds what its routine yields. -/
theorem pureSum_succ (i : Nat) :
    pureSum (i + 1) = pureSum i + ((turn false i).value (argument i) (.ofNat (i / 3))).toNat := by
  by_cases hi : i % 2 = 0
  · have hvalue : ((turn false i).value (argument i) (.ofNat (i / 3))).toNat = 12 := by
      simp [turn, argument, hi, Routine.value]
    rw [hvalue, pureSum, pureSum]
    omega
  · have hi : i % 2 = 1 := by omega
    have hvalue : ((turn false i).value (argument i) (.ofNat (i / 3))).toNat = 4663 := by
      simp [turn, argument, hi, Routine.value]
    rw [hvalue, pureSum, pureSum]
    omega

/-- A worker leaves its engine as it finds it, but for what is recorded, and so has its sum. -/
theorem runWorker_steady (draw : Nat → UInt64) (h : Steady s.engine) (n : Nat) :
    Steady (runWorker draw (Routine.table false) n s).1.engine ∧
      (runWorker draw (Routine.table false) n s).2.sum = .ofNat (pureSum n) := by
  let invariant : Nat → Shared → Worker → Prop := fun i s w =>
    Steady s.engine ∧ w.registers.length = 32 ∧ w.sum.toNat = pureSum i % 2 ^ 64
  have step : ∀ i s w, i < n → invariant i s w →
      invariant (i + 1) (iterate draw (Routine.table false) i s w).1
        (iterate draw (Routine.table false) i s w).2 := by
    rintro i s w - ⟨h, hlen, hsum⟩
    obtain ⟨site, hi⟩ := iterate_iterates h.ready hlen draw i
    obtain ⟨hid, -⟩ := Engine.registered_of_callSite? hi.handle
    obtain ⟨hnext, -, hresult⟩ := h.next hid hi.readSet_eq (draw s.calls) s.drift
    refine ⟨hi.engine_eq ▸ hnext, hi.length_eq.trans hlen, ?_⟩
    rw [hi.sum_eq _ hresult, UInt64.toNat_add, hsum, Nat.mod_add_mod, pureSum_succ]
  obtain ⟨hsteady, -, hsum⟩ := runWorker_induction invariant ⟨h, rfl, rfl⟩ step
  refine ⟨hsteady, UInt64.toNat_inj.mp ?_⟩
  rw [hsum, UInt64.toNat_ofNat']

/-- All workers have the same sum. -/
theorem runWorkers_steady (draw : Nat → UInt64) (h : Steady s.engine) (n workers : Nat) :
    Steady (runWorkers draw (Routine.table false) n workers s).1.engine ∧
      (runWorkers draw (Routine.table false) n workers s).2 =
        List.replicate workers (.ofNat (pureSum n)) := by
  induction workers generalizing s with
  | zero => exact ⟨h, rfl⟩
  | succ workers ih =>
    obtain ⟨hnext, hsum⟩ := runWorker_steady draw h n
    obtain ⟨hlast, hsums⟩ := ih hnext
    refine ⟨hlast, ?_⟩
    rw [List.replicate_succ]
    exact congrArg₂ List.cons hsum hsums

/-- How often the first `i` iterations miss with `total` places. -/
def misses (total i : Nat) : Nat := if 2 ≤ total then min i 2 else i

/-- How many of the insertions of the first `i` iterations evict with `total` places. -/
def evictions (total i : Nat) : Nat := if 2 ≤ total then 0 else i - 1

/-- What happens in the first `i` iterations with `total` places. -/
structure Counts (total i : Nat) (hs : List Happening) : Prop where
  /-- Every iteration consults the cache. -/
  lookups_eq : hs.countP Happening.isLookup = i
  /-- Some miss. -/
  misses_eq : hs.count .miss = misses total i
  /-- The others hit. -/
  hits_eq : hs.count .hit = i - misses total i
  /-- Some insertions evict. -/
  evictions_eq : hs.count (.insert true) = evictions total i

theorem misses_of_two_le (h : 2 ≤ total) : misses total i = min i 2 := if_pos h

theorem misses_one (i : Nat) : misses 1 i = i := rfl

theorem evictions_of_two_le (h : 2 ≤ total) : evictions total i = 0 := if_pos h

theorem evictions_one (i : Nat) : evictions 1 i = i - 1 := rfl

/-- There is at most one miss for each iteration. -/
theorem misses_le (total i : Nat) : misses total i ≤ i := by
  rw [misses]
  split
  · exact Nat.min_le_left i 2
  · exact Nat.le_refl i

/-- An iteration hits or misses. -/
theorem Counts.append (h : Counts total i hs)
    (hlookups : now.countP Happening.isLookup = 1) (hhits : now.count .hit + now.count .miss = 1)
    (hmisses : misses total (i + 1) = misses total i + now.count .miss)
    (hevictions : evictions total (i + 1) = evictions total i + now.count (.insert true)) :
    Counts total (i + 1) (hs ++ now) where
  lookups_eq := by rw [List.countP_append, h.lookups_eq, hlookups]
  misses_eq := by rw [List.count_append, h.misses_eq, hmisses]
  hits_eq := by
    have := misses_le total i
    rw [List.count_append, h.hits_eq, hmisses]
    omega
  evictions_eq := by rw [List.count_append, h.evictions_eq, hevictions]

/-- From the third iteration on there is a hit, checked or not, if both contexts are kept. -/
theorem Counts.hit (h : Counts total i hs) (hi : 2 ≤ i) (htotal : 2 ≤ total)
    (hnow : now = [.hit] ∨ now = [.hit, .validation true]) :
    Counts total (i + 1) (hs ++ now) := by
  have hmisses : misses total (i + 1) = misses total i := by
    rw [misses_of_two_le htotal, misses_of_two_le htotal]
    omega
  have hevictions : evictions total (i + 1) = evictions total i := by
    rw [evictions_of_two_le htotal, evictions_of_two_le htotal]
  rcases hnow with rfl | rfl
  · exact h.append rfl rfl hmisses hevictions
  · exact h.append rfl rfl hmisses hevictions

/-- An iteration whose context is not kept misses, and its insertion evicts unless there is room. -/
theorem Counts.miss (h : Counts total i hs) (hi : ¬ (2 ≤ i ∧ 2 ≤ total)) :
    Counts total (i + 1) (hs ++ [.miss, .insert (!decide (i = 0 ∨ 2 ≤ total))]) := by
  have hmisses : misses total (i + 1) = misses total i + 1 := by
    rw [misses, misses]
    split <;> omega
  by_cases hroom : i = 0 ∨ 2 ≤ total
  · have hevictions : evictions total (i + 1) = evictions total i := by
      rw [evictions, evictions]
      split <;> omega
    rw [decide_eq_true hroom]
    exact h.append rfl rfl hmisses hevictions
  · have hevictions : evictions total (i + 1) = evictions total i + 1 := by
      rw [evictions, evictions]
      split <;> omega
    rw [decide_eq_false hroom]
    exact h.append rfl rfl hmisses hevictions

/-- With one place every result but the first one evicts another, and with more none does. -/
theorem hasRoom_pure (hsite : 0 < perSite) (htotal : 0 < total) (hi : ¬ (2 ≤ i ∧ 2 ≤ total)) :
    hasRoom perSite total (turn false i).site (kept perSite total (contexts codec false i)) =
      decide (i = 0 ∨ 2 ≤ total) := by
  match i, hi with
  | 0, _ => simp [hasRoom, contexts, kept, siteCount, hsite, htotal]
  | 1, _ =>
    have hfirst :
        kept perSite total (contexts codec false 1) = [context codec false 0] := by
      simp [contexts, kept, accept, siteCount, hsite, htotal]
    have hother : siteCount (turn false 1).site [context codec false 0] = 0 := rfl
    rw [hfirst, hasRoom, hother, List.length_singleton]
    rw [Bool.eq_iff_iff, decide_eq_true_iff, decide_eq_true_iff]
    omega
  | i + 2, hi =>
    -- the one place is taken by the context of the previous iteration
    have htaken : (kept perSite total (contexts codec false (i + 2))).length ≠ 0 := by
      rw [contexts_succ, kept_concat hsite htotal, use]
      simp
    rw [hasRoom, decide_eq_false (by omega), decide_eq_false (by omega)]

/-- What holds of a single worker and its engine after `i` iterations. -/
structure Serves (codec : Codec) (config : Config) (i : Nat) (s : Shared) (w : Worker) : Prop where
  /-- The engine has been used for the iterations. -/
  rotates : Rotates codec false config i s.engine
  /-- Its results are those of the routines. -/
  steady : Steady s.engine
  /-- The register file has its length. -/
  length_eq : w.registers.length = 32
  /-- The cache follows the iterations while there are not too many. -/
  follows : i + 1 < 2 ^ 64 → s.engine.cache.Follows (contexts codec false i)
  /-- The counters tell what happened. -/
  counts : ∃ hs, s.engine.metrics = hs.foldl Metrics.record {} ∧
    Counts config.limits.total.toNat i hs

theorem Starts.serves (h : Starts codec false config s) : Serves codec config 0 s {} where
  rotates := h.rotates
  steady := by
    refine ⟨h.rotates.ready, ?_, ?_, ?_⟩
    · intro t g hit hr
      rw [h.cache_eq] at hr
      simp [Cache.recorded?, Cache.peek?, Cache.shard_eq_empty] at hr
    · intro t r hr
      by_contra hstatus
      exact h.none_demoted t ⟨r, hr, decide_eq_false hstatus⟩
    · rw [h.metrics_eq]
  length_eq := rfl
  follows _ := by
    rw [h.cache_eq]
    exact Cache.follows_empty config.limits
  counts := ⟨[], h.metrics_eq, by constructor <;> simp [misses, evictions]⟩

/-- An iteration hits if its context is kept. Otherwise it misses, and whether the insertion evicts
depends on the number of places. -/
theorem Serves.counts_dispatch (h : Serves codec config i s w)
    (hsite : 0 < config.limits.perSite.toNat) (htotal : 0 < config.limits.total.toNat)
    (hfew : i + 1 < 2 ^ 64) (hid : site.id = (turn false i).site) {draw : UInt64}
    (smooth : s.engine.Smooth site [argument i] draw (turn false i).run s.drift) :
    ∃ hs, (dispatch false draw i site s.engine s.drift).engine.metrics =
        hs.foldl Metrics.record {} ∧ Counts config.limits.total.toNat (i + 1) hs := by
  obtain ⟨hs, hmetrics, hcounts⟩ := h.counts
  have hfollows := h.follows hfew
  have hlimits := h.rotates.limits_eq
  have hkept : (site.id, s.engine.codec.encode site.id [argument i]) ∈
      kept s.engine.cache.limits.perSite.toNat s.engine.cache.limits.total.toNat
        (contexts codec false i) ↔ 2 ≤ i ∧ 2 ≤ config.limits.total.toNat := by
    rw [h.rotates.codec_eq, hid, ← context, hlimits]
    exact h.rotates.separates.mem_kept_pure_iff hsite
  by_cases hhit : 2 ≤ i ∧ 2 ≤ config.limits.total.toNat
  · obtain ⟨now, hnow, hadded⟩ := smooth.metrics_of_mem hfollows (hkept.mpr hhit)
    refine ⟨hs ++ now, ?_, hcounts.hit hhit.1 hhit.2 hnow⟩
    rw [List.foldl_append, ← hmetrics]
    exact hadded
  · have hadded := smooth.metrics_of_not_mem hfollows (hlimits ▸ hsite) (hlimits ▸ htotal)
      (mt hkept.mp hhit)
    rw [hlimits, hid, hasRoom_pure hsite htotal hhit] at hadded
    refine ⟨_, ?_, hcounts.miss hhit⟩
    rw [List.foldl_append, ← hmetrics]
    exact hadded

/-- What holds after some iterations holds after one more. -/
theorem Serves.iterate (h : Serves codec config i s w) (hsite : 0 < config.limits.perSite.toNat)
    (htotal : 0 < config.limits.total.toNat) (hfew : i + 1 < 2 ^ 64) (draw : Nat → UInt64) :
    Serves codec config (i + 1) (iterate draw (Routine.table false) i s w).1
      (iterate draw (Routine.table false) i s w).2 := by
  obtain ⟨site, hi⟩ := iterate_iterates h.rotates.ready h.length_eq draw i
  obtain ⟨hid, -⟩ := Engine.registered_of_callSite? hi.handle
  obtain ⟨hsteady, hquiet, -⟩ := h.steady.next hid hi.readSet_eq (draw s.calls) s.drift
  have smooth := h.rotates.smooth hi.handle hi.readSet_eq (h.steady.not_demoted _) hquiet
  constructor
  case rotates =>
    rw [hi.engine_eq]
    exact h.rotates.next hid (post_eq_result i s.drift)
  case steady =>
    rw [hi.engine_eq]
    exact hsteady
  case length_eq => rw [hi.length_eq, h.length_eq]
  case follows =>
    intro hmore
    rw [hi.engine_eq]
    exact h.rotates.follows hid smooth (h.follows hfew) hsite htotal hmore
  case counts =>
    rw [hi.engine_eq]
    exact h.counts_dispatch hsite htotal hfew hid smooth

/-- A fresh worker in a fresh process is served so for as many iterations as it makes. -/
theorem runWorker_serves (h : Starts codec false config s) (hsite : 0 < config.limits.perSite.toNat)
    (htotal : 0 < config.limits.total.toNat) (draw : Nat → UInt64) (hn : n < 2 ^ 64) :
    Serves codec config n (runWorker draw (Routine.table false) n s).1
      (runWorker draw (Routine.table false) n s).2 := by
  apply runWorker_induction (Serves codec config) h.serves
  intro i s w hi hserves
  exact hserves.iterate hsite htotal (by omega) draw

/-- Every worker has the sum of the results that the routines themselves yield, no site is demoted,
and the counters of a single worker depend on nothing but the number of places in all. -/
theorem bench_of_pure_routines (config : Config) (hvalid : config.validate = .ok ())
    (draw : Nat → UInt64) (iterations : UInt64) (workers : Nat) :
    ∃ start,
      ({ engine := .ofConfig config } : Shared).register (Routine.table false) = .ok start ∧
      let n := iterations.toNat
      let final := runWorkers draw (Routine.table false) n workers start
      let metrics := final.1.engine.metrics
      final.2 = List.replicate workers (.ofNat (12 * ((n + 1) / 2) + 4663 * (n / 2))) ∧
      (∀ t, ¬ final.1.engine.Demoted t) ∧
      (workers = 1 →
        metrics.lookups.toNat = n ∧
        (2 ≤ config.maxTotalEntries → metrics.misses.toNat = min n 2 ∧ metrics.evictions = 0) ∧
        (config.maxTotalEntries = 1 → metrics.hits = 0 ∧ metrics.evictions.toNat = n - 1)) := by
  obtain ⟨hsite, htotal⟩ := limits_of_validate hvalid
  obtain ⟨start, hstart, hstarts⟩ := exists_start separates_mixing false config
  refine ⟨start, hstart, ?_⟩
  intro n final metrics
  obtain ⟨hsteady, hsums⟩ := runWorkers_steady draw hstarts.serves.steady n workers
  refine ⟨hsums, hsteady.not_demoted, ?_⟩
  rintro rfl
  have hn : n < 2 ^ 64 := iterations.toNat_lt
  obtain ⟨hs, hmetrics, hcounts⟩ := (runWorker_serves hstarts hsite htotal draw hn).counts
  have hcounters : metrics = hs.foldl Metrics.record {} := hmetrics
  rw [Metrics.foldl_record] at hcounters
  have hexact : ∀ k ≤ n, (UInt64.ofNat k).toNat = k := by
    intro k hk
    apply UInt64.toNat_ofNat_of_lt'
    exact lt_of_le_of_lt hk hn
  refine ⟨?_, ?_, ?_⟩
  · rw [hcounters, hcounts.lookups_eq]
    exact hexact n (Nat.le_refl n)
  · intro hmany
    have hmany : 2 ≤ config.limits.total.toNat := UInt64.le_iff_toNat_le.mp hmany
    rw [hcounters, hcounts.misses_eq, hcounts.evictions_eq, misses_of_two_le hmany,
      evictions_of_two_le hmany]
    exact ⟨hexact _ (Nat.min_le_left n 2), rfl⟩
  · intro hone
    have hone : config.limits.total.toNat = 1 := congrArg UInt64.toNat hone
    rw [hcounters, hcounts.hits_eq, hcounts.evictions_eq, hone, misses_one, evictions_one,
      Nat.sub_self]
    exact ⟨rfl, hexact _ (Nat.sub_le n 1)⟩

/-- With a single place none of five calls hits, and each but the first one evicts the result of the
one before. -/
theorem bench_of_pure_routines_one_place :
    ({ maxTotalEntries := 1 } : Config).validate = .ok () ∧
    ∃ start, ({ engine := .ofConfig { maxTotalEntries := 1 } } : Shared).register
        (Routine.table false) = .ok start ∧
      let final := runWorkers (fun _ => 0) (Routine.table false) 5 1 start
      final.2 = [9362] ∧ final.1.engine.metrics.lookups.toNat = 5 ∧
        final.1.engine.metrics.hits = 0 ∧ final.1.engine.metrics.evictions.toNat = 4 := by
  have hvalid : ({ maxTotalEntries := 1 } : Config).validate = .ok () := by decide
  obtain ⟨start, hstart, hsums, -, hsingle⟩ := bench_of_pure_routines _ hvalid (fun _ => 0) 5 1
  obtain ⟨hlookups, -, hone⟩ := hsingle rfl
  obtain ⟨hhits, hevictions⟩ := hone rfl
  exact ⟨hvalid, start, hstart, hsums, hlookups, hhits, hevictions⟩

end CallMemo.Bench
