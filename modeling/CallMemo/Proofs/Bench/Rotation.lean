import CallMemo.Proofs.Bench.Iteration
import CallMemo.Proofs.Config.Validity
import CallMemo.Proofs.Engine.Queueing

/-!
# Rounds of the bench

The routines and their arguments repeat in rounds. Under a codec that tells the two arguments of a
routine apart, all calling contexts of a round are different. So whether the context of an iteration
is still kept does not depend on the iteration once the first round is over: what was used since is
the rest of a round.
-/

namespace CallMemo.Bench

open Recency

variable {codec : Codec} {impure : Bool} {i j n perSite total : Nat}

/-- The number of iterations after which contexts repeat. -/
def period (impure : Bool) : Nat := if impure then 6 else 2

theorem period_pos (impure : Bool) : 0 < period impure := by
  cases impure <;> decide

/-- The same routine gets the same argument in every round. -/
theorem turn_congr (h : i % period impure = j % period impure) :
    turn impure i = turn impure j ∧ argument i = argument j := by
  cases impure with
  | true =>
    have h : i % 6 = j % 6 := h
    have h2 : i % 2 = j % 2 := by omega
    have h3 : i % 3 = j % 3 := by omega
    simp [turn, argument, h2, h3]
  | false =>
    have h : i % 2 = j % 2 := h
    simp [turn, argument, h]

/-- No routine gets the same argument twice in a round. -/
theorem turn_injOn : ∀ i < period impure, ∀ j < period impure,
    turn impure i = turn impure j ∧ argument i = argument j → i = j := by
  cases impure <;> decide

/-- The routine and its argument tell the place of an iteration in its round. -/
theorem turn_eq_iff : turn impure i = turn impure j ∧ argument i = argument j ↔
    i % period impure = j % period impure := by
  refine ⟨fun ⟨hturn, hargument⟩ => ?_, turn_congr⟩
  obtain ⟨hturn_i, hargument_i⟩ := turn_congr (Nat.mod_mod i (period impure))
  obtain ⟨hturn_j, hargument_j⟩ := turn_congr (Nat.mod_mod j (period impure))
  apply turn_injOn _ (Nat.mod_lt i (period_pos impure)) _ (Nat.mod_lt j (period_pos impure))
  exact ⟨hturn_i.trans (hturn.trans hturn_j.symm),
    hargument_i.trans (hargument.trans hargument_j.symm)⟩

/-- Routines are called at addresses of their own. -/
theorem Routine.site_inj {r r' : Routine} : r.site = r'.site ↔ r = r' := by
  cases r <;> cases r' <;> decide

/-- A codec that tells the two arguments of each routine apart. -/
def Separates (codec : Codec) : Prop :=
  ∀ r : Routine, codec.encode r.site [5] ≠ codec.encode r.site [3]

/-- The default codec tells them apart. -/
theorem separates_mixing : Separates .mixing := by
  intro r
  cases r <;> decide +kernel

/-- Arguments of the bench are as different as their fingerprints. -/
theorem Separates.argument_eq_iff (hcodec : Separates codec) (r : Routine) :
    codec.encode r.site [argument i] = codec.encode r.site [argument j] ↔
      argument i = argument j := by
  have hne := hcodec r
  unfold argument
  split <;> split <;> simp [hne, hne.symm]

/-- The calling context of an iteration. -/
def context (codec : Codec) (impure : Bool) (i : Nat) : Context :=
  ((turn impure i).site, codec.encode (turn impure i).site [argument i])

/-- The contexts of the first iterations, in order. -/
def contexts (codec : Codec) (impure : Bool) (n : Nat) : List Context :=
  (List.range n).map (context codec impure)

theorem length_contexts : (contexts codec impure n).length = n := by simp [contexts]

/-- Every iteration adds its context. -/
theorem contexts_succ :
    contexts codec impure (n + 1) = contexts codec impure n ++ [context codec impure n] := by
  simp [contexts, List.range_succ]

/-- Contexts repeat after a round, whatever the codec is. -/
theorem context_congr (h : i % period impure = j % period impure) :
    context codec impure i = context codec impure j := by
  obtain ⟨hturn, hargument⟩ := turn_congr h
  rw [context, hturn, hargument, context]

/-- They do not repeat within a round if the codec tells arguments apart. -/
theorem Separates.context_eq_iff (hcodec : Separates codec) :
    context codec impure i = context codec impure j ↔ i % period impure = j % period impure := by
  refine ⟨fun h => turn_eq_iff.mp ?_, context_congr⟩
  obtain ⟨hsite, hencode⟩ := Prod.mk.inj h
  have hturn := Routine.site_inj.mp hsite
  rw [← hturn] at hencode
  exact ⟨hturn, (hcodec.argument_eq_iff _).mp hencode⟩

/-- The contexts of the round that follows an iteration, without its own. -/
def others (codec : Codec) (impure : Bool) (i : Nat) : List Context :=
  (List.range (period impure - 1)).map fun k => context codec impure (i + 1 + k)

/-- The rest of a round is the same in every round. -/
theorem others_mod : others codec impure (i % period impure) = others codec impure i := by
  refine List.map_congr_left fun k _ => context_congr ?_
  rw [Nat.add_assoc, Nat.mod_add_mod, Nat.add_assoc]

/-- Once the first round is over, the last contexts are that of `i` and the others of a round. -/
theorem contexts_of_period_le (h : period impure ≤ i) :
    contexts codec impure i =
      contexts codec impure (i - period impure) ++
        context codec impure i :: others codec impure i := by
  obtain ⟨m, rfl⟩ : ∃ m, i = m + period impure := ⟨i - period impure, by omega⟩
  have hperiod : period impure = period impure - 1 + 1 := by
    have := period_pos impure
    omega
  have hsplit : List.range (m + period impure) =
      List.range m ++ m :: (List.range (period impure - 1)).map fun k => m + 1 + k := by
    conv_lhs => rw [hperiod]
    rw [List.range_add, List.range_succ_eq_map]
    simp [Function.comp_def, Nat.add_assoc, Nat.add_comm 1]
  have hhead : context codec impure (m + period impure) = context codec impure m :=
    context_congr (Nat.add_mod_right ..)
  have htail : others codec impure (m + period impure) = others codec impure m := by
    rw [← others_mod, Nat.add_mod_right, others_mod]
  rw [contexts, hsplit, Nat.add_sub_cancel, hhead, htail, List.map_append, List.map_cons,
    List.map_map]
  rfl

/-- The iterations of a round are at different places of it. -/
theorem mod_period_ne {k : Nat} (hk : k + 1 < period impure) :
    (i + 1 + k) % period impure ≠ i % period impure := by
  intro heq
  have hmod : (k + 1) % period impure = 0 := by
    refine Nat.ModEq.add_left_cancel' i (?_ : i + (k + 1) ≡ i + 0 [MOD _])
    rwa [Nat.ModEq, Nat.add_zero, Nat.add_comm k 1, ← Nat.add_assoc]
  rw [Nat.mod_eq_of_lt hk] at hmod
  exact Nat.succ_ne_zero k hmod

/-- The context of an iteration is not used again in its round. -/
theorem Separates.context_not_mem_others (hcodec : Separates codec) :
    context codec impure i ∉ others codec impure i := by
  intro h
  obtain ⟨k, hk, heq⟩ := List.mem_map.mp h
  rw [List.mem_range] at hk
  exact mod_period_ne (by omega) (hcodec.context_eq_iff.mp heq)

/-- All contexts of the rest of a round are different. -/
theorem Separates.nodup_others (hcodec : Separates codec) : (others codec impure i).Nodup := by
  refine List.nodup_range.map_on fun k hk l hl heq => ?_
  rw [List.mem_range] at hk hl
  have hmod := hcodec.context_eq_iff.mp heq
  have hplace : k % period impure = l % period impure := Nat.ModEq.add_left_cancel' (i + 1) hmod
  rwa [Nat.mod_eq_of_lt (by omega), Nat.mod_eq_of_lt (by omega)] at hplace

/-- The context of an iteration in the first round was not used before. -/
theorem Separates.context_not_mem_contexts (hcodec : Separates codec) (h : i < period impure) :
    context codec impure i ∉ contexts codec impure i := by
  intro hmem
  obtain ⟨j, hj, heq⟩ := List.mem_map.mp hmem
  rw [List.mem_range] at hj
  rw [hcodec.context_eq_iff, Nat.mod_eq_of_lt h, Nat.mod_eq_of_lt (hj.trans h)] at heq
  omega

theorem Separates.context_not_mem_kept (hcodec : Separates codec) (h : i < period impure) :
    context codec impure i ∉ kept perSite total (contexts codec impure i) :=
  fun hmem => hcodec.context_not_mem_contexts h (mem_of_mem_kept hmem)

/-- The sites that are called in the round that follows an iteration, without its own call. -/
def calledSites (impure : Bool) (i : Nat) : List SiteId :=
  (List.range (period impure - 1)).map fun k => (turn impure (i + 1 + k)).site

/-- The sites of a round do not depend on the codec. -/
theorem map_fst_others : (others codec impure i).map Prod.fst = calledSites impure i := by
  rw [others, List.map_map]
  rfl

/-- Every further call of a site is for another context. -/
theorem Separates.distinct_others (hcodec : Separates codec) (t : SiteId) :
    distinct t (others codec impure i) = (calledSites impure i).count t := by
  let own := (others codec impure i).filter fun x => x.1 = t
  calc distinct t (others codec impure i)
      = own.toFinset.card := by simp [own, distinct, List.toFinset_filter]
    _ = own.length := List.toFinset_card_of_nodup (hcodec.nodup_others.filter _)
    _ = (calledSites impure i).count t := by
        rw [← map_fst_others, List.count, List.countP_map, List.countP_eq_length_filter]
        rfl

/-- After the first round, whether a context is kept is a matter of its place in the round. -/
theorem Separates.mem_kept_contexts_iff (hcodec : Separates codec) (h : period impure ≤ i) {r : Nat}
    (hr : i % period impure = r) :
    context codec impure i ∈ kept perSite total (contexts codec impure i) ↔
      (calledSites impure r).count (turn impure r).site < perSite ∧
        (calledSites impure r).count (turn impure r).site +
          ∑ t ∈ (calledSites impure r).toFinset.erase (turn impure r).site,
            min perSite ((calledSites impure r).count t) < total := by
  have hcontext : context codec impure i = context codec impure r :=
    context_congr (by rw [← hr, Nat.mod_mod])
  rw [contexts_of_period_le h, mem_kept_iff hcodec.context_not_mem_others, hcontext, ← others_mod,
    hr, map_fst_others]
  simp only [hcodec.distinct_others]
  rfl

/-- The other site of a round is called once. -/
theorem calledSites_pure : ∀ r < 2,
    (calledSites false r).count (turn false r).site = 0 ∧
    (calledSites false r).toFinset.erase (turn false r).site = {(turn false (r + 1)).site} ∧
    (calledSites false r).count (turn false (r + 1)).site = 1 := by
  decide

/-- The same site is called once more in a round, and the two other sites twice each. -/
theorem calledSites_impure : ∀ r < 6,
    (calledSites true r).count (turn true r).site = 1 ∧
    (calledSites true r).toFinset.erase (turn true r).site =
      {(turn true (r + 1)).site, (turn true (r + 2)).site} ∧
    (turn true (r + 1)).site ≠ (turn true (r + 2)).site ∧
    (calledSites true r).count (turn true (r + 1)).site = 2 ∧
    (calledSites true r).count (turn true (r + 2)).site = 2 := by
  decide

/-- The pure routines need two places. -/
theorem Separates.mem_kept_pure_iff (hcodec : Separates codec) (hsite : 0 < perSite) :
    context codec false i ∈ kept perSite total (contexts codec false i) ↔ 2 ≤ i ∧ 2 ≤ total := by
  by_cases hi : 2 ≤ i
  · obtain ⟨hown, hsites, hother⟩ := calledSites_pure (i % 2) (Nat.mod_lt i (by decide))
    rw [hcodec.mem_kept_contexts_iff (r := i % 2) hi rfl, hown, hsites, Finset.sum_singleton,
      hother]
    omega
  · exact iff_of_false (hcodec.context_not_mem_kept (Nat.lt_of_not_le hi)) fun h => hi h.1

/-- With the drifting routine two places for each site and six in all are needed. -/
theorem Separates.mem_kept_impure_iff (hcodec : Separates codec) :
    context codec true i ∈ kept perSite total (contexts codec true i) ↔
      6 ≤ i ∧ 2 ≤ perSite ∧ 6 ≤ total := by
  by_cases hi : 6 ≤ i
  · obtain ⟨hown, hsites, hne, hfirst, hsecond⟩ :=
      calledSites_impure (i % 6) (Nat.mod_lt i (by decide))
    rw [hcodec.mem_kept_contexts_iff (r := i % 6) hi rfl, hown, hsites, Finset.sum_pair hne,
      hfirst, hsecond]
    omega
  · exact iff_of_false (hcodec.context_not_mem_kept (Nat.lt_of_not_le hi)) fun h => hi h.1

/-- The result of an iteration of a process that started afresh: the drifting routine has run once
in each earlier round of the table. -/
def result (impure : Bool) (i : Nat) : PostState :=
  (turn impure i).post (argument i) (.ofNat (i / 3))

/-- All recorded results are those of the first `n` iterations, for their arguments and under their
contexts. -/
def Stems (codec : Codec) (impure : Bool) (n : Nat) (e : Engine) : Prop :=
  ∀ t g hit, e.cache.recorded? t g = some hit →
    ∃ j < n, context codec impure j = (t, g) ∧ hit = ⟨[argument j], result impure j⟩

/-- What stands under the context of an iteration has its argument. -/
theorem Stems.own {e : Engine} {hit : Hit} (h : Stems codec impure n e) (hcodec : Separates codec)
    (hr : e.cache.recorded? (context codec impure i).1 (context codec impure i).2 = some hit) :
    ∃ j < n, j % period impure = i % period impure ∧ hit = ⟨[argument i], result impure j⟩ := by
  obtain ⟨j, hj, heq, rfl⟩ := h _ _ _ hr
  have hmod := hcodec.context_eq_iff.mp heq
  exact ⟨j, hj, hmod, by rw [(turn_congr hmod).2]⟩

/-- An engine after the first `i` iterations of a process with the given settings and codec. -/
structure Rotates (codec : Codec) (impure : Bool) (config : Config) (i : Nat) (e : Engine) :
    Prop where
  /-- The routines are registered. -/
  ready : Ready impure e
  /-- The settings are the given ones. -/
  config_eq : e.config = config
  /-- The codec is the given one. -/
  codec_eq : e.codec = codec
  /-- It tells arguments apart. -/
  separates : Separates codec
  /-- The bounds are those of the settings. -/
  limits_eq : e.cache.limits = config.limits
  /-- The results come from the iterations. -/
  stems : Stems codec impure i e

/-- What a process starts with. -/
structure Starts (codec : Codec) (impure : Bool) (config : Config) (s : Shared) : Prop where
  /-- No iteration was made. -/
  rotates : Rotates codec impure config 0 s.engine
  /-- The drifting routine has not run. -/
  drift_eq : s.drift = 0
  /-- The cache is empty. -/
  cache_eq : s.engine.cache = { limits := config.limits }
  /-- Nothing was counted. -/
  metrics_eq : s.engine.metrics = {}
  /-- No site is demoted. -/
  none_demoted : ∀ t, ¬ s.engine.Demoted t

/-- The routines can be registered with a new engine. -/
theorem exists_start (hcodec : Separates codec) (impure : Bool) (config : Config) :
    ∃ start, ({ engine := (Engine.ofConfig config).withCodec codec } : Shared).register
        (Routine.table impure) = .ok start ∧ Starts codec impure config start := by
  let e := (Engine.ofConfig config).withCodec codec
  have hcompatible : Compatible (Routine.table impure) e := by
    intro r hr readSet hreadSet
    simp [e, Engine.readSet?, Engine.ofConfig, Engine.withCodec] at hreadSet
  obtain ⟨start, hstart, hdrift, -, hengine, hready⟩ :=
    register_of_compatible { engine := e } (Routine.table impure) hcompatible
  obtain ⟨hcache, hmetrics, hsettings, hdemoted⟩ :=
    e.declared_frame (declarations (Routine.table impure))
  rw [← hengine] at hcache hmetrics hsettings hdemoted
  have hempty : start.engine.cache = { limits := config.limits } := hcache
  refine ⟨start, hstart, ⟨hready, hsettings.config_eq, hsettings.codec_eq, hcodec, ?_, ?_⟩, hdrift,
    hempty, hmetrics, fun t ht => ?_⟩
  · rw [hempty]
  · intro t g hit hr
    rw [hempty] at hr
    simp [Cache.recorded?, Cache.peek?, Cache.shard_eq_empty] at hr
  · obtain ⟨r, hr, -⟩ := (hdemoted t).mp ht
    simp [e, Engine.ofConfig, Engine.withCodec] at hr

section

variable {config : Config} {e : Engine} {site : CallSite} {draw drift : UInt64}

/-- An iteration whose routine yields what it would in a process of its own. -/
theorem Rotates.next (h : Rotates codec impure config i e)
    (hsite : site.id = (turn impure i).site)
    (hpost : (turn impure i).post (argument i) drift = result impure i) :
    Rotates codec impure config (i + 1) (dispatch impure draw i site e drift).engine where
  ready r hr := (Engine.readSet?_dispatch ..).trans (h.ready r hr)
  config_eq := (Engine.sameSettings_dispatch ..).config_eq.trans h.config_eq
  codec_eq := (Engine.sameSettings_dispatch ..).codec_eq.trans h.codec_eq
  separates := h.separates
  limits_eq := by
    obtain ⟨calls, hcalls⟩ := Engine.cacheFollows_dispatch e site [argument i] draw
      (turn impure i).run drift
    rw [dispatch, hcalls, (Cache.run_settings calls).1, h.limits_eq]
  stems := by
    intro t g hit hr
    have hrun : ((turn impure i).run [argument i] drift).1 = .ok (result impure i) := by
      rw [Routine.run_singleton, hpost]
    rcases Engine.recorded?_of_dispatch hrun hr with ⟨heq, rfl⟩ | hold
    · refine ⟨i, Nat.lt_succ_self i, ?_, rfl⟩
      rw [← heq, hsite, h.codec_eq, context]
    · obtain ⟨j, hj, hstem⟩ := h.stems t g hit hold
      exact ⟨j, Nat.lt_succ_of_lt hj, hstem⟩

/-- An iteration whose site is not demoted and that reports nothing goes smoothly. -/
theorem Rotates.smooth (h : Rotates codec impure config i e)
    (hsite : e.callSite? (turn impure i).site = some site) (hreadSet : site.readSet = operand)
    (memoizable : ¬ e.Demoted (turn impure i).site)
    (quiet : (dispatch impure draw i site e drift).violation = none) :
    e.Smooth site [argument i] draw (turn impure i).run drift := by
  obtain ⟨hid, -⟩ := Engine.registered_of_callSite? hsite
  refine ⟨(Engine.isMemoizable_iff hsite).mpr memoizable, ?_, ⟨_, rfl⟩, ?_, quiet⟩
  · rw [hreadSet]
    rfl
  · intro hit hr
    rw [hid, h.codec_eq] at hr
    obtain ⟨j, -, -, rfl⟩ := h.stems.own h.separates hr
    rfl

/-- Such an iteration uses its context. -/
theorem Rotates.follows (h : Rotates codec impure config i e)
    (hid : site.id = (turn impure i).site)
    (smooth : e.Smooth site [argument i] draw (turn impure i).run drift)
    (hfollows : e.cache.Follows (contexts codec impure i))
    (hsite : 0 < config.limits.perSite.toNat) (htotal : 0 < config.limits.total.toNat)
    (hfew : i + 2 < 2 ^ 64) :
    (dispatch impure draw i site e drift).engine.cache.Follows
      (contexts codec impure (i + 1)) := by
  have hnext := smooth.follows hfollows (h.limits_eq ▸ hsite) (h.limits_eq ▸ htotal)
    (by rwa [length_contexts])
  rwa [hid, h.codec_eq, ← context, ← contexts_succ] at hnext

end

end CallMemo.Bench
