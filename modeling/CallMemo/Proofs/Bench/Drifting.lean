import CallMemo.Proofs.Bench.Rotation
import CallMemo.Proofs.Engine.Direct

/-!
# The bench with the drifting routine

When every replay is checked, each routine runs in its turn, so the sum is that of the bare
routines. The drifting routine is caught as soon as an earlier result of it is found. A round has
six calling contexts, two of each site, so with a place for each of them that is in the ninth
iteration, and with any less no result is kept for a whole round.
-/

namespace CallMemo.Bench

variable {codec : Codec} {i j n : Nat} {s : Shared} {w : Worker} {e : Engine} {site : CallSite}
  {config : Config}

/-- What an iteration adds to the sum. -/
def summand (i : Nat) : Nat :=
  let x := if i % 2 = 0 then 5 else 3
  if i % 3 = 0 then x + 7 else if i % 3 = 1 then (x ^^^ 0x1234) &&& 0xFFFF else x + i / 3

/-- The drifting routine has every third turn. -/
theorem turn_eq_drifting_iff : turn true i = .drifting ↔ i % 3 = 2 := by
  have hi : i % 3 = 0 ∨ i % 3 = 1 ∨ i % 3 = 2 := by omega
  rcases hi with hi | hi | hi <;> simp [turn, hi]

/-- The result that the drifting routine would have after `i / 3` runs is what is added. -/
theorem toNat_value (i : Nat) :
    ((turn true i).value (argument i) (.ofNat (i / 3))).toNat = summand i % 2 ^ 64 := by
  have hargument : i % 2 = 0 ∨ i % 2 = 1 := by omega
  have hturn : i % 3 = 0 ∨ i % 3 = 1 ∨ i % 3 = 2 := by omega
  rcases hargument with h | h <;> rcases hturn with h' | h' | h' <;>
    simp [turn, argument, Routine.value, summand, h, h']

/-- The other routines do not look at the number of runs of the drifting one. -/
theorem value_congr {r : Routine} (h : r ≠ .drifting) (x drift drift' : UInt64) :
    r.value x drift = r.value x drift' := by
  cases r with
  | addSeven | twiddle => rfl
  | drifting => exact absurd rfl h

/-- Only the drifting routine counts its runs. -/
theorem nextDrift_turn (i : Nat) :
    (turn true i).nextDrift (.ofNat (i / 3)) = .ofNat ((i + 1) / 3) := by
  by_cases hturn : turn true i = .drifting
  · have hi := turn_eq_drifting_iff.mp hturn
    have hnext : (i + 1) / 3 = i / 3 + 1 := by omega
    rw [hturn, hnext]
    simp [Routine.nextDrift]
  · have hi := mt turn_eq_drifting_iff.mpr hturn
    have hnext : (i + 1) / 3 = i / 3 := by omega
    rw [hnext]
    cases hr : turn true i with
    | addSeven | twiddle => rfl
    | drifting => exact absurd hr hturn

/-- When a calling context comes back, the drifting routine has another result, and the others have
the same. -/
theorem result_ne_iff (hi : i < 2 ^ 64) (hj : j < i) (hmod : j % 6 = i % 6) :
    result true i ≠ result true j ↔ turn true i = .drifting := by
  obtain ⟨hturn, hargument⟩ : turn true j = turn true i ∧ argument j = argument i :=
    turn_congr hmod
  rw [result, result, hturn, hargument]
  by_cases hdrifting : turn true i = .drifting
  · refine iff_of_true ?_ hdrifting
    rw [hdrifting]
    intro heq
    have hvalue : argument i + .ofNat (i / 3) = argument i + .ofNat (j / 3) := by
      simpa [Routine.post, Routine.value] using heq
    have hruns : UInt64.ofNat (i / 3) = .ofNat (j / 3) := by
      simpa using hvalue
    have hexact : ∀ k < 2 ^ 64, (UInt64.ofNat (k / 3)).toNat = k / 3 := by
      intro k hk
      apply UInt64.toNat_ofNat_of_lt'
      exact lt_of_le_of_lt (Nat.div_le_self k 3) hk
    have hrounds := congrArg UInt64.toNat hruns
    rw [hexact i hi, hexact j (hj.trans hi)] at hrounds
    omega
  · refine iff_of_false (not_not_intro ?_) hdrifting
    rw [Routine.post, value_congr hdrifting _ _ (.ofNat (j / 3)), Routine.post]

/-- A cache with that many places has one for each context of a round. -/
def Roomy (config : Config) : Prop :=
  2 ≤ config.limits.perSite.toNat ∧ 6 ≤ config.limits.total.toNat

/-- The drifting routine was caught in the first `i` iterations. -/
def Caught (config : Config) (i : Nat) : Prop := 9 ≤ i ∧ Roomy config

/-- The drifting routine is caught in the first of its turns in which an earlier result is kept. -/
theorem caught_succ_iff :
    Caught config (i + 1) ↔ Caught config i ∨ (6 ≤ i ∧ Roomy config ∧ i % 3 = 2) := by
  rw [Caught, Caught]
  by_cases h : Roomy config
  · simp only [h, and_true, true_and]
    omega
  · simp [h]

theorem Caught.succ (h : Caught config i) : Caught config (i + 1) := caught_succ_iff.mpr (.inl h)

/-- Recorded results stand where their arguments belong. -/
theorem Rotates.wellFiled {impure : Bool} (h : Rotates codec impure config i e) : e.WellFiled := by
  intro t g hit hr
  obtain ⟨j, -, hcontext, rfl⟩ := h.stems t g hit hr
  rw [context, Prod.mk.injEq] at hcontext
  obtain ⟨rfl, hg⟩ := hcontext
  refine ⟨⟨operand, h.ready _ (turn_mem_table impure j), rfl⟩, ?_⟩
  rw [h.codec_eq]
  exact hg

/-- A violation is reported exactly if an earlier result of the drifting routine is found. -/
theorem Rotates.exists_violation_iff (h : Rotates codec true config i e)
    (hrate : config.validationSampleRate = .one) (hi : i < 2 ^ 64)
    (hsite : e.callSite? (turn true i).site = some site) (draw : UInt64) :
    (∃ v, (dispatch true draw i site e (.ofNat (i / 3))).violation = some v) ↔
      site.isMemoizable = true ∧ turn true i = .drifting ∧
        e.cache.recorded? (context codec true i).1 (context codec true i).2 ≠ none := by
  obtain ⟨hid, -⟩ := Engine.registered_of_callSite? hsite
  constructor
  · rintro ⟨v, hv⟩
    have hcontradicts := (Engine.violation_dispatch_iff h.wellFiled hsite).mp hv
    have hrecorded := hcontradicts.recorded
    rw [hcontradicts.site_eq, hcontradicts.fingerprint_eq, hid, h.codec_eq] at hrecorded
    obtain ⟨j, hj, hmod, heq⟩ := h.stems.own h.separates hrecorded
    have hcached : v.cached = result true j := congrArg Hit.post heq
    have hobserved : v.observed = result true i := (Except.ok.inj hcontradicts.outcome).symm
    have hne := hcontradicts.differs
    rw [hcached, hobserved] at hne
    refine ⟨hcontradicts.memoizable, (result_ne_iff hi hj hmod).mp hne, ?_⟩
    rw [context, hrecorded]
    exact Option.some_ne_none _
  · rintro ⟨memoizable, hdrifting, hpresent⟩
    obtain ⟨hit, hhit⟩ := Option.ne_none_iff_exists'.mp hpresent
    obtain ⟨j, hj, hmod, rfl⟩ := h.stems.own h.separates hhit
    refine ⟨⟨site.id, e.codec.encode site.id [argument i], result true j, result true i⟩, ?_⟩
    refine (Engine.violation_dispatch_iff h.wellFiled hsite).mpr ?_
    exact {
      memoizable := memoizable
      site_eq := rfl
      fingerprint_eq := rfl
      recorded := by
        rw [hid, h.codec_eq]
        exact hhit
      sampled := by
        rw [h.config_eq, hrate]
        exact isSampled_one draw
      outcome := rfl
      differs := (result_ne_iff hi hj hmod).mpr hdrifting }

/-- What holds of a worker and its engine after `i` iterations. -/
structure Drifts (codec : Codec) (config : Config) (i : Nat) (s : Shared) (w : Worker) : Prop where
  /-- The engine has been used for the iterations. -/
  rotates : Rotates codec true config i s.engine
  /-- The drifting routine has run in each of its turns. -/
  drift_eq : s.drift = .ofNat (i / 3)
  /-- The register file has its length. -/
  length_eq : w.registers.length = 32
  /-- The results are added up. -/
  sum_eq : w.sum.toNat = (∑ k ∈ Finset.range i, summand k) % 2 ^ 64
  /-- Only the drifting routine is caught. -/
  demoted_iff : ∀ t, s.engine.Demoted t ↔ t = Routine.drifting.site ∧ Caught config i
  /-- Until then the cache follows the iterations. -/
  follows : i + 1 < 2 ^ 64 → ¬ Caught config i → s.engine.cache.Follows (contexts codec true i)

theorem Starts.drifts (h : Starts codec true config s) : Drifts codec config 0 s {} where
  rotates := h.rotates
  drift_eq := h.drift_eq
  length_eq := rfl
  sum_eq := rfl
  demoted_iff t := iff_of_false (h.none_demoted t) fun ⟨_, hcaught⟩ => by
    obtain ⟨hi, -⟩ := hcaught
    omega
  follows _ _ := by
    rw [h.cache_eq]
    exact Cache.follows_empty config.limits

/-- Whether or not a routine is served from the cache, it runs, and its result is returned. -/
theorem dispatch_of_checked (hrate : e.config.validationSampleRate = .one)
    (hreadSet : site.readSet = operand) (i : Nat) (draw drift : UInt64) :
    (dispatch true draw i site e drift).result = .ok ((turn true i).post (argument i) drift) ∧
      (dispatch true draw i site e drift).world = (turn true i).nextDrift drift := by
  obtain ⟨hcall, -⟩ :=
    Engine.dispatch_eq_call hrate site [argument i] draw (turn true i).run drift
  rw [Direct.call, hreadSet] at hcall
  exact ⟨congrArg Prod.fst hcall, congrArg Prod.snd hcall⟩

/-- A violation is reported in the one iteration in which the drifting routine is caught. -/
theorem Drifts.exists_violation_iff (h : Drifts codec config i s w)
    (hrate : config.validationSampleRate = .one) (hfew : i + 1 < 2 ^ 64)
    (handle : s.engine.callSite? (turn true i).site = some site) (draw : UInt64) :
    (∃ v, (dispatch true draw i site s.engine s.drift).violation = some v) ↔
      Caught config (i + 1) ∧ ¬ Caught config i := by
  rw [h.drift_eq, h.rotates.exists_violation_iff hrate (by omega) handle]
  rw [Engine.isMemoizable_iff handle, h.demoted_iff, caught_succ_iff]
  by_cases hcaught : Caught config i
  · refine iff_of_false ?_ fun hnow => hnow.2 hcaught
    rintro ⟨hsite, hturn, -⟩
    exact hsite ⟨congrArg Routine.site hturn, hcaught⟩
  · have hkept : s.engine.cache.recorded? (context codec true i).1 (context codec true i).2 ≠ none ↔
        6 ≤ i ∧ Roomy config := by
      rw [ne_eq, (h.follows hfew hcaught).recorded?_eq_none_iff, not_not, h.rotates.limits_eq]
      exact h.rotates.separates.mem_kept_impure_iff
    rw [hkept, turn_eq_drifting_iff]
    tauto

/-- It is the drifting routine that is reported. -/
theorem Drifts.site_of_violation (h : Drifts codec config i s w)
    (hrate : config.validationSampleRate = .one) (hfew : i + 1 < 2 ^ 64)
    (handle : s.engine.callSite? (turn true i).site = some site) {draw : UInt64} {v : Violation}
    (hv : (dispatch true draw i site s.engine s.drift).violation = some v) :
    v.site = Routine.drifting.site := by
  obtain ⟨hcaught, hbefore⟩ := (h.exists_violation_iff hrate hfew handle draw).mp ⟨v, hv⟩
  obtain ⟨-, -, hturn⟩ := (caught_succ_iff.mp hcaught).resolve_left hbefore
  obtain ⟨hid, -⟩ := Engine.registered_of_callSite? handle
  have hcontradicts := (Engine.violation_dispatch_iff h.rotates.wellFiled handle).mp hv
  rw [hcontradicts.site_eq, hid, turn_eq_drifting_iff.mpr hturn]

/-- An iteration demotes no other site, and the drifting routine as soon as it is caught. -/
theorem Drifts.demoted_dispatch_iff (h : Drifts codec config i s w)
    (hrate : config.validationSampleRate = .one) (hfew : i + 1 < 2 ^ 64)
    (handle : s.engine.callSite? (turn true i).site = some site) {draw : UInt64} {t : SiteId} :
    (dispatch true draw i site s.engine s.drift).engine.Demoted t ↔
      t = Routine.drifting.site ∧ Caught config (i + 1) := by
  have hviolation := h.exists_violation_iff hrate hfew handle draw
  rw [dispatch, Engine.demoted_dispatch_iff handle, h.demoted_iff, ← dispatch]
  constructor
  · rintro (⟨rfl, hcaught⟩ | ⟨v, rfl, hv⟩)
    · exact ⟨rfl, hcaught.succ⟩
    · exact ⟨h.site_of_violation hrate hfew handle hv, (hviolation.mp ⟨v, hv⟩).1⟩
  · rintro ⟨rfl, hcaught⟩
    by_cases hbefore : Caught config i
    · exact .inl ⟨rfl, hbefore⟩
    · obtain ⟨v, hv⟩ := hviolation.mpr ⟨hcaught, hbefore⟩
      exact .inr ⟨v, h.site_of_violation hrate hfew handle hv, hv⟩

/-- What holds after some iterations holds after one more. -/
theorem Drifts.iterate (h : Drifts codec config i s w) (hrate : config.validationSampleRate = .one)
    (hsite : 0 < config.limits.perSite.toNat) (htotal : 0 < config.limits.total.toNat)
    (hfew : i + 1 < 2 ^ 64) (draw : Nat → UInt64) :
    Drifts codec config (i + 1) (iterate draw (Routine.table true) i s w).1
      (iterate draw (Routine.table true) i s w).2 := by
  obtain ⟨site, hi⟩ := iterate_iterates h.rotates.ready h.length_eq draw i
  obtain ⟨hid, -⟩ := Engine.registered_of_callSite? hi.handle
  obtain ⟨hresult, hworld⟩ :=
    dispatch_of_checked (h.rotates.config_eq ▸ hrate) hi.readSet_eq i (draw s.calls) s.drift
  constructor
  case rotates =>
    rw [hi.engine_eq]
    exact h.rotates.next hid (by rw [h.drift_eq, result])
  case drift_eq => rw [hi.drift_eq, hworld, h.drift_eq, nextDrift_turn]
  case length_eq => rw [hi.length_eq, h.length_eq]
  case sum_eq =>
    rw [hi.sum_eq _ hresult, UInt64.toNat_add, h.sum_eq, h.drift_eq, toNat_value,
      Finset.sum_range_succ, ← Nat.add_mod]
  case demoted_iff =>
    intro t
    rw [hi.engine_eq]
    exact h.demoted_dispatch_iff hrate hfew hi.handle
  case follows =>
    intro hmore hcaught
    have hfree : ¬ Caught config i := mt Caught.succ hcaught
    have hquiet : (dispatch true (draw s.calls) i site s.engine s.drift).violation = none := by
      rw [Option.eq_none_iff_forall_ne_some]
      intro v hv
      apply hcaught
      exact ((h.exists_violation_iff hrate hfew hi.handle _).mp ⟨v, hv⟩).1
    have hmemoizable : ¬ s.engine.Demoted (turn true i).site := by
      rw [h.demoted_iff]
      rintro ⟨-, hcaught'⟩
      exact hfree hcaught'
    have smooth := h.rotates.smooth hi.handle hi.readSet_eq hmemoizable hquiet
    rw [hi.engine_eq]
    exact h.rotates.follows hid smooth (h.follows hfew hfree) hsite htotal hmore

/-- A fresh worker in a fresh process drifts for as many iterations as it makes. -/
theorem runWorker_drifts (h : Starts codec true config s)
    (hrate : config.validationSampleRate = .one) (hsite : 0 < config.limits.perSite.toNat)
    (htotal : 0 < config.limits.total.toNat) (draw : Nat → UInt64) (hn : n < 2 ^ 64) :
    Drifts codec config n (runWorker draw (Routine.table true) n s).1
      (runWorker draw (Routine.table true) n s).2 := by
  apply runWorker_induction (Drifts codec config) h.drifts
  intro i s w hi hdrifts
  exact hdrifts.iterate hrate hsite htotal (by omega) draw

/-- A single worker that checks every replay has the sum of the bare routines. The pure routines are
not demoted, and the drifting one is demoted exactly if there are at least nine iterations and the
cache has a place for every context of a round. -/
theorem bench_of_drifting_routine (config : Config) (hvalid : config.validate = .ok ())
    (hrate : config.validationSampleRate = .one) (draw : Nat → UInt64) (iterations : UInt64) :
    ∃ start,
      ({ engine := .ofConfig config } : Shared).register (Routine.table true) = .ok start ∧
      let n := iterations.toNat
      let final := runWorkers draw (Routine.table true) n 1 start
      final.2 = [.ofNat (∑ i ∈ Finset.range n, summand i)] ∧
      ¬ final.1.engine.Demoted ⟨0x1000⟩ ∧ ¬ final.1.engine.Demoted ⟨0x3000⟩ ∧
      (final.1.engine.Demoted ⟨0x5000⟩ ↔
        9 ≤ n ∧ 2 ≤ config.maxEntriesPerSite ∧ 6 ≤ config.maxTotalEntries) := by
  obtain ⟨hsite, htotal⟩ := limits_of_validate hvalid
  obtain ⟨start, hstart, hstarts⟩ := exists_start separates_mixing true config
  refine ⟨start, hstart, ?_⟩
  intro n final
  have hn : n < 2 ^ 64 := iterations.toNat_lt
  have hdrifts := runWorker_drifts hstarts hrate hsite htotal draw hn
  have hdemoted : ∀ t, final.1.engine.Demoted t ↔ t = Routine.drifting.site ∧ Caught config n :=
    hdrifts.demoted_iff
  refine ⟨?_, ?_, ?_, ?_⟩
  · have hsum : (runWorker draw (Routine.table true) n start).2.sum =
        .ofNat (∑ i ∈ Finset.range n, summand i) := by
      apply UInt64.toNat_inj.mp
      rw [hdrifts.sum_eq, UInt64.toNat_ofNat']
    exact congrArg (fun sum => [sum]) hsum
  · rw [hdemoted]
    rintro ⟨hne, -⟩
    cases hne
  · rw [hdemoted]
    rintro ⟨hne, -⟩
    cases hne
  · rw [hdemoted, and_iff_right (by rfl)]
    rfl

/-- Two places for each site and six in all just suffice to catch the routine in nine iterations. -/
theorem bench_of_drifting_routine_caught :
    let config : Config :=
      { maxEntriesPerSite := 2, maxTotalEntries := 6, validationSampleRate := .one }
    config.validate = .ok () ∧ config.validationSampleRate = .one ∧
    ∃ start, ({ engine := .ofConfig config } : Shared).register (Routine.table true) = .ok start ∧
      let final := runWorkers (fun _ => 0) (Routine.table true) 9 1 start
      final.2 = [14033] ∧ ¬ final.1.engine.Demoted ⟨0x1000⟩ ∧ final.1.engine.Demoted ⟨0x5000⟩ := by
  intro config
  have hvalid : config.validate = .ok () := by decide
  obtain ⟨start, hstart, hsums, hother, -, hdemoted⟩ :=
    bench_of_drifting_routine config hvalid rfl (fun _ => 0) 9
  refine ⟨hvalid, rfl, start, hstart, hsums.trans ?_, hother, hdemoted.mpr ?_⟩
  · decide
  · decide

end CallMemo.Bench
