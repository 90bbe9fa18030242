import CallMemo.Proofs.Engine.Demotion
import CallMemo.Proofs.Engine.Events
import CallMemo.Proofs.Engine.Export

/-!
# Conservation of the counters

The counters of an engine add up. Along every way that a dispatch or an offer can end, the
happenings that are counted balance the event: each is listed once, and no way misses one.
-/

namespace CallMemo

variable {η σ ε : Type}

namespace Metrics

/-- The cache was consulted. -/
@[simp] def Happening.isLookup : Happening → Bool
  | .hit | .miss | .collision => true
  | .insert _ | .skippedInsert | .validation _ | .violation | .bypass | .failure => false

/-- A result was recorded. -/
@[simp] def Happening.isInsert : Happening → Bool
  | .insert _ => true
  | .hit | .miss | .collision | .skippedInsert | .validation _ | .violation | .bypass
  | .failure => false

/-- A recorded result was checked. -/
@[simp] def Happening.isValidation : Happening → Bool
  | .validation _ => true
  | .hit | .miss | .collision | .insert _ | .skippedInsert | .violation | .bypass
  | .failure => false

/-- Every counter is the number of its happenings. -/
theorem foldl_record (hs : List Happening) :
    hs.foldl record {} =
      { lookups := .ofNat (hs.countP Happening.isLookup)
        hits := .ofNat (hs.count .hit)
        misses := .ofNat (hs.count .miss)
        collisions := .ofNat (hs.count .collision)
        inserts := .ofNat (hs.countP Happening.isInsert)
        evictions := .ofNat (hs.count (.insert true))
        skippedInserts := .ofNat (hs.count .skippedInsert)
        validations := .ofNat (hs.countP Happening.isValidation)
        confirmations := .ofNat (hs.count (.validation true))
        purityViolations := .ofNat (hs.count .violation)
        bypassedCalls := .ofNat (hs.count .bypass)
        handlerFailures := .ofNat (hs.count .failure) } := by
  induction hs using List.reverseRecOn with
  | nil => rfl
  | append_singleton hs h ih =>
    rw [List.foldl_append, ih]
    cases h with
    | insert evicted => cases evicted <;> simp [record]
    | validation confirmed => cases confirmed <;> simp [record]
    | hit | miss | collision | skippedInsert | violation | bypass | failure => simp [record]

end Metrics

section

open Metrics (Happening)

/-- The happenings `hs` balance the events of `log`. -/
structure Balanced (log : List (Event σ ε)) (hs : List Happening) : Prop where
  /-- A dispatch of the right width consults the cache or bypasses it. -/
  fits_eq : log.countP Event.fits = hs.countP Happening.isLookup + hs.count .bypass
  /-- A lookup is a hit, a miss or a collision. -/
  lookups_eq : hs.countP Happening.isLookup = hs.count .hit + hs.count .miss + hs.count .collision
  /-- A hit finds the input. -/
  hits_eq : hs.count .hit = log.countP (Event.finds .same)
  /-- A miss finds nothing. -/
  misses_eq : hs.count .miss = log.countP (Event.finds .absent)
  /-- A collision finds another input. -/
  collisions_eq : hs.count .collision = log.countP (Event.finds .other)
  /-- Demoted sites are bypassed. -/
  bypasses_eq : hs.count .bypass = log.countP (Event.finds .demoted)
  /-- A handler runs unless a hit is trusted. -/
  ran_eq : log.countP Event.ran = hs.count .bypass + hs.count .miss + hs.count .collision +
    log.countP Event.sampledHit
  /-- A sampled hit is validated unless the handler fails. -/
  sampled_eq : log.countP Event.sampledHit =
    hs.countP Happening.isValidation + log.countP Event.failedRecheck
  /-- A validation confirms the result or comes upon a violation. -/
  validations_eq :
    hs.countP Happening.isValidation = hs.count (.validation true) + hs.count .violation
  /-- A violation is reported. -/
  violations_eq : hs.count .violation = log.countP Event.reports
  /-- A failure is a failed run. -/
  failures_eq : hs.count .failure = log.countP Event.failed
  /-- Unless the handler fails, what was not found is put to the cache, and so is what is
  offered. -/
  put_eq : hs.countP Happening.isInsert + hs.count .skippedInsert + log.countP Event.unrecorded =
    hs.count .miss + hs.count .collision + log.countP Event.offered
  /-- What the cache takes is counted. -/
  inserts_eq : hs.countP Happening.isInsert = log.countP Event.stores
  /-- What gives way is counted. -/
  evictions_eq : hs.count (.insert true) = log.countP Event.evicts

variable {log later : List (Event σ ε)} {hs hs' : List Happening}

/-- No events are balanced by no happenings. -/
theorem balanced_nil : Balanced ([] : List (Event σ ε)) [] := by
  constructor <;> rfl

/-- Balances are joined end to end. -/
theorem Balanced.append (h : Balanced log hs) (h' : Balanced later hs') :
    Balanced (log ++ later) (hs ++ hs') := by
  cases h
  cases h'
  constructor
  all_goals
    simp only [List.countP_append, List.count_append]
    omega

namespace Engine

variable {e e₁ e₂ e₃ : Engine}

/-- The counters of `e₂` are those of `e₁` and the balanced happenings of some events. -/
def Tallies (log : List (Event σ ε)) (e₁ e₂ : Engine) : Prop :=
  ∃ hs, e₂.metrics = hs.foldl Metrics.record e₁.metrics ∧ Balanced log hs

/-- Counters that stay tally with no events. -/
theorem Tallies.of_eq (h : e₂.metrics = e₁.metrics) : Tallies ([] : List (Event σ ε)) e₁ e₂ :=
  ⟨[], h, balanced_nil⟩

/-- Tallies are joined end to end. -/
theorem Tallies.append (h : Tallies log e₁ e₂) (h' : Tallies later e₂ e₃) :
    Tallies (log ++ later) e₁ e₃ := by
  obtain ⟨hs, hmetrics, hbalanced⟩ := h
  obtain ⟨hs', hmetrics', hbalanced'⟩ := h'
  exact ⟨hs ++ hs', by rw [hmetrics', hmetrics, List.foldl_append], hbalanced.append hbalanced'⟩

@[simp] theorem metrics_count {h : Happening} : (e.count h).metrics = e.metrics.record h := rfl

/-- A contradiction is counted once, whether or not entries are dropped. -/
theorem metrics_contradict {v : Violation} :
    (e.contradict v).1.metrics = e.metrics.record .violation := by
  unfold contradict
  cases e.config.invalidateOnDemotion with
  | true => rfl
  | false => rfl

/-- A result that is recorded is counted by what became of it. -/
theorem metrics_record {id : SiteId} {fp : Fingerprint} {input : List UInt64} {post : PostState} :
    (e.record id fp input post).1.metrics =
      e.metrics.record (happening (e.cache.insert id fp input post).outcome) := by
  rw [record, countInsertion_eq, metrics_count]

/-- There is nothing to mark where nothing is recorded. -/
theorem marked_of_none {id : SiteId} {fp : Fingerprint} (h : e.cache.recorded? id fp = none) :
    e.marked id fp = e := by
  have hpeek : e.cache.peek? id fp = none := Option.map_eq_none_iff.mp h
  rw [marked, Cache.lookup_of_none hpeek]

variable {site : CallSite} {input : List UInt64} {draw : UInt64} {handler : Handler σ ε}
  {world : σ}

/-- Every way that a dispatch can end is balanced. -/
theorem tallies_dispatch (e : Engine) (site : CallSite) (input : List UInt64) (draw : UInt64)
    (handler : Handler σ ε) (world : σ) :
    Tallies [.dispatch e draw ⟨site, input, e.dispatch site input draw handler world⟩] e
      (e.dispatch site input draw handler world).engine := by
  have hd := dispatch_dispatching e site input draw handler world
  generalize e.dispatch site input draw handler world = d at hd
  cases hd with
  | refused width =>
    have hfinds := finding_of_width_ne (e := e) width
    refine ⟨[], rfl, ?_⟩
    constructor <;> simp [hfinds, width]
  | replayed consulted =>
    cases consulted with
    | replay width memoizable present same trusted =>
      have hfinds := finding_of_same width memoizable present same
      refine ⟨[.hit], rfl, ?_⟩
      constructor <;> simp [List.countP_cons, hfinds, width, trusted]
  | failed consulted outcome =>
    cases consulted with
    | bypass width demoted =>
      have hfinds := finding_of_demoted (e := e) width demoted
      refine ⟨[.bypass, .failure], rfl, ?_⟩
      constructor <;> simp [List.countP_cons, hfinds, width]
    | miss width memoizable absent =>
      have hfinds := finding_of_absent width memoizable absent
      refine ⟨[.miss, .failure], rfl, ?_⟩
      constructor <;> simp [List.countP_cons, hfinds, width]
    | collision width memoizable present other =>
      have hfinds := finding_of_other width memoizable present other
      refine ⟨[.collision, .failure], rfl, ?_⟩
      constructor <;> simp [List.countP_cons, hfinds, width]
    | recheck width memoizable present same sampled =>
      have hfinds := finding_of_same width memoizable present same
      refine ⟨[.hit, .failure], rfl, ?_⟩
      constructor <;> simp [List.countP_cons, hfinds, width, sampled]
  | bypassed consulted outcome =>
    cases consulted with
    | bypass width demoted =>
      have hfinds := finding_of_demoted (e := e) width demoted
      refine ⟨[.bypass], rfl, ?_⟩
      constructor <;> simp [List.countP_cons, hfinds, width]
  | @recorded e' fp post world' events consulted outcome =>
    cases consulted with
    | miss width memoizable absent =>
      have hfinds := finding_of_absent width memoizable absent
      have hmarked := marked_of_none absent
      refine ⟨[.miss, happening _], metrics_record, ?_⟩
      generalize houtcome : ((e.count .miss).cache.insert site.id (e.codec.encode site.id input)
        input post).outcome = o
      rw [cache_count] at houtcome
      cases o <;> constructor <;>
        simp [List.countP_cons, hfinds, width, hmarked, houtcome, happening]
    | collision width memoizable present other =>
      have hfinds := finding_of_other width memoizable present other
      refine ⟨[.collision, happening _], metrics_record, ?_⟩
      generalize houtcome : (((e.marked site.id (e.codec.encode site.id input)).count
        .collision).cache.insert site.id (e.codec.encode site.id input) input post).outcome = o
      rw [cache_count] at houtcome
      cases o <;> constructor <;>
        simp [List.countP_cons, hfinds, width, houtcome, happening]
  | confirmed consulted outcome =>
    cases consulted with
    | recheck width memoizable present same sampled =>
      have hfinds := finding_of_same width memoizable present same
      refine ⟨[.hit, .validation true], rfl, ?_⟩
      constructor <;> simp [List.countP_cons, hfinds, width, sampled]
  | @contradicted e' fp cached fresh world' events consulted outcome differs =>
    have hviolation := metrics_contradict (e := e'.count (.validation false))
      (v := ⟨site.id, fp, cached, fresh⟩)
    cases consulted with
    | recheck width memoizable present same sampled =>
      have hfinds := finding_of_same width memoizable present same
      refine ⟨[.hit, .validation false, .violation], hviolation, ?_⟩
      constructor <;> simp [List.countP_cons, hfinds, width, sampled]

/-- An offer that fits is put to the cache, and any other one is not counted at all. -/
theorem tallies_load (e : Engine) (s : SnapshotEntry) :
    Tallies [(.offer e s : Event σ ε)] e (e.load s).engine := by
  have hl := load_loads e s
  generalize (e.load s).engine = e', (e.load s).accepted = accepted at hl
  cases hl with
  | unfit misfit =>
    have hadmits := admits_eq_false misfit
    refine ⟨[], rfl, ?_⟩
    constructor <;> simp [hadmits]
  | @offered r registered memoizable width =>
    have hadmits := admits_eq_true registered memoizable width
    refine ⟨[happening _], by rw [countInsertion_eq]; rfl, ?_⟩
    generalize houtcome : (e.cache.insertCold s.site (e.codec.encode s.site s.inputs) s.inputs
      s.post s.hits).outcome = o
    cases o <;> constructor <;> simp [hadmits, houtcome, happening]

/-- A warm start tallies with its offers. -/
theorem tallies_loadAll (e : Engine) (l : List SnapshotEntry) :
    Tallies (e.offers l : List (Event σ ε)) e (e.loadAll l).engine := by
  induction l generalizing e with
  | nil => exact .of_eq rfl
  | cons s rest ih => exact (tallies_load e s).append (ih _)

end Engine

namespace Session

open Engine

variable {resolve : Resolver η} {s : Session σ}

/-- Every operation tallies with its events. -/
theorem tallies_step (op : Op η σ ε) :
    Tallies (s.events resolve op) s.engine (s.step resolve op).engine := by
  cases op with
  | register id slots =>
    refine .of_eq ?_
    rcases registered_cases s.engine id slots with heq | ⟨-, readSet, heq⟩ <;> rw [step, heq]
  | dispatch name input draw handler =>
    cases hsite : resolve s.engine name with
    | none => simpa [events, step, call?, hsite] using Tallies.of_eq rfl
    | some site =>
      simpa [events, step, call?, hsite] using
        tallies_dispatch s.engine site input draw handler s.world
  | warmStart snapshot => exact tallies_loadAll s.engine snapshot.entries
  | exportSnapshot | invalidate | clear => exact .of_eq rfl

/-- The counters of a session are those of its events. -/
theorem tallies_run (ops : List (Op η σ ε)) :
    Tallies (s.log resolve ops) s.engine (s.run resolve ops).engine := by
  induction ops generalizing s with
  | nil => exact .of_eq rfl
  | cons op rest ih => exact (tallies_step op).append ih

end Session

end

/-- The site that an event demotes. -/
def Event.demotes? : Event σ ε → Option SiteId
  | .dispatch _ _ call => call.answer.violation.map (·.site)
  | .offer .. => none

/-- Each report of a contradiction demotes a site. -/
theorem countP_reports (log : List (Event σ ε)) :
    log.countP Event.reports = (log.filterMap Event.demotes?).length := by
  rw [List.length_filterMap_eq_countP]
  refine List.countP_congr fun ev _ => ?_
  cases ev with
  | dispatch e draw call => simp [Event.demotes?]
  | offer e s => simp [Event.demotes?]

namespace Engine

/-- The demoted sites in ascending order. -/
def demotedSites (e : Engine) : List SiteId :=
  (e.callSites.filter (!·.isMemoizable)).map (·.id)

variable {e : Engine} {t : SiteId}

/-- The list holds the demoted sites. -/
theorem mem_demotedSites_iff : t ∈ e.demotedSites ↔ e.Demoted t := by
  simp only [demotedSites, List.mem_map, List.mem_filter, mem_callSites_iff, Bool.not_eq_true']
  constructor
  · rintro ⟨site, ⟨hsite, hdemoted⟩, rfl⟩
    exact ⟨site.toRegistration, (registered_of_callSite? hsite).2, hdemoted⟩
  · rintro ⟨r, hr, hdemoted⟩
    exact ⟨{ r with id := t }, ⟨by rw [callSite?, hr]; rfl, hdemoted⟩, rfl⟩

theorem nodup_demotedSites (e : Engine) : e.demotedSites.Nodup := by
  refine List.pairwise_map.mpr (((pairwise_callSites e).filter _).imp fun {a b} hlt heq => ?_)
  exact UInt64.lt_irrefl _ (heq ▸ hlt)

/-- A warm start demotes no site. -/
theorem demotes?_offers (e : Engine) (l : List SnapshotEntry) :
    (e.offers l : List (Event σ ε)).filterMap Event.demotes? = [] := by
  induction l generalizing e with
  | nil => rfl
  | cons s rest ih => exact ih _

end Engine

namespace Session

open Engine

variable {s : Session σ} {sites : List SiteId}

/-- An operation demotes the site of the contradiction that its dispatch reports. -/
theorem mem_demotes?_events_iff {op : Op SiteId σ ε} {t : SiteId} :
    t ∈ (s.events .own op).filterMap Event.demotes? ↔
      ∃ call ∈ s.call? .own op, ∃ v, v.site = t ∧ call.answer.violation = some v := by
  cases op with
  | dispatch id input draw handler =>
    simp only [events, List.mem_filterMap, List.mem_map, Option.mem_toList]
    constructor
    · rintro ⟨_, ⟨call, hcall, rfl⟩, ht⟩
      obtain ⟨v, hv, rfl⟩ := Option.map_eq_some_iff.mp ht
      exact ⟨call, hcall, v, rfl, hv⟩
    · rintro ⟨call, hcall, v, rfl, hv⟩
      exact ⟨_, ⟨call, hcall, rfl⟩, by rw [Event.demotes?, hv, Option.map_some]⟩
  | warmStart snapshot => simp [events, call?, demotes?_offers]
  | register | exportSnapshot | invalidate | clear => simp [events, call?]

/-- The demoted sites, in the order of their demotions. -/
structure Listed (sites : List SiteId) (e : Engine) : Prop where
  /-- Every site is listed once. -/
  nodup : sites.Nodup
  /-- The demoted sites are listed. -/
  mem_iff : ∀ t, t ∈ sites ↔ e.Demoted t

/-- No site is listed at first. -/
theorem listed_initial (config : Config) (codec : Codec) (policy : EvictionPolicy) :
    Listed [] (fresh config codec policy) where
  nodup := List.nodup_nil
  mem_iff t := by simp [Demoted, fresh, withPolicy, withCodec, ofConfig]

/-- An operation demotes one site at most. -/
theorem nodup_demotes?_events (op : Op SiteId σ ε) :
    ((s.events .own op).filterMap Event.demotes?).Nodup := by
  cases op with
  | dispatch id input draw handler =>
    rw [events]
    cases s.call? .own (.dispatch id input draw handler) with
    | none => exact List.nodup_nil
    | some call =>
      cases hv : call.answer.violation with
      | none => simp [Event.demotes?, hv]
      | some v => simp [Event.demotes?, hv]
  | warmStart snapshot =>
    rw [events, demotes?_offers]
    exact List.nodup_nil
  | register | exportSnapshot | invalidate | clear => exact List.nodup_nil

/-- A site that is demoted now is added to the list, and was not on it. -/
theorem Listed.step (h : Listed sites s.engine) (hs : WellFiled s.engine) (op : Op SiteId σ ε) :
    Listed (sites ++ (s.events .own op).filterMap Event.demotes?) (s.step .own op).engine where
  nodup := by
    refine List.nodup_append.mpr ⟨h.nodup, nodup_demotes?_events op, ?_⟩
    rintro t ht _ hnew rfl
    obtain ⟨call, hcall, v, rfl, hv⟩ := mem_demotes?_events_iff.mp hnew
    obtain ⟨id, input, draw, handler, site, -, hsite, hcontradicts⟩ :=
      (contradicts_iff hs).mpr ⟨call, hcall, hv⟩
    -- only a site that is not demoted yet is checked
    obtain ⟨rfl, -⟩ := registered_of_callSite? hsite
    have hdemoted := (h.mem_iff v.site).mp ht
    rw [hcontradicts.site_eq] at hdemoted
    cases (hdemoted.isMemoizable_eq hsite).symm.trans hcontradicts.memoizable
  mem_iff t := by
    rw [List.mem_append, h.mem_iff, mem_demotes?_events_iff, demoted_step_iff hs]
    simp only [contradicts_iff hs]
    refine or_congr_right ⟨?_, ?_⟩
    · rintro ⟨call, hcall, v, hsite, hv⟩
      exact ⟨v, hsite, call, hcall, hv⟩
    · rintro ⟨v, hsite, call, hcall, hv⟩
      exact ⟨call, hcall, v, hsite, hv⟩

/-- The list is complete after every session. -/
theorem Listed.run (h : Listed sites s.engine) (hs : WellFiled s.engine)
    (ops : List (Op SiteId σ ε)) :
    Listed (sites ++ (s.log .own ops).filterMap Event.demotes?) (s.run .own ops).engine := by
  induction ops generalizing s sites with
  | nil =>
    rw [log, List.filterMap_nil, List.append_nil]
    exact h
  | cons op rest ih =>
    rw [log, List.filterMap_append, ← List.append_assoc]
    exact ih (h.step hs op) (wellFiled_step hs op)

/-- As many sites are demoted as contradictions were reported. -/
theorem Listed.length_demotedSites (h : Listed sites s.engine) :
    s.engine.demotedSites.length = sites.length := by
  refine List.Perm.length_eq ?_
  rw [List.perm_ext_iff_of_nodup (nodup_demotedSites _) h.nodup]
  intro t
  rw [mem_demotedSites_iff, h.mem_iff]

end Session

/-- What evicts an entry stores one. -/
theorem Event.stores_of_evicts {ev : Event σ ε} (h : ev.evicts = true) : ev.stores = true := by
  obtain ⟨outcome, houtcome, hevicted⟩ := (Option.any_eq_true _ _).mp h
  refine (Option.any_eq_true _ _).mpr ⟨outcome, houtcome, ?_⟩
  cases outcome with
  | evicted => rfl
  | inserted | replaced | skipped => cases hevicted

namespace Session

open Engine

/-- In every session, whatever the handlers, snapshots, settings, codec, policy and samples are, the
counters tell modulo `2 ^ 64` what the dispatches found, and add up. There are as many demoted sites
as reports. -/
theorem counters_conserved (config : Config) (codec : Codec) (policy : EvictionPolicy) (world : σ)
    (ops : List (Op SiteId σ ε)) :
    let start : Session σ := ⟨fresh config codec policy, world⟩
    let e := (start.run .own ops).engine
    let m := e.metrics
    let log := start.log .own ops
    let number (p : Event σ ε → Bool) : UInt64 := .ofNat (log.countP p)
    (m.hits = number (Event.finds .same) ∧ m.misses = number (Event.finds .absent) ∧
        m.collisions = number (Event.finds .other) ∧
        m.bypassedCalls = number (Event.finds .demoted)) ∧
      number Event.fits = m.lookups + m.bypassedCalls ∧
      m.lookups = m.hits + m.misses + m.collisions ∧
      number Event.ran =
        m.bypassedCalls + m.misses + m.collisions + number Event.sampledHit ∧
      number Event.sampledHit = m.validations + number Event.failedRecheck ∧
      m.validations = m.confirmations + m.purityViolations ∧
      (m.purityViolations = number Event.reports ∧
        e.demotedSites.length = log.countP Event.reports) ∧
      m.handlerFailures = number Event.failed ∧
      m.inserts + m.skippedInserts =
        m.misses + m.collisions - number Event.unrecorded + number Event.offered ∧
      (m.evictions = number Event.evicts ∧ m.inserts = number Event.stores ∧
        log.countP Event.evicts ≤ log.countP Event.stores) := by
  intro start e m log number
  have hstart : WellFiled start.engine := wellFiled_fresh config codec policy
  obtain ⟨hs, hmetrics, hbalanced⟩ : Tallies log start.engine e := tallies_run ops
  have hcounters : m = hs.foldl Metrics.record {} := hmetrics
  rw [Metrics.foldl_record] at hcounters
  have hlisted := (listed_initial config codec policy).run hstart ops
  have hdemoted : e.demotedSites.length = log.countP Event.reports := by
    rw [countP_reports]
    exact hlisted.length_demotedSites
  have hle : log.countP Event.evicts ≤ log.countP Event.stores :=
    List.countP_mono_left fun _ _ => Event.stores_of_evicts
  simp only [hcounters, number]
  refine ⟨⟨?_, ?_, ?_, ?_⟩, ?_, ?_, ?_, ?_, ?_, ⟨?_, hdemoted⟩, ?_, ?_, ?_, ?_, hle⟩
  · rw [hbalanced.hits_eq]
  · rw [hbalanced.misses_eq]
  · rw [hbalanced.collisions_eq]
  · rw [hbalanced.bypasses_eq]
  · rw [hbalanced.fits_eq, UInt64.ofNat_add]
  · rw [hbalanced.lookups_eq, UInt64.ofNat_add, UInt64.ofNat_add]
  · rw [hbalanced.ran_eq, UInt64.ofNat_add, UInt64.ofNat_add, UInt64.ofNat_add]
  · rw [hbalanced.sampled_eq, UInt64.ofNat_add]
  · rw [hbalanced.validations_eq, UInt64.ofNat_add]
  · rw [hbalanced.violations_eq]
  · rw [hbalanced.failures_eq]
  · have hput := congrArg UInt64.ofNat hbalanced.put_eq
    simp only [UInt64.ofNat_add] at hput
    grind
  · rw [hbalanced.evictions_eq]
  · rw [hbalanced.inserts_eq]

end Session

end CallMemo
