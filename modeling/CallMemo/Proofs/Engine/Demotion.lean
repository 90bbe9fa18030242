import CallMemo.Proofs.Engine.Filing
import CallMemo.Proofs.Engine.Freshness

/-!
# Demotion

A site is demoted by a dispatch that checks a recorded result and whose handler contradicts it, and
by nothing else. The demotion is final: whatever the session does later, the handler of the site
runs in every dispatch of the right width, the cache stays as it is, and nothing is recorded for the
site any more.
-/

namespace CallMemo

variable {σ ε : Type}

namespace Engine

variable {e e' : Engine} {id t : SiteId} {g : Fingerprint} {x : Entry} {site : CallSite}
  {input : List UInt64} {draw : UInt64} {handler : Handler σ ε} {world : σ} {v : Violation}

/-- A consultation leaves the entries of other sites alone. -/
theorem Consulting.peek?_of_ne {d : Decision} (h : Consulting e site input draw e' d)
    (hne : site.id ≠ t) : e'.cache.peek? t g = e.cache.peek? t g := by
  have looked : (e.marked site.id (e.codec.encode site.id input)).cache.peek? t g =
      e.cache.peek? t g := by
    rw [marked, Cache.peek?_lookup, if_neg fun hk => hne hk.1]
  cases h with
  | refuse width => rfl
  | bypass width demoted => rfl
  | miss width memoizable absent => rfl
  | collision width memoizable present other => exact looked
  | replay width memoizable present same trusted => exact looked
  | recheck width memoizable present same sampled => exact looked

@[simp] theorem cache_demote : (e.demote id).cache = e.cache := rfl

/-- A contradiction drops no entry of another site. -/
theorem peek?_contradict_of_ne (hne : v.site ≠ t) :
    (e.contradict v).1.cache.peek? t g = e.cache.peek? t g := by
  unfold contradict
  cases e.config.invalidateOnDemotion with
  | true => exact Cache.peek?_invalidate.trans (if_neg hne)
  | false => rfl

/-- The settings may ask for the entries of the site to be dropped. -/
theorem entryCount_contradict (h : e.config.invalidateOnDemotion = true) :
    (e.contradict v).1.cache.entryCount v.site = 0 := by
  rw [Cache.entryCount_eq_zero_iff]
  intro g
  unfold contradict
  rw [h]
  exact Cache.peek?_invalidate.trans (if_pos rfl)

/-- A dispatch may evict entries of other sites, and neither adds nor changes one. -/
theorem peek?_of_dispatch (hne : site.id ≠ t)
    (hx : (e.dispatch site input draw handler world).engine.cache.peek? t g = some x) :
    e.cache.peek? t g = some x := by
  have hd := dispatch_dispatching e site input draw handler world
  generalize e.dispatch site input draw handler world = d at hd hx
  cases hd with
  | refused width => exact hx
  | replayed consulted => rwa [← consulted.peek?_of_ne hne]
  | failed consulted outcome => rwa [← consulted.peek?_of_ne hne]
  | bypassed consulted outcome => rwa [← consulted.peek?_of_ne hne]
  | recorded consulted outcome =>
    rw [cache_record] at hx
    rw [← consulted.peek?_of_ne hne]
    exact Cache.peek?_of_insert hne hx
  | confirmed consulted outcome =>
    rw [Cache.peek?_confirm, if_neg fun hk => hne hk.1] at hx
    rwa [← consulted.peek?_of_ne hne]
  | contradicted consulted outcome differs =>
    rw [cache_demote, peek?_contradict_of_ne hne, cache_count] at hx
    rwa [← consulted.peek?_of_ne hne]

/-- A dispatch finds its input recorded, the sample says to check the result, and the run of the
handler yields another one. -/
structure Contradicts (e : Engine) (site : CallSite) (input : List UInt64) (draw : UInt64)
    (handler : Handler σ ε) (world : σ) (v : Violation) : Prop where
  /-- The site may be served from the cache. -/
  memoizable : site.isMemoizable = true
  /-- The contradiction is about this site. -/
  site_eq : v.site = site.id
  /-- It is about the calling context of the input. -/
  fingerprint_eq : v.fingerprint = e.codec.encode site.id input
  /-- The result is recorded for the very input. -/
  recorded : e.cache.recorded? v.site v.fingerprint = some ⟨input, v.cached⟩
  /-- The result is to be checked. -/
  sampled : isSampled e.config.validationSampleRate draw = true
  /-- The handler succeeds. -/
  outcome : (handler input world).1 = .ok v.observed
  /-- The two results are different. -/
  differs : v.observed ≠ v.cached

/-- A result is compared with a fresh one if the sample says so. -/
theorem Consulting.isSampled_eq {fp : Fingerprint} {cached : PostState}
    (h : Consulting e site input draw e' (.run (.recheck fp cached))) :
    isSampled e.config.validationSampleRate draw = true := by
  cases h with
  | recheck width memoizable present same sampled => exact sampled

/-- The report of a dispatch is the contradiction that it came upon. -/
theorem violation_dispatch_iff (he : WellFiled e) (hsite : e.callSite? id = some site) :
    (e.dispatch site input draw handler world).violation = some v ↔
      e.Contradicts site input draw handler world v := by
  have hd := dispatch_dispatching e site input draw handler world
  generalize e.dispatch site input draw handler world = d at hd ⊢
  cases hd with
  | refused width =>
    refine iff_of_false (by simp) fun h => width ?_
    obtain ⟨rfl, hreg⟩ := registered_of_callSite? hsite
    exact (he _ _ _ h.recorded).width_eq (h.site_eq ▸ hreg)
  | replayed consulted =>
    refine iff_of_false (by simp) fun h => ?_
    cases consulted with
    | replay width memoizable present same trusted => cases trusted.symm.trans h.sampled
  | failed consulted outcome =>
    refine iff_of_false (by simp) fun h => ?_
    cases h.outcome.symm.trans (congrArg Prod.fst outcome)
  | bypassed consulted outcome =>
    refine iff_of_false (by simp) fun h => ?_
    cases consulted with
    | bypass width demoted => cases demoted.symm.trans h.memoizable
  | recorded consulted outcome =>
    refine iff_of_false (by simp) fun h => ?_
    have held := h.recorded
    rw [h.site_eq, h.fingerprint_eq] at held
    cases consulted with
    | miss width memoizable absent => cases absent.symm.trans held
    | collision width memoizable present other =>
      cases present.symm.trans held
      exact absurd rfl other
  | confirmed consulted outcome =>
    refine iff_of_false (by simp) fun h => ?_
    have held := h.recorded
    rw [h.site_eq, h.fingerprint_eq, consulted.recorded?_eq rfl] at held
    cases held
    exact h.differs (Except.ok.inj (h.outcome.symm.trans (congrArg Prod.fst outcome)))
  | @contradicted _ _ cached fresh _ _ consulted outcome differs =>
    obtain rfl := consulted.fingerprint_eq rfl
    have held := consulted.recorded?_eq rfl
    constructor
    · rintro ⟨⟩
      exact {
        memoizable := consulted.isMemoizable (by simp)
        site_eq := rfl
        fingerprint_eq := rfl
        recorded := held
        sampled := consulted.isSampled_eq
        outcome := congrArg Prod.fst outcome
        differs := differs }
    · intro h
      obtain ⟨vsite, vfp, vcached, vobserved⟩ := v
      obtain rfl := h.site_eq
      obtain rfl := h.fingerprint_eq
      cases held.symm.trans h.recorded
      cases h.outcome.symm.trans (congrArg Prod.fst outcome)
      rfl

/-- How a dispatch ends that demotes a site. -/
structure DemotedBy (e : Engine) (v : Violation) (d : Dispatched σ ε) : Prop where
  /-- The caller gets the fresh result. -/
  result_eq : d.result = .ok v.observed
  /-- The handler ran. -/
  ran : d.ran = true
  /-- The contradiction is reported. -/
  violation_eq : d.violation = some v
  /-- The site is demoted. -/
  demoted : d.engine.Demoted v.site
  /-- Its entries are dropped if the settings ask for it. -/
  emptied : e.config.invalidateOnDemotion = true → d.engine.cache.entryCount v.site = 0
  /-- The other sites keep their registration. -/
  sites_eq : ∀ t, v.site ≠ t → d.engine.sites[t]? = e.sites[t]?
  /-- The other sites keep their entries. -/
  peek?_eq : ∀ t, v.site ≠ t → ∀ g, d.engine.cache.peek? t g = e.cache.peek? t g

/-- A dispatch that reports a contradiction demotes the site and changes no other one. -/
theorem demotedBy_dispatch (hsite : e.callSite? id = some site)
    (h : (e.dispatch site input draw handler world).violation = some v) :
    DemotedBy e v (e.dispatch site input draw handler world) := by
  obtain ⟨rfl, hreg⟩ := registered_of_callSite? hsite
  have hd := dispatch_dispatching e site input draw handler world
  generalize e.dispatch site input draw handler world = d at hd h ⊢
  cases hd with
  | @contradicted e₁ fp cached fresh world' events consulted outcome differs =>
    cases h
    have hsites : ((e₁.count (.validation false)).contradict ⟨site.id, fp, cached, fresh⟩).1.sites =
        e.sites := (contradict_frame _ _).2.1.trans consulted.frame.2.2.1
    exact {
      result_eq := rfl
      ran := rfl
      violation_eq := rfl
      demoted := ⟨{ site.toRegistration with status := .demoted },
        by rw [sites_demote, if_pos rfl, hsites, hreg, Option.map_some], rfl⟩
      emptied := fun hconfig => entryCount_contradict
        ((congrArg Config.invalidateOnDemotion consulted.frame.1).trans hconfig)
      sites_eq := fun t hne => by rw [sites_demote, if_neg hne, hsites]
      peek?_eq := fun t hne g => (peek?_contradict_of_ne hne).trans (consulted.peek?_of_ne hne) }
  | _ => cases h

/-- Without a report a dispatch changes no registration. -/
theorem sites_dispatch_of_none
    (h : (e.dispatch site input draw handler world).violation = none) :
    (e.dispatch site input draw handler world).engine.sites = e.sites := by
  have hd := dispatch_dispatching e site input draw handler world
  generalize e.dispatch site input draw handler world = d at hd h ⊢
  cases hd with
  | refused width => rfl
  | replayed consulted => exact consulted.frame.2.2.1
  | failed consulted outcome => exact consulted.frame.2.2.1
  | bypassed consulted outcome => exact consulted.frame.2.2.1
  | recorded consulted outcome => exact sites_record.trans consulted.frame.2.2.1
  | confirmed consulted outcome => exact consulted.frame.2.2.1
  | contradicted consulted outcome differs => cases h

/-- Whether a site is demoted stands in its registration. -/
theorem demoted_congr (h : e'.sites[t]? = e.sites[t]?) : e'.Demoted t ↔ e.Demoted t := by
  rw [Demoted, Demoted, h]

/-- A dispatch demotes the site of the contradiction that it reports, and no other one. -/
theorem demoted_dispatch_iff (hsite : e.callSite? id = some site) :
    (e.dispatch site input draw handler world).engine.Demoted t ↔
      e.Demoted t ∨ ∃ v, v.site = t ∧
        (e.dispatch site input draw handler world).violation = some v := by
  cases hv : (e.dispatch site input draw handler world).violation with
  | none =>
    have hsites := sites_dispatch_of_none hv
    simp [demoted_congr (congrArg (·[t]?) hsites)]
  | some v =>
    have hd := demotedBy_dispatch hsite hv
    by_cases hid : v.site = t
    · exact iff_of_true (hid ▸ hd.demoted) (.inr ⟨v, hid, rfl⟩)
    · have hne : ∀ w : Violation, w.site = t → some v ≠ some w := by
        rintro w rfl h
        cases h
        exact hid rfl
      rw [demoted_congr (hd.sites_eq t hid)]
      exact ⟨.inl, fun h => h.resolve_right fun ⟨w, hw, h⟩ => hne w hw h⟩

/-- A registration demotes no site. -/
theorem demoted_registered_iff {slots : List Slot} :
    (e.registered id slots).Demoted t ↔ e.Demoted t := by
  rcases registered_cases e id slots with heq | ⟨absent, readSet, heq⟩
  · rw [heq]
  · rw [heq]
    by_cases hid : id = t
    · -- the new site starts out memoizable
      subst hid
      refine iff_of_false ?_ ?_
      · rintro ⟨r, hr, hd⟩
        rw [Std.ExtTreeMap.getElem?_insert_self, Option.some.injEq] at hr
        subst hr
        cases hd
      · rintro ⟨r, hr, -⟩
        cases absent.symm.trans hr
    · refine demoted_congr ?_
      simp [Std.ExtTreeMap.getElem?_insert, hid]

/-- The handle of a demoted site shows that it is demoted. -/
theorem Demoted.isMemoizable_eq (h : e.Demoted id) (hsite : e.callSite? id = some site) :
    site.isMemoizable = false := by
  obtain ⟨rfl, hreg⟩ := registered_of_callSite? hsite
  obtain ⟨r, hr, hdemoted⟩ := h
  obtain rfl := Option.some.inj (hreg.symm.trans hr)
  exact hdemoted

/-- How a run is settled whose site was demoted while the handler ran. -/
structure SettledLate (e : Engine) (outcome : Except ε PostState) (s : Settlement ε) : Prop where
  /-- The caller gets the outcome of the run. -/
  result_eq : s.result = outcome.mapError .handler
  /-- The site is not demoted again. -/
  violation_eq : s.violation = none
  /-- Nothing is reported. -/
  events_eq : s.events = []
  /-- No demotion and no insertion is counted. -/
  counters_eq : s.engine.metrics.purityViolations = e.metrics.purityViolations ∧
    s.engine.metrics.inserts = e.metrics.inserts ∧
    s.engine.metrics.skippedInserts = e.metrics.skippedInserts
  /-- No registration changes. -/
  sites_eq : s.engine.sites = e.sites
  /-- No result is recorded or dropped. -/
  recorded?_eq : ∀ t g, s.engine.cache.recorded? t g = e.cache.recorded? t g

/-- Nothing comes of a run if its site is demoted by the time the run ends, whatever it was for. -/
theorem settle_of_demoted (demoted : site.isMemoizable = false) (input : List UInt64)
    (purpose : Purpose) (outcome : Except ε PostState) :
    SettledLate e outcome (e.settle site input purpose outcome) := by
  cases outcome with
  | error err => exact ⟨rfl, rfl, rfl, ⟨rfl, rfl, rfl⟩, rfl, fun _ _ => rfl⟩
  | ok fresh =>
    cases purpose with
    | bypass => exact ⟨rfl, rfl, rfl, ⟨rfl, rfl, rfl⟩, rfl, fun _ _ => rfl⟩
    | record fp =>
      simp only [settle, demoted, Bool.false_eq_true, if_false]
      exact ⟨rfl, rfl, rfl, ⟨rfl, rfl, rfl⟩, rfl, fun _ _ => rfl⟩
    | recheck fp cached =>
      by_cases same : fresh = cached
      · simp only [settle, if_pos same]
        exact ⟨rfl, rfl, rfl, ⟨rfl, rfl, rfl⟩, rfl, fun _ _ => Cache.recorded?_confirm⟩
      · simp only [settle, if_neg same, demoted, Bool.false_eq_true, if_false]
        exact ⟨rfl, rfl, rfl, ⟨rfl, rfl, rfl⟩, rfl, fun _ _ => rfl⟩

/-- Registering a site again gives the handle that is there and changes nothing. -/
theorem register_of_registered {slots : List Slot} {r : Registered} {registration : Registration}
    (hreg : e.sites[id]? = some registration) (h : e.register id slots = .ok r) :
    r.engine = e ∧ e.callSite? id = some r.site := by
  unfold register at h
  cases hdecl : ReadSet.declare id slots with
  | error err => simp [hdecl, bind, Except.bind] at h
  | ok readSet =>
    by_cases hrs : registration.readSet = readSet
    · simp only [hdecl, hreg, hrs, bind, Except.bind, pure, Except.pure, if_true,
        Except.ok.injEq] at h
      subst h
      exact ⟨rfl, by rw [callSite?, hreg, Option.map_some]⟩
    · simp [hdecl, hreg, hrs, bind, Except.bind, throw, throwThe, MonadExceptOf.throw] at h

/-- A dispatch of a demoted site leaves the cache alone, and is a call of its handler if the width
is right. -/
theorem dispatch_of_demoted (demoted : site.isMemoizable = false) :
    (e.dispatch site input draw handler world).engine.cache = e.cache ∧
      (input.length = site.readSet.width →
        (e.dispatch site input draw handler world).ran = true ∧
          (e.dispatch site input draw handler world).result =
            (handler input world).1.mapError .handler ∧
          (e.dispatch site input draw handler world).world = (handler input world).2) := by
  have bypassing {e' : Engine} {purpose : Purpose}
      (h : Consulting e site input draw e' (.run purpose)) :
      purpose = .bypass ∧ e'.cache = e.cache := by
    cases h with
    | bypass _ _ => exact ⟨rfl, rfl⟩
    | miss _ memoizable | collision _ memoizable | recheck _ memoizable =>
      cases demoted.symm.trans memoizable
  have hd := dispatch_dispatching e site input draw handler world
  generalize e.dispatch site input draw handler world = d at hd ⊢
  cases hd with
  | refused other => exact ⟨rfl, fun width => absurd width other⟩
  | replayed consulted =>
    cases consulted with
    | replay _ memoizable => cases demoted.symm.trans memoizable
  | failed consulted outcome =>
    rw [outcome]
    exact ⟨(bypassing consulted).2, fun _ => ⟨rfl, rfl, rfl⟩⟩
  | bypassed consulted outcome =>
    rw [outcome]
    exact ⟨(bypassing consulted).2, fun _ => ⟨rfl, rfl, rfl⟩⟩
  | recorded consulted outcome | confirmed consulted outcome
  | contradicted consulted outcome differs => cases (bypassing consulted).1

/-- No entry of a demoted site is accepted, and offering one changes nothing. -/
theorem Demoted.load_eq {s : SnapshotEntry} (h : e.Demoted s.site) :
    (e.load s).engine = e ∧ (e.load s).accepted = false := by
  obtain ⟨r, hr, hdemoted⟩ := h
  have hl := load_loads e s
  generalize (e.load s).engine = e', (e.load s).accepted = accepted at hl ⊢
  cases hl with
  | unfit misfit => exact ⟨rfl, rfl⟩
  | offered registered memoizable width =>
    obtain rfl := Option.some.inj (registered.symm.trans hr)
    cases memoizable.symm.trans hdemoted

/-- Loading adds and changes no entry of a demoted site. -/
theorem Demoted.peek?_of_load (h : e.Demoted t) {s : SnapshotEntry}
    (hx : (e.load s).engine.cache.peek? t g = some x) : e.cache.peek? t g = some x := by
  by_cases hid : s.site = t
  · subst hid
    rwa [h.load_eq.1] at hx
  · have hl := load_loads e s
    generalize (e.load s).engine = e', (e.load s).accepted = accepted at hl hx
    cases hl with
    | unfit misfit => exact hx
    | offered registered memoizable width =>
      rw [cache_countInsertion] at hx
      exact Cache.peek?_of_insertCold hid hx

/-- Loading demotes no site. -/
theorem demoted_load_iff {s : SnapshotEntry} : (e.load s).engine.Demoted t ↔ e.Demoted t :=
  demoted_congr (congrArg (·[t]?) (sites_load e s))

theorem Demoted.peek?_of_loadAll (h : e.Demoted t) {l : List SnapshotEntry}
    (hx : (e.loadAll l).engine.cache.peek? t g = some x) : e.cache.peek? t g = some x := by
  induction l generalizing e with
  | nil => exact hx
  | cons s rest ih => exact h.peek?_of_load (ih (demoted_load_iff.mpr h) hx)

/-- A warm start loads no result of a demoted site. -/
theorem Demoted.ne_of_mem_loadedResults (h : e.Demoted t) {l : List SnapshotEntry} :
    ∀ r ∈ e.loadedResults l, r.site ≠ t := by
  induction l generalizing e with
  | nil => simp [loadedResults]
  | cons s rest ih =>
    intro r hr
    rcases List.mem_append.mp hr with hr | hr
    · split at hr
      · next accepted =>
        obtain rfl := List.mem_singleton.mp hr
        rintro rfl
        rw [h.load_eq.2] at accepted
        cases accepted
      · cases hr
    · exact ih (demoted_load_iff.mpr h) r hr

/-- What the demotion of a site in `e` means for an engine `e'` that `e` has become. -/
structure Shut (e e' : Engine) (id : SiteId) : Prop where
  /-- The site is still demoted. -/
  demoted : e'.Demoted id
  /-- A handle shows it. -/
  handle : ∀ site, e'.callSite? id = some site → site.isMemoizable = false
  /-- A handle that is obtained by registering the site again shows it as well. -/
  register : ∀ slots r, e'.register id slots = .ok r →
    r.engine = e' ∧ r.site.isMemoizable = false
  /-- A dispatch leaves the cache alone, and is a call of the handler if the width is right. -/
  dispatch : ∀ {σ ε : Type} (site : CallSite) (input : List UInt64) (draw : UInt64)
    (handler : Handler σ ε) (world : σ), e'.callSite? id = some site →
      (e'.dispatch site input draw handler world).engine.cache = e'.cache ∧
        (input.length = site.readSet.width →
          (e'.dispatch site input draw handler world).ran = true ∧
            (e'.dispatch site input draw handler world).result =
              (handler input world).1.mapError .handler ∧
            (e'.dispatch site input draw handler world).world = (handler input world).2)
  /-- A warm start loads nothing for the site. -/
  loaded : ∀ l, ∀ r ∈ e'.loadedResults l, r.site ≠ id
  /-- All entries of the site are old ones. -/
  entries : ∀ g x, e'.cache.peek? id g = some x → e.cache.peek? id g = some x

/-- A demoted site is shut as it stands. -/
theorem Demoted.shut (h : e'.Demoted id)
    (entries : ∀ g x, e'.cache.peek? id g = some x → e.cache.peek? id g = some x) :
    Shut e e' id where
  demoted := h
  handle _ hsite := h.isMemoizable_eq hsite
  register slots r hr := by
    have ⟨registration, hreg, _⟩ := h
    obtain ⟨hengine, hsite⟩ := register_of_registered hreg hr
    exact ⟨hengine, h.isMemoizable_eq hsite⟩
  dispatch _ _ _ _ _ hsite := dispatch_of_demoted (h.isMemoizable_eq hsite)
  loaded _ := h.ne_of_mem_loadedResults
  entries := entries

end Engine

namespace Session

open Engine

variable {s : Session σ} {op : Op SiteId σ ε} {t : SiteId} {g : Fingerprint} {x : Entry}
  {v : Violation}

/-- The operation is a dispatch that comes upon a contradiction. -/
def Contradicts (s : Session σ) (op : Op SiteId σ ε) (v : Violation) : Prop :=
  ∃ id input draw handler site, op = .dispatch id input draw handler ∧
    s.engine.callSite? id = some site ∧ s.engine.Contradicts site input draw handler s.world v

/-- An operation contradicts if its dispatch reports so. -/
theorem contradicts_iff (hs : WellFiled s.engine) :
    s.Contradicts op v ↔ ∃ call ∈ s.call? .own op, call.answer.violation = some v := by
  constructor
  · rintro ⟨id, input, draw, handler, site, rfl, hsite, h⟩
    exact ⟨_, mem_call?_iff.mpr ⟨id, input, draw, handler, site, rfl, hsite, rfl⟩,
      (violation_dispatch_iff hs hsite).mpr h⟩
  · rintro ⟨call, hcall, h⟩
    obtain ⟨id, input, draw, handler, site, rfl, hsite, rfl⟩ := mem_call?_iff.mp hcall
    exact ⟨id, input, draw, handler, site, rfl, hsite, (violation_dispatch_iff hs hsite).mp h⟩

/-- An operation demotes the site of the contradiction that it comes upon, and no other one. -/
theorem demoted_step_iff (hs : WellFiled s.engine) :
    (s.step .own op).engine.Demoted t ↔
      s.engine.Demoted t ∨ ∃ v, v.site = t ∧ s.Contradicts op v := by
  simp only [contradicts_iff hs]
  cases op with
  | register id slots => simp [step, call?, demoted_registered_iff]
  | dispatch id input draw handler =>
    cases hsite : s.engine.callSite? id with
    | none => simp [step, call?, Resolver.own, hsite]
    | some site =>
      simpa [step, call?, Resolver.own, hsite] using demoted_dispatch_iff hsite
  | warmStart snapshot =>
    have hsites := sites_loadAll s.engine snapshot.entries
    have hwarm : (s.engine.warmStart snapshot).engine.Demoted t ↔ s.engine.Demoted t :=
      demoted_congr (congrArg (·[t]?) hsites)
    simpa [step, call?] using hwarm
  | exportSnapshot | invalidate | clear => simp [step, call?, Demoted]

/-- No operation adds or changes an entry of a demoted site. -/
theorem peek?_of_step (h : s.engine.Demoted t) (op : Op SiteId σ ε)
    (hx : (s.step .own op).engine.cache.peek? t g = some x) :
    s.engine.cache.peek? t g = some x := by
  cases op with
  | register id slots =>
    rcases registered_cases s.engine id slots with heq | ⟨-, readSet, heq⟩ <;>
      rwa [step, heq] at hx
  | dispatch id input draw handler =>
    cases hsite : s.engine.callSite? id with
    | none => simpa [step, call?, Resolver.own, hsite] using hx
    | some site =>
      replace hx : (s.engine.dispatch site input draw handler s.world).engine.cache.peek? t g =
          some x := by simpa [step, call?, Resolver.own, hsite] using hx
      by_cases hid : site.id = t
      · obtain ⟨rfl, -⟩ := registered_of_callSite? hsite
        rwa [(dispatch_of_demoted ((hid ▸ h).isMemoizable_eq hsite)).1] at hx
      · exact peek?_of_dispatch hid hx
  | exportSnapshot => exact hx
  | warmStart snapshot => exact h.peek?_of_loadAll hx
  | invalidate id => exact Cache.peek?_of_invalidate hx
  | clear => cases Cache.peek?_clear.symm.trans hx

/-- A demotion is final, and no entry of the site is added or changed any more. -/
theorem shut_run (hs : WellFiled s.engine) (h : s.engine.Demoted t) (later : List (Op SiteId σ ε)) :
    Shut s.engine (s.run .own later).engine t := by
  induction later generalizing s with
  | nil => exact h.shut fun _ _ hx => hx
  | cons op rest ih =>
    have hlater := ih (wellFiled_step hs op) ((demoted_step_iff hs).mpr (.inl h))
    exact hlater.demoted.shut fun g x hx => peek?_of_step h op (hlater.entries g x hx)

/-- A handler may use the engine itself. If that demotes the site of the dispatch, nothing comes of
its run, whatever else the handler does with the engine before it returns. -/
theorem settle_of_contradiction (hs : WellFiled s.engine) (hv : s.Contradicts op v)
    (later : List (Op SiteId σ ε)) {site : CallSite}
    (hsite : (s.run .own (op :: later)).engine.callSite? v.site = some site) (input : List UInt64)
    (purpose : Purpose) (outcome : Except ε PostState) :
    SettledLate (s.run .own (op :: later)).engine outcome
      ((s.run .own (op :: later)).engine.settle site input purpose outcome) := by
  have hdemoted : (s.step .own op).engine.Demoted v.site :=
    (demoted_step_iff hs).mpr (.inr ⟨v, rfl, hv⟩)
  have hshut := shut_run (wellFiled_step hs op) hdemoted later
  exact settle_of_demoted (hshut.handle site hsite) input purpose outcome

/-- If the settings ask for it, demoted sites have no entries. -/
def Emptied (s : Session σ) : Prop :=
  s.engine.config.invalidateOnDemotion = true →
    ∀ t, s.engine.Demoted t → s.engine.cache.entryCount t = 0

/-- Entries are dropped with the demotion, and none comes after it. -/
theorem Emptied.step (h : s.Emptied) (hs : WellFiled s.engine) (op : Op SiteId σ ε) :
    (s.step .own op).Emptied := by
  intro hconfig t ht
  rw [(sameSettings_step op).config_eq] at hconfig
  rcases (demoted_step_iff hs).mp ht with hold | ⟨v, rfl, hv⟩
  · rw [Cache.entryCount_eq_zero_iff]
    intro g
    rw [Option.eq_none_iff_forall_ne_some]
    intro x hx
    cases (Cache.entryCount_eq_zero_iff.mp (h hconfig t hold) g).symm.trans
      (peek?_of_step hold op hx)
  · obtain ⟨id, input, draw, handler, site, rfl, hsite, hv⟩ := hv
    have hd := demotedBy_dispatch hsite ((violation_dispatch_iff hs hsite).mpr hv)
    simpa [Session.step, call?, Resolver.own, hsite] using hd.emptied hconfig

/-- In a whole session demoted sites stay without entries. -/
theorem Emptied.run (h : s.Emptied) (hs : WellFiled s.engine) (ops : List (Op SiteId σ ε)) :
    (s.run .own ops).Emptied := by
  induction ops generalizing s with
  | nil => exact h
  | cons op rest ih => exact ih (h.step hs op) (wellFiled_step hs op)

/-- In every session, whatever the handlers, snapshots, settings, codec, policy and samples are: an
operation demotes a site exactly if it is a dispatch of that site that comes upon a contradiction.
That dispatch returns the fresh result, reports the contradiction and leaves the other sites alone.
The demotion is final, and if the settings ask for it, demoted sites have no entries. -/
theorem demoted_for_good (config : Config) (codec : Codec) (policy : EvictionPolicy) (world : σ)
    (ops : List (Op SiteId σ ε)) :
    let start : Session σ := ⟨fresh config codec policy, world⟩
    let s := start.run .own ops
    (∀ (op : Op SiteId σ ε) t, (s.step .own op).engine.Demoted t ↔
      s.engine.Demoted t ∨ ∃ v, v.site = t ∧ s.Contradicts op v) ∧
    (∀ (op : Op SiteId σ ε) v, s.Contradicts op v ↔
      ∃ call ∈ s.call? .own op, call.answer.violation = some v) ∧
    (∀ op : Op SiteId σ ε, ∀ call ∈ s.call? .own op, ∀ v, call.answer.violation = some v →
      DemotedBy s.engine v call.answer) ∧
    (∀ t, s.engine.Demoted t → ∀ later : List (Op SiteId σ ε),
      Shut s.engine (s.run .own later).engine t) ∧
    (config.invalidateOnDemotion = true →
      ∀ t, s.engine.Demoted t → s.engine.cache.entryCount t = 0) := by
  intro start s
  have hs : WellFiled s.engine := wellFiled_run (wellFiled_fresh config codec policy) ops
  have hstart : start.Emptied := by
    rintro - t ⟨r, hr, -⟩
    simp [start, fresh, withPolicy, withCodec, ofConfig] at hr
  have hempty : s.Emptied := hstart.run (wellFiled_fresh config codec policy) ops
  have hconfig : s.engine.config = config := (sameSettings_run ops).config_eq
  refine ⟨fun op t => demoted_step_iff hs, fun op v => contradicts_iff hs, ?_,
    fun t h later => shut_run hs h later, fun h => hempty (hconfig ▸ h)⟩
  intro op call hcall v hv
  obtain ⟨id, input, draw, handler, site, rfl, hsite, rfl⟩ := mem_call?_iff.mp hcall
  exact demotedBy_dispatch hsite hv

/-- Returns one result in the first run and another one ever after. -/
def turning : Handler Bool String := fun _ turned =>
  (.ok { nextPc := if turned then 2 else 1 }, true)

/-- The dispatch whose second run contradicts the first one. -/
def recheck : Op SiteId Bool String := .dispatch ⟨1⟩ [5] 0 turning

/-- Two sites have an entry each. -/
def unchecked : List (Op SiteId Bool String) :=
  [.register ⟨1⟩ [⟨10⟩], .register ⟨2⟩ [⟨20⟩], recheck, .dispatch ⟨2⟩ [7] 0 turning]

/-- The dispatch comes upon a contradiction. -/
theorem contradicts_recheck :
    (run .own ⟨fresh {} (.constant ⟨0⟩) .leastRecentlyUsed, false⟩ unchecked).Contradicts recheck
      ⟨⟨1⟩, ⟨0⟩, { nextPc := 1 }, { nextPc := 2 }⟩ := by
  refine ⟨⟨1⟩, [5], 0, turning, { readSet := ⟨[⟨10⟩], by simp, by simp⟩, id := ⟨1⟩ }, rfl, rfl, ?_⟩
  exact {
    memoizable := rfl
    site_eq := rfl
    fingerprint_eq := rfl
    recorded := rfl
    sampled := by
      rw [(sameSettings_run unchecked).config_eq]
      decide
    outcome := rfl
    differs := by decide }

/-- A site is demoted by a check, registered again, offered a snapshot and dispatched once more. -/
theorem demoted_for_good_turning :
    let start : Session Bool := ⟨fresh {} (.constant ⟨0⟩) .leastRecentlyUsed, false⟩
    let s := start.run .own unchecked
    let s' := start.run .own (unchecked ++ [recheck])
    let later := [.register ⟨1⟩ [⟨10⟩], .warmStart ⟨[⟨⟨1⟩, 0, [5], [], 12, 4⟩]⟩, recheck]
    s.Contradicts recheck ⟨⟨1⟩, ⟨0⟩, { nextPc := 1 }, { nextPc := 2 }⟩ ∧
    (∃ call ∈ s.call? .own recheck,
      DemotedBy s.engine ⟨⟨1⟩, ⟨0⟩, { nextPc := 1 }, { nextPc := 2 }⟩ call.answer) ∧
    s'.engine.Demoted ⟨1⟩ ∧ Shut s'.engine (s'.run .own later).engine ⟨1⟩ ∧
    s'.engine.cache.entryCount ⟨1⟩ = 0 := by
  have before := demoted_for_good {} (.constant ⟨0⟩) .leastRecentlyUsed false unchecked
  have after :=
    demoted_for_good {} (.constant ⟨0⟩) .leastRecentlyUsed false (unchecked ++ [recheck])
  dsimp only at before after ⊢
  rw [run_snoc] at after ⊢
  have demoted := (before.1 recheck ⟨1⟩).mpr (.inr ⟨_, rfl, contradicts_recheck⟩)
  obtain ⟨call, hcall, reported⟩ := (before.2.1 recheck _).mp contradicts_recheck
  exact ⟨contradicts_recheck, ⟨call, hcall, before.2.2.1 recheck call hcall _ reported⟩, demoted,
    after.2.2.2.1 ⟨1⟩ demoted _, after.2.2.2.2 rfl ⟨1⟩ demoted⟩

end Session

end CallMemo
