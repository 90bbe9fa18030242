import CallMemo.Engine.Dispatch
import CallMemo.Engine.WarmStart
import CallMemo.Proofs.Cache.Placement

/-!
# The ways of a dispatch

A dispatch ends in one of seven ways, and consulting the cache in one of six. Each way is a rule
that names its guard and the exact engine, result and report; proofs about dispatches are case
analyses over these rules. Loading a snapshot entry is described in the same manner.
-/

namespace CallMemo

/-- A handler works on a state of its own and yields a post-state or fails. -/
abbrev Handler (σ ε : Type) := List UInt64 → σ → Except ε PostState × σ

/-- The fingerprint under which the outcome of a run matters. -/
def Purpose.fingerprint? : Purpose → Option Fingerprint
  | .bypass => none
  | .record fp => some fp
  | .recheck fp _ => some fp

/-- The recorded result that a decision rests on. -/
def Decision.cached? : Decision → Option PostState
  | .replay post => some post
  | .run (.recheck _ post) => some post
  | _ => none

namespace Engine

variable {e : Engine}

@[simp] theorem config_count {h : Metrics.Happening} : (e.count h).config = e.config := rfl

@[simp] theorem codec_count {h : Metrics.Happening} : (e.count h).codec = e.codec := rfl

@[simp] theorem sites_count {h : Metrics.Happening} : (e.count h).sites = e.sites := rfl

@[simp] theorem cache_count {h : Metrics.Happening} : (e.count h).cache = e.cache := rfl

/-- The happening that an insertion is counted as. -/
def happening : InsertOutcome → Metrics.Happening
  | .inserted | .replaced => .insert false
  | .evicted .. => .insert true
  | .skipped => .skippedInsert

/-- An insertion is counted as one happening. -/
theorem countInsertion_eq (o : InsertOutcome) : e.countInsertion o = e.count (happening o) := by
  cases o <;> rfl

@[simp] theorem codec_countInsertion {o : InsertOutcome} :
    (e.countInsertion o).codec = e.codec := by rw [countInsertion_eq, codec_count]

@[simp] theorem sites_countInsertion {o : InsertOutcome} :
    (e.countInsertion o).sites = e.sites := by rw [countInsertion_eq, sites_count]

@[simp] theorem cache_countInsertion {o : InsertOutcome} :
    (e.countInsertion o).cache = e.cache := by rw [countInsertion_eq, cache_count]

section

variable {id : SiteId} {fp : Fingerprint} {input : List UInt64} {post : PostState}

@[simp] theorem codec_record : (e.record id fp input post).1.codec = e.codec := by
  simp [record]

@[simp] theorem sites_record : (e.record id fp input post).1.sites = e.sites := by
  simp [record]

@[simp] theorem cache_record :
    (e.record id fp input post).1.cache = (e.cache.insert id fp input post).cache := by
  simp [record]

end

/-- The engine after a lookup has marked the entry it found. -/
def marked (e : Engine) (id : SiteId) (fp : Fingerprint) : Engine :=
  { e with cache := (e.cache.lookup id fp).2 }

/-- How a consultation ends: the engine afterwards and the decision. -/
inductive Consulting (e : Engine) (site : CallSite) (input : List UInt64) (draw : UInt64) :
    Engine → Decision → Prop
  /-- The width is wrong, which changes nothing. -/
  | refuse (width : input.length ≠ site.readSet.width) :
      Consulting e site input draw e (.refuse site.readSet.width input.length)
  /-- The site is demoted. -/
  | bypass (width : input.length = site.readSet.width) (demoted : site.isMemoizable = false) :
      Consulting e site input draw (e.count .bypass) (.run .bypass)
  /-- Nothing is recorded under the fingerprint. -/
  | miss (width : input.length = site.readSet.width) (memoizable : site.isMemoizable = true)
      (absent : e.cache.recorded? site.id (e.codec.encode site.id input) = none) :
      Consulting e site input draw (e.count .miss)
        (.run (.record (e.codec.encode site.id input)))
  /-- Another input is recorded under the fingerprint. -/
  | collision {hit} (width : input.length = site.readSet.width)
      (memoizable : site.isMemoizable = true)
      (present : e.cache.recorded? site.id (e.codec.encode site.id input) = some hit)
      (other : hit.rawInput ≠ input) :
      Consulting e site input draw
        ((e.marked site.id (e.codec.encode site.id input)).count .collision)
        (.run (.record (e.codec.encode site.id input)))
  /-- The input itself is recorded and trusted. -/
  | replay {hit} (width : input.length = site.readSet.width)
      (memoizable : site.isMemoizable = true)
      (present : e.cache.recorded? site.id (e.codec.encode site.id input) = some hit)
      (same : hit.rawInput = input)
      (trusted : isSampled e.config.validationSampleRate draw = false) :
      Consulting e site input draw ((e.marked site.id (e.codec.encode site.id input)).count .hit)
        (.replay hit.post)
  /-- The input itself is recorded and to be checked. -/
  | recheck {hit} (width : input.length = site.readSet.width)
      (memoizable : site.isMemoizable = true)
      (present : e.cache.recorded? site.id (e.codec.encode site.id input) = some hit)
      (same : hit.rawInput = input)
      (sampled : isSampled e.config.validationSampleRate draw = true) :
      Consulting e site input draw ((e.marked site.id (e.codec.encode site.id input)).count .hit)
        (.run (.recheck (e.codec.encode site.id input) hit.post))

/-- There is no other way for a consultation to end. -/
theorem consult_consulting (e : Engine) (site : CallSite) (input : List UInt64) (draw : UInt64) :
    Consulting e site input draw (e.consult site input draw).engine
      (e.consult site input draw).decision := by
  unfold consult
  by_cases width : input.length = site.readSet.width
  · rw [if_neg (not_not_intro width)]
    cases memoizable : site.isMemoizable with
    | false => exact .bypass width memoizable
    | true =>
      have hl := Cache.lookup_fst (c := e.cache) (s := site.id)
        (f := e.codec.encode site.id input)
      rw [if_neg (by simp)]
      dsimp only
      split
      · next heq => exact .miss width memoizable (by rw [← hl, heq])
      · next hit cache heq =>
        have present : e.cache.recorded? site.id (e.codec.encode site.id input) = some hit := by
          rw [← hl, heq]
        obtain rfl : (e.cache.lookup site.id (e.codec.encode site.id input)).2 = cache := by
          rw [heq]
        split
        · next hi =>
          exact .collision width memoizable present (by simpa [Hit.isFor] using hi)
        · next hi =>
          have same : hit.rawInput = input := by simpa [Hit.isFor] using hi
          dsimp only
          split
          · next hs => exact .recheck width memoizable present same hs
          · next hs => exact .replay width memoizable present same (by simpa using hs)
  · rw [if_pos width]
    exact .refuse width

/-- A consultation changes usage and counters only. -/
theorem Consulting.frame {e' : Engine} {site : CallSite} {input : List UInt64} {draw : UInt64}
    {d : Decision} (h : Consulting e site input draw e' d) :
    e'.config = e.config ∧ e'.codec = e.codec ∧ e'.sites = e.sites ∧
      ∀ t g, e'.cache.recorded? t g = e.cache.recorded? t g := by
  cases h with
  | refuse width => exact ⟨rfl, rfl, rfl, fun _ _ => rfl⟩
  | bypass width demoted => exact ⟨rfl, rfl, rfl, fun _ _ => rfl⟩
  | miss width memoizable absent => exact ⟨rfl, rfl, rfl, fun _ _ => rfl⟩
  | collision width memoizable present other =>
    exact ⟨rfl, rfl, rfl, fun _ _ => Cache.recorded?_lookup⟩
  | replay width memoizable present same trusted =>
    exact ⟨rfl, rfl, rfl, fun _ _ => Cache.recorded?_lookup⟩
  | recheck width memoizable present same sampled =>
    exact ⟨rfl, rfl, rfl, fun _ _ => Cache.recorded?_lookup⟩

/-- What is replayed or checked is recorded for the very input. -/
theorem Consulting.recorded?_eq {e' : Engine} {site : CallSite} {input : List UInt64}
    {draw : UInt64} {d : Decision} (h : Consulting e site input draw e' d) {post : PostState}
    (hd : d.cached? = some post) :
    e.cache.recorded? site.id (e.codec.encode site.id input) = some ⟨input, post⟩ := by
  cases h with
  | replay width memoizable present same trusted =>
    obtain rfl := same
    obtain rfl : _ = post := Option.some.inj hd
    exact present
  | recheck width memoizable present same sampled =>
    obtain rfl := same
    obtain rfl : _ = post := Option.some.inj hd
    exact present
  | _ => simp [Decision.cached?] at hd

/-- The outcome of a run matters under the fingerprint of the very input. -/
theorem Consulting.fingerprint_eq {e' : Engine} {site : CallSite} {input : List UInt64}
    {draw : UInt64} {purpose : Purpose} {fp : Fingerprint}
    (h : Consulting e site input draw e' (.run purpose)) (hp : purpose.fingerprint? = some fp) :
    e.codec.encode site.id input = fp := by
  cases h with
  | bypass width demoted => cases hp
  | miss width memoizable absent => exact Option.some.inj hp
  | collision width memoizable present other => exact Option.some.inj hp
  | recheck width memoizable present same sampled => exact Option.some.inj hp

/-- The cache is consulted for sites that may be served from it. -/
theorem Consulting.isMemoizable {e' : Engine} {site : CallSite} {input : List UInt64}
    {draw : UInt64} {purpose : Purpose}
    (h : Consulting e site input draw e' (.run purpose)) (hp : purpose ≠ .bypass) :
    site.isMemoizable = true := by
  cases h with
  | bypass width demoted => exact absurd rfl hp
  | miss width memoizable absent => exact memoizable
  | collision width memoizable present other => exact memoizable
  | recheck width memoizable present same sampled => exact memoizable

/-- How a dispatch ends. The log is left open. -/
inductive Dispatching {σ ε : Type} (e : Engine) (site : CallSite) (input : List UInt64)
    (draw : UInt64) (handler : Handler σ ε) (world : σ) : Dispatched σ ε → Prop
  /-- The width is wrong. -/
  | refused {events} (width : input.length ≠ site.readSet.width) :
      Dispatching e site input draw handler world
        { engine := e, world, ran := false, events
          result := .error (.contextWidth site.id site.readSet.width input.length) }
  /-- A trusted result is returned without a run. -/
  | replayed {e' post events} (consulted : Consulting e site input draw e' (.replay post)) :
      Dispatching e site input draw handler world
        { engine := e', world, result := .ok post, ran := false, events }
  /-- The handler fails, whatever it was run for. -/
  | failed {e' purpose err world' events}
      (consulted : Consulting e site input draw e' (.run purpose))
      (outcome : handler input world = (.error err, world')) :
      Dispatching e site input draw handler world
        { engine := e'.count .failure, world := world', result := .error (.handler err),
          ran := true, events }
  /-- The handler of a demoted site succeeds. -/
  | bypassed {e' post world' events}
      (consulted : Consulting e site input draw e' (.run .bypass))
      (outcome : handler input world = (.ok post, world')) :
      Dispatching e site input draw handler world
        { engine := e', world := world', result := .ok post, ran := true, events }
  /-- A new result is recorded. -/
  | recorded {e' fp post world' events}
      (consulted : Consulting e site input draw e' (.run (.record fp)))
      (outcome : handler input world = (.ok post, world')) :
      Dispatching e site input draw handler world
        { engine := (e'.record site.id fp input post).1, world := world', result := .ok post,
          ran := true, events }
  /-- A fresh run agrees with the recorded result. -/
  | confirmed {e' fp post world' events}
      (consulted : Consulting e site input draw e' (.run (.recheck fp post)))
      (outcome : handler input world = (.ok post, world')) :
      Dispatching e site input draw handler world
        { engine := { e'.count (.validation true) with cache := (e'.cache.confirm site.id fp).2 }
          world := world', result := .ok post, ran := true, events }
  /-- A fresh run contradicts the recorded result and the site is demoted. -/
  | contradicted {e' fp cached fresh world' events}
      (consulted : Consulting e site input draw e' (.run (.recheck fp cached)))
      (outcome : handler input world = (.ok fresh, world')) (differs : fresh ≠ cached) :
      Dispatching e site input draw handler world
        { engine := ((e'.count (.validation false)).contradict
            ⟨site.id, fp, cached, fresh⟩).1.demote site.id
          world := world', result := .ok fresh, ran := true,
          violation := some ⟨site.id, fp, cached, fresh⟩, events }

/-- There is no other way for a dispatch to end. -/
theorem dispatch_dispatching {σ ε : Type} (e : Engine) (site : CallSite) (input : List UInt64)
    (draw : UInt64) (handler : Handler σ ε) (world : σ) :
    Dispatching e site input draw handler world (e.dispatch site input draw handler world) := by
  have hc := consult_consulting e site input draw
  unfold dispatch
  dsimp only
  generalize e.consult site input draw = c at hc
  obtain ⟨e', decision, events⟩ := c
  dsimp only at hc ⊢
  cases decision with
  | refuse expected found =>
    cases hc with
    | refuse width => exact .refused width
  | replay post => exact .replayed hc
  | run purpose =>
    dsimp only
    rcases ho : handler input world with ⟨outcome, world'⟩
    cases outcome with
    | error err => exact .failed hc ho
    | ok fresh =>
      cases purpose with
      | bypass => exact .bypassed hc ho
      | record fp =>
        have memoizable := hc.isMemoizable (by simp)
        simp only [settle, if_pos memoizable]
        exact .recorded hc ho
      | recheck fp cached =>
        have memoizable := hc.isMemoizable (by simp)
        by_cases same : fresh = cached
        · subst same
          simp only [settle, ↓reduceIte]
          exact .confirmed hc ho
        · simp only [settle, if_neg same, if_pos memoizable]
          exact .contradicted hc ho same

/-- A contradiction may drop recorded results and changes no site and no codec. -/
theorem contradict_frame (e : Engine) (v : Violation) :
    (e.contradict v).1.codec = e.codec ∧ (e.contradict v).1.sites = e.sites ∧
      ∀ t g hit, (e.contradict v).1.cache.recorded? t g = some hit →
        e.cache.recorded? t g = some hit := by
  unfold contradict
  cases e.config.invalidateOnDemotion with
  | true => exact ⟨rfl, rfl, fun _ _ _ hr => Cache.recorded?_of_invalidate hr⟩
  | false => exact ⟨rfl, rfl, fun _ _ _ hr => hr⟩

/-- A demotion touches the status of its own site only. -/
theorem sites_demote (e : Engine) (id t : SiteId) :
    (e.demote id).sites[t]? =
      if id = t then e.sites[t]?.map fun r => { r with status := .demoted } else e.sites[t]? := by
  simp only [demote, Std.ExtTreeMap.getElem?_modify, Std.LawfulEqOrd.compare_eq_iff_eq]
  split
  · next hid => rw [hid]
  · rfl

/-- A handle of the engine itself shows the registration of its site. -/
theorem registered_of_callSite? {id : SiteId} {site : CallSite} (h : e.callSite? id = some site) :
    site.id = id ∧ e.sites[id]? = some site.toRegistration := by
  obtain ⟨r, hr, rfl⟩ := Option.map_eq_some_iff.mp h
  exact ⟨rfl, hr⟩

/-- How the offer of a snapshot entry ends. -/
inductive Loads (e : Engine) (s : SnapshotEntry) : Engine → Bool → Prop
  /-- The entry fits no registered site that may be served from the cache. -/
  | unfit (misfit : ∀ r, e.sites[s.site]? = some r →
        ¬ (r.isMemoizable = true ∧ s.inputs.length = r.readSet.width)) :
      Loads e s e false
  /-- The entry is offered to the cache. -/
  | offered {r : Registration} (registered : e.sites[s.site]? = some r)
      (memoizable : r.isMemoizable = true) (width : s.inputs.length = r.readSet.width) :
      Loads e s
        ({ e with cache := (e.cache.insertCold s.site (e.codec.encode s.site s.inputs) s.inputs
            s.post s.hits).cache }.countInsertion
          (e.cache.insertCold s.site (e.codec.encode s.site s.inputs) s.inputs s.post
            s.hits).outcome)
        ((e.cache.insertCold s.site (e.codec.encode s.site s.inputs) s.inputs s.post
          s.hits).outcome != .skipped)

/-- There is no other way for the offer of an entry to end. -/
theorem load_loads (e : Engine) (s : SnapshotEntry) :
    Loads e s (e.load s).engine (e.load s).accepted := by
  unfold load
  split
  · next unregistered => exact .unfit (by simp [unregistered])
  · next r registered =>
    have fits : (!r.isMemoizable || s.inputs.length != r.readSet.width) = true ↔
        ¬ (r.isMemoizable = true ∧ s.inputs.length = r.readSet.width) := by
      cases r.isMemoizable <;> simp
    split
    · next misfit =>
      refine .unfit fun r' hr' => ?_
      obtain rfl : r = r' := by simpa [registered] using hr'
      exact fits.mp misfit
    · next fit =>
      obtain ⟨memoizable, width⟩ := Decidable.not_not.mp (fit ∘ fits.mpr)
      exact .offered registered memoizable width

end Engine

end CallMemo
