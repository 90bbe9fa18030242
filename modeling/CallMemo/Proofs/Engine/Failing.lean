import CallMemo.Proofs.Engine.Uses

/-!
# Failed dispatches

A dispatch that is refused for the width of its input changes nothing. One whose handler fails has
consulted the cache and counted what it found before the handler ran, and adds the failure
afterwards. What is recorded stays as it is; only an entry that was found has one more use.
-/

namespace CallMemo

variable {σ ε : Type}

/-- The counters after a dispatch that found this and whose handler failed. -/
def Metrics.aborted (m : Metrics) (f : Finding) : Metrics :=
  { m with
    handlerFailures := m.handlerFailures + 1
    bypassedCalls := m.bypassedCalls + if f = .demoted then 1 else 0
    lookups := m.lookups + if f = .demoted then 0 else 1
    misses := m.misses + if f = .absent then 1 else 0
    collisions := m.collisions + if f = .other then 1 else 0
    hits := m.hits + if f = .same then 1 else 0 }

namespace Engine

/-- What a consultation leaves of the cache. -/
structure Searched (e : Engine) (site : CallSite) (input : List UInt64) (c : Cache) : Prop where
  /-- If no entry is found, the cache is the same, its clock included. -/
  unfound : e.finding site input ≠ .other → e.finding site input ≠ .same → c = e.cache
  /-- An entry that is found has one more use, and the clock has moved on. -/
  found : e.finding site input = .other ∨ e.finding site input = .same →
    c.clock = e.cache.clock + 1 ∧
      ∃ x, e.cache.peek? site.id (e.codec.encode site.id input) = some x ∧
        c.peek? site.id (e.codec.encode site.id input) =
          some { x with usage := { x.usage with
            lastUsed := max x.usage.lastUsed e.cache.clock, hits := x.usage.hits + 1 } }
  /-- All other entries are what they were. -/
  peek?_of_ne : ∀ t g, ¬ (site.id = t ∧ e.codec.encode site.id input = g) →
    c.peek? t g = e.cache.peek? t g
  /-- The same contexts have entries, with the same inputs, results and confidence. -/
  kept : ∀ t g, (c.peek? t g).map (fun x => (x.rawInput, x.post, x.usage.confidence)) =
    (e.cache.peek? t g).map fun x => (x.rawInput, x.post, x.usage.confidence)
  /-- The same sites have a shard. -/
  shards_iff : ∀ t, t ∈ c.shards ↔ t ∈ e.cache.shards
  /-- The counter is the same. -/
  total_eq : c.total = e.cache.total
  /-- The bounds are the same. -/
  limits_eq : c.limits = e.cache.limits
  /-- The policy is the same. -/
  policy_eq : c.policy = e.cache.policy

/-- What a dispatch does whose handler fails with `err`. -/
structure Aborted (e : Engine) (site : CallSite) (input : List UInt64) (handler : Handler σ ε)
    (world : σ) (err : ε) (d : Dispatched σ ε) : Prop where
  /-- The error is the handler's own, and so is the state it works on. -/
  outcome : handler input world = (.error err, d.world)
  /-- No contradiction is reported. -/
  violation_eq : d.violation = none
  /-- The settings are the same. -/
  config_eq : d.engine.config = e.config
  /-- The codec is the same. -/
  codec_eq : d.engine.codec = e.codec
  /-- The same sites are registered, with the same read sets and statuses. -/
  sites_eq : d.engine.sites = e.sites
  /-- The failure is counted, and before it what the dispatch found. -/
  metrics_eq : d.engine.metrics = e.metrics.aborted (e.finding site input)
  /-- The cache has been consulted and nothing else. -/
  cache : Searched e site input d.engine.cache

variable {e e' : Engine} {site : CallSite} {input : List UInt64} {draw : UInt64} {d : Decision}
  {purpose : Purpose}

/-- A lookup leaves its traces on the entry it finds and on the clock. -/
theorem searched_marked {x : Entry}
    (hx : e.cache.peek? site.id (e.codec.encode site.id input) = some x)
    (hfound : e.finding site input = .other ∨ e.finding site input = .same) :
    Searched e site input (e.marked site.id (e.codec.encode site.id input)).cache := by
  have hpeek (t : SiteId) (g : Fingerprint) :
      (e.marked site.id (e.codec.encode site.id input)).cache.peek? t g =
        if site.id = t ∧ e.codec.encode site.id input = g
        then (e.cache.peek? t g).map (·.hit e.cache.clock) else e.cache.peek? t g :=
    Cache.peek?_lookup
  constructor
  case unfound => exact fun hother hsame => absurd hfound (not_or_intro hother hsame)
  case found =>
    refine fun _ => ⟨by rw [marked, Cache.lookup_of_some hx], x, hx, ?_⟩
    rw [hpeek, if_pos ⟨rfl, rfl⟩, hx]
    rfl
  case peek?_of_ne =>
    intro t g hne
    rw [hpeek, if_neg hne]
  case kept =>
    intro t g
    rw [hpeek]
    split
    · rw [Option.map_map]
      rfl
    · rfl
  case shards_iff =>
    intro t
    rw [marked, Cache.lookup_of_some hx]
    simp only [Cache.setShard, Std.ExtTreeMap.mem_insert, Std.LawfulEqOrd.compare_eq_iff_eq]
    constructor
    · rintro (rfl | ht)
      · exact Cache.mem_shards_of_peek? hx
      · exact ht
    · exact .inr
  case total_eq | limits_eq | policy_eq =>
    rw [marked, Cache.lookup_of_some hx]
    rfl

/-- A cache in which nothing is found is left as it is. -/
theorem searched_self (hother : e.finding site input ≠ .other)
    (hsame : e.finding site input ≠ .same) : Searched e site input e.cache where
  unfound _ _ := rfl
  found hfound := absurd hfound (not_or_intro hother hsame)
  peek?_of_ne _ _ _ := rfl
  kept _ _ := rfl
  shards_iff _ := Iff.rfl
  total_eq := rfl
  limits_eq := rfl
  policy_eq := rfl

/-- A consultation that lets the handler run has searched the cache. -/
theorem Consulting.searched (h : Consulting e site input draw e' (.run purpose)) :
    Searched e site input e'.cache := by
  cases h with
  | bypass width demoted =>
    have hfinds := finding_of_demoted (e := e) width demoted
    exact searched_self (by simp [hfinds]) (by simp [hfinds])
  | miss width memoizable absent =>
    have hfinds := finding_of_absent width memoizable absent
    exact searched_self (by simp [hfinds]) (by simp [hfinds])
  | collision width memoizable present other =>
    obtain ⟨x, hx⟩ := Cache.exists_peek?_of_recorded? present
    exact searched_marked hx (.inl (finding_of_other width memoizable present other))
  | recheck width memoizable present same sampled =>
    obtain ⟨x, hx⟩ := Cache.exists_peek?_of_recorded? present
    exact searched_marked hx (.inr (finding_of_same width memoizable present same))

/-- A consultation that lets the handler run has counted what it found, and a failure adds to it. -/
theorem Consulting.metrics_failure (h : Consulting e site input draw e' (.run purpose)) :
    (e'.count .failure).metrics = e.metrics.aborted (e.finding site input) := by
  cases h with
  | bypass width demoted =>
    simp [finding_of_demoted width demoted, count, Metrics.record, Metrics.aborted]
  | miss width memoizable absent =>
    simp [finding_of_absent width memoizable absent, count, Metrics.record, Metrics.aborted]
  | collision width memoizable present other =>
    simp [finding_of_other width memoizable present other, count, Metrics.record, Metrics.aborted,
      marked]
  | recheck width memoizable present same sampled =>
    simp [finding_of_same width memoizable present same, count, Metrics.record, Metrics.aborted,
      marked]

/-- An input of the wrong width is refused before anything is touched. -/
theorem dispatch_of_width_ne (width : input.length ≠ site.readSet.width) (handler : Handler σ ε)
    (world : σ) :
    e.dispatch site input draw handler world =
      { engine := e, world, ran := false
        result := .error (.contextWidth site.id site.readSet.width input.length) } := by
  simp [dispatch, consult, width]

/-- How a dispatch fails. -/
structure Failing (e : Engine) (site : CallSite) (input : List UInt64) (handler : Handler σ ε)
    (world : σ) (d : Dispatched σ ε) : Prop where
  /-- A dispatch is refused exactly if the width is wrong. -/
  refused_iff : ∀ id expected found, d.result = .error (.contextWidth id expected found) ↔
    input.length ≠ site.readSet.width ∧ id = site.id ∧ expected = site.readSet.width ∧
      found = input.length
  /-- A refusal runs no handler and changes nothing. -/
  of_refused : ∀ id expected found, d.result = .error (.contextWidth id expected found) →
    d.ran = false ∧ d.world = world ∧ d.engine = e ∧ d.violation = none ∧ d.events = []
  /-- A failure is reported exactly if the handler ran and failed. -/
  failed_iff : ∀ err, d.result = .error (.handler err) ↔
    d.ran = true ∧ (handler input world).1 = .error err
  /-- A failure leaves what was recorded, registered and reported alone. -/
  of_failed : ∀ err, d.result = .error (.handler err) → Aborted e site input handler world err d

/-- For every engine, handle, input, draw and handler: a refused dispatch changes nothing, and one
whose handler fails changes only counters and the usage of the entry it found. -/
theorem dispatch_failing (e : Engine) (site : CallSite) (input : List UInt64) (draw : UInt64)
    (handler : Handler σ ε) (world : σ) :
    Failing e site input handler world (e.dispatch site input draw handler world) := by
  by_cases width : input.length = site.readSet.width
  case neg =>
    rw [dispatch_of_width_ne width]
    constructor
    case refused_iff =>
      intro id expected found
      simp only [Except.error.injEq, DispatchError.contextWidth.injEq]
      exact ⟨fun ⟨h, h', h''⟩ => ⟨width, h.symm, h'.symm, h''.symm⟩,
        fun ⟨_, h, h', h''⟩ => ⟨h.symm, h'.symm, h''.symm⟩⟩
    case of_refused => exact fun _ _ _ _ => ⟨rfl, rfl, rfl, rfl, rfl⟩
    case failed_iff => simp
    case of_failed => simp
  have hd := dispatch_dispatching e site input draw handler world
  generalize e.dispatch site input draw handler world = d at hd ⊢
  cases hd with
  | refused misfit => exact absurd width misfit
  | failed consulted outcome =>
    constructor
    case refused_iff => simp [width]
    case of_refused => simp
    case failed_iff => simp [outcome]
    case of_failed =>
      intro err' herr
      obtain rfl : _ = err' := by simpa using herr
      obtain ⟨hconfig, hcodec, hsites, -⟩ := consulted.frame
      exact ⟨outcome, rfl, hconfig, hcodec, hsites, consulted.metrics_failure, consulted.searched⟩
  | replayed consulted =>
    constructor <;> simp [width]
  | bypassed consulted outcome | recorded consulted outcome | confirmed consulted outcome
  | contradicted consulted outcome differs =>
    constructor <;> simp [width, outcome]

end Engine

end CallMemo
