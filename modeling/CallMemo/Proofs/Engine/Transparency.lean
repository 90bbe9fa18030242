import CallMemo.Cache.Policies
import CallMemo.Proofs.Engine.Session

/-!
# Transparency

With pure handlers the cache cannot be noticed: every dispatch returns what its handler would, no
check fails and no site is demoted, whatever the codec, the eviction policy, the bounds and the
samples are. The invariant is that every recorded result is one that the handler of its site gives
for the recorded input; collisions, evictions and warm starts keep it.
-/

namespace CallMemo

variable {η σ ε : Type}

/-- The operation agrees with the fixed handlers `h`, one for each site: a dispatch runs the handler
of the site its name stands for, and the entries of a snapshot are results of the handlers of their
sites. -/
def Engine.Op.Honest (resolve : Resolver η) (h : SiteId → List UInt64 → Except ε PostState) :
    Engine.Op η σ ε → Prop
  | .dispatch name _ _ handler => ∀ e site, resolve e name = some site →
      ∀ input world, (handler input world).1 = h site.id input
  | .warmStart snapshot => ∀ s ∈ snapshot.entries, h s.site s.inputs = .ok s.post
  | _ => True

namespace Engine

variable {h : SiteId → List UInt64 → Except ε PostState} {e e' : Engine}

/-- Everything recorded is a result of the handlers `h`, and nothing has told against them. -/
structure Faithful (h : SiteId → List UInt64 → Except ε PostState) (e : Engine) : Prop where
  /-- Recorded results are results of the handlers. -/
  recorded : ∀ t g hit, e.cache.recorded? t g = some hit → h t hit.rawInput = .ok hit.post
  /-- All sites may be served from the cache. -/
  memoizable : ∀ (t : SiteId) (r : Registration), e.sites[t]? = some r → r.status = .memoizable
  /-- No contradiction was counted. -/
  unviolated : e.metrics.purityViolations = 0

/-- A new engine has no result that could be wrong. -/
theorem faithful_fresh (config : Config) (codec : Codec) (policy : EvictionPolicy) :
    Faithful h (fresh config codec policy) where
  recorded t g hit hr := by
    simp [fresh, withPolicy, Cache.recorded?, Cache.peek?, Cache.shard_eq_empty] at hr
  memoizable t r hr := by simp [fresh, withPolicy, withCodec, ofConfig] at hr
  unviolated := rfl

/-- An engine that records no more and knows the same sites stays faithful. -/
theorem Faithful.mono (he : Faithful h e)
    (hr : ∀ t g hit, e'.cache.recorded? t g = some hit → e.cache.recorded? t g = some hit)
    (hs : e'.sites = e.sites)
    (hm : e'.metrics.purityViolations = e.metrics.purityViolations) : Faithful h e' where
  recorded t g hit hit' := he.recorded t g hit (hr t g hit hit')
  memoizable t r := by rw [hs]; exact he.memoizable t r
  unviolated := hm.trans he.unviolated

/-- A contradiction is the only happening that tells against the handlers. -/
theorem purityViolations_count {x : Metrics.Happening} (hx : x ≠ .violation) :
    (e.count x).metrics.purityViolations = e.metrics.purityViolations := by
  cases x with
  | violation => exact absurd rfl hx
  | insert evicted => cases evicted <;> rfl
  | validation confirmed => cases confirmed <;> rfl
  | _ => rfl

/-- Counting anything but a violation keeps the engine faithful. -/
theorem Faithful.count (he : Faithful h e) {x : Metrics.Happening} (hx : x ≠ .violation) :
    Faithful h (e.count x) :=
  he.mono (fun _ _ _ hr => hr) rfl (purityViolations_count hx)

/-- Insertions are counted as no violation. -/
theorem Faithful.countInsertion (he : Faithful h e) (o : InsertOutcome) :
    Faithful h (e.countInsertion o) := by
  rw [countInsertion_eq]
  exact he.count (by cases o <;> simp [happening])

/-- Recording what the handler of a site gives keeps an engine faithful. -/
theorem Faithful.setCache (he : Faithful h e) {c : Cache} {id : SiteId} {fp : Fingerprint}
    {input : List UInt64} {post : PostState} (hpost : h id input = .ok post)
    (hc : ∀ t g hit, c.recorded? t g = some hit →
      (id = t ∧ fp = g) ∧ hit = ⟨input, post⟩ ∨
        ¬ (id = t ∧ fp = g) ∧ e.cache.recorded? t g = some hit) :
    Faithful h { e with cache := c } where
  recorded t g hit hr := by
    rcases hc t g hit hr with ⟨⟨rfl, -⟩, rfl⟩ | ⟨-, hold⟩
    · exact hpost
    · exact he.recorded t g hit hold
  memoizable := he.memoizable
  unviolated := he.unviolated

/-- Consulting the cache keeps an engine faithful. -/
theorem Faithful.consulting (he : Faithful h e) {site : CallSite} {input : List UInt64}
    {draw : UInt64} {d : Decision} (hc : Consulting e site input draw e' d) : Faithful h e' := by
  have looked : Faithful h (e.marked site.id (e.codec.encode site.id input)) :=
    he.mono (fun _ _ _ hr => by rwa [← Cache.recorded?_lookup]) rfl rfl
  cases hc with
  | refuse width => exact he
  | bypass width demoted => exact he.count (by simp)
  | miss width memoizable absent => exact he.count (by simp)
  | collision width memoizable present other => exact looked.count (by simp)
  | replay width memoizable present same trusted => exact looked.count (by simp)
  | recheck width memoizable present same sampled => exact looked.count (by simp)

/-- A dispatch with the handler of its site keeps a faithful engine faithful, reports nothing and
returns what the handler gives. -/
theorem Faithful.dispatch (he : Faithful h e) {site : CallSite} {input : List UInt64}
    {draw : UInt64} {handler : Handler σ ε} {world : σ}
    (pure : ∀ input world, (handler input world).1 = h site.id input) :
    Faithful h (e.dispatch site input draw handler world).engine ∧
      (e.dispatch site input draw handler world).violation = none ∧
      (input.length = site.readSet.width →
        (e.dispatch site input draw handler world).result =
          (h site.id input).mapError .handler) := by
  have gives {outcome : Except ε PostState} {world' : σ}
      (ho : handler input world = (outcome, world')) : h site.id input = outcome := by
    rw [← pure input world, ho]
  have hd := dispatch_dispatching e site input draw handler world
  generalize e.dispatch site input draw handler world = d at hd ⊢
  cases hd with
  | refused width => exact ⟨he, rfl, fun hw => absurd hw width⟩
  | replayed consulted =>
    have hpost := he.recorded _ _ _ (consulted.recorded?_eq rfl)
    exact ⟨he.consulting consulted, rfl, fun _ => by rw [hpost]; rfl⟩
  | failed consulted outcome =>
    exact ⟨(he.consulting consulted).count (by simp), rfl, fun _ => by rw [gives outcome]; rfl⟩
  | bypassed consulted outcome =>
    exact ⟨he.consulting consulted, rfl, fun _ => by rw [gives outcome]; rfl⟩
  | recorded consulted outcome =>
    refine ⟨?_, rfl, fun _ => by rw [gives outcome]; rfl⟩
    exact ((he.consulting consulted).setCache (gives outcome)
      fun _ _ _ hr => (Cache.recorded?_insert hr).imp_left And.right).countInsertion _
  | confirmed consulted outcome =>
    refine ⟨?_, rfl, fun _ => by rw [gives outcome]; rfl⟩
    exact ((he.consulting consulted).count (by simp)).mono
      (fun _ _ _ hr => by rwa [← Cache.recorded?_confirm]) rfl rfl
  | contradicted consulted outcome differs =>
    have hpost := he.recorded _ _ _ (consulted.recorded?_eq rfl)
    exact absurd (Except.ok.inj ((gives outcome).symm.trans hpost)) differs

/-- Offering a truthful snapshot entry keeps an engine faithful. -/
theorem Faithful.load (he : Faithful h e) {s : SnapshotEntry}
    (truthful : h s.site s.inputs = .ok s.post) : Faithful h (e.load s).engine := by
  have hl := load_loads e s
  generalize (e.load s).engine = e', (e.load s).accepted = accepted at hl ⊢
  cases hl with
  | unfit misfit => exact he
  | offered registered memoizable width =>
    exact (he.setCache truthful
      fun _ _ _ hr => (Cache.recorded?_insertCold hr).imp_left And.right).countInsertion _

/-- A truthful warm start keeps the engine faithful. -/
theorem Faithful.loadAll (he : Faithful h e) {l : List SnapshotEntry}
    (truthful : ∀ s ∈ l, h s.site s.inputs = .ok s.post) : Faithful h (e.loadAll l).engine := by
  induction l generalizing e with
  | nil => exact he
  | cons s rest ih =>
    exact ih (he.load (truthful s List.mem_cons_self))
      fun t ht => truthful t (List.mem_cons_of_mem _ ht)

/-- A registration adds a memoizable site at most. -/
theorem Faithful.registered (he : Faithful h e) (id : SiteId) (slots : List Slot) :
    Faithful h (e.registered id slots) := by
  rcases registered_cases e id slots with heq | ⟨absent, readSet, heq⟩
  · rwa [heq]
  · rw [heq]
    refine ⟨he.recorded, fun t r hr => ?_, he.unviolated⟩
    rw [Std.ExtTreeMap.getElem?_insert] at hr
    split at hr
    · obtain rfl := Option.some.inj hr
      rfl
    · exact he.memoizable t r hr

end Engine

namespace Session

open Engine

variable {resolve : Resolver η} {h : SiteId → List UInt64 → Except ε PostState} {s : Session σ}

/-- Every honest operation keeps the engine of a session faithful. -/
theorem faithful_step (he : Faithful h s.engine) {op : Op η σ ε} (honest : op.Honest resolve h) :
    Faithful h (s.step resolve op).engine := by
  cases op with
  | register id slots => exact he.registered id slots
  | dispatch name input draw handler =>
    cases hsite : resolve s.engine name with
    | none => simpa [step, call?, hsite] using he
    | some site => simpa [step, call?, hsite] using (he.dispatch (honest _ site hsite)).1
  | exportSnapshot => exact he
  | warmStart snapshot => exact he.loadAll honest
  | invalidate id =>
    exact he.mono (fun _ _ _ hr => Cache.recorded?_of_invalidate hr) rfl rfl
  | clear =>
    refine he.mono (fun t g hit hr => ?_) rfl rfl
    cases Cache.recorded?_clear.symm.trans hr

/-- Honest operations keep the engine faithful. -/
theorem faithful_run (he : Faithful h s.engine) {ops : List (Op η σ ε)}
    (honest : ∀ op ∈ ops, op.Honest resolve h) : Faithful h (s.run resolve ops).engine := by
  induction ops generalizing s with
  | nil => exact he
  | cons op rest ih =>
    exact ih (faithful_step he (honest op List.mem_cons_self))
      fun op' hop' => honest op' (List.mem_cons_of_mem _ hop')

/-- What a caller is meant to see: no report, and the outcome of the handler. -/
theorem transparent_call (he : Faithful h s.engine) {op : Op η σ ε}
    (honest : op.Honest resolve h) {call : Call σ ε} (hcall : call ∈ s.call? resolve op) :
    call.answer.violation = none ∧
      (call.input.length = call.site.readSet.width →
        call.answer.result = (h call.site.id call.input).mapError .handler) := by
  obtain ⟨name, input, draw, handler, site, rfl, hsite, rfl⟩ := mem_call?_iff.mp hcall
  exact (he.dispatch (honest _ site hsite)).2

/-- Every call of theirs is answered as by the handler itself. -/
theorem transparent_calls (he : Faithful h s.engine) {ops : List (Op η σ ε)}
    (honest : ∀ op ∈ ops, op.Honest resolve h) {call : Call σ ε}
    (hcall : call ∈ s.calls resolve ops) :
    call.answer.violation = none ∧
      (call.input.length = call.site.readSet.width →
        call.answer.result = (h call.site.id call.input).mapError .handler) := by
  induction ops generalizing s with
  | nil => cases hcall
  | cons op rest ih =>
    have hop := honest op List.mem_cons_self
    rcases List.mem_append.mp hcall with hnow | hlater
    · exact transparent_call he hop (Option.mem_toList.mp hnow)
    · exact ih (faithful_step he hop) (fun op' hop' => honest op' (List.mem_cons_of_mem _ hop'))
        hlater

/-- In every session with the fixed handlers `h`, each dispatch of the right width returns exactly
what the handler of its site gives, nothing is ever reported, and no site is demoted. The settings,
the codec, the policy, the samples and the call sites that callers hold are arbitrary. -/
theorem transparent_of_honest (resolve : Resolver η) (config : Config) (codec : Codec)
    (policy : EvictionPolicy) (h : SiteId → List UInt64 → Except ε PostState) (world : σ)
    (ops : List (Op η σ ε)) (honest : ∀ op ∈ ops, op.Honest resolve h) :
    let start : Session σ := ⟨fresh config codec policy, world⟩
    (∀ call ∈ start.calls resolve ops, call.answer.violation = none ∧
      (call.input.length = call.site.readSet.width →
        call.answer.result = (h call.site.id call.input).mapError .handler)) ∧
    (∀ (id : SiteId) (r : Registration),
      (start.run resolve ops).engine.sites[id]? = some r → r.status = .memoizable) ∧
    (start.run resolve ops).engine.metrics.purityViolations = 0 := by
  have he := faithful_fresh (h := h) config codec policy
  have hend := faithful_run (s := ⟨_, world⟩) he honest
  exact ⟨fun _ hcall => transparent_calls he honest hcall, hend.memoizable, hend.unviolated⟩

/-- Adds seven to the first input value and fails on zero. -/
def addSeven (_ : SiteId) (input : List UInt64) : Except String PostState :=
  if input.headD 0 = 0 then .error "zero" else .ok { nextPc := input.headD 0 + 7 }

/-- A call site with one slot. -/
def single : CallSite where
  id := ⟨1⟩
  readSet := ⟨[⟨10⟩], List.cons_ne_nil _ _, List.pairwise_singleton _ _⟩

/-- A warm start and dispatches whose inputs share one fingerprint. -/
def crowded : List (Op CallSite Unit String) :=
  let handler : Handler Unit String := fun input world => (addSeven ⟨1⟩ input, world)
  [.register ⟨1⟩ [⟨10⟩], .warmStart ⟨[⟨⟨1⟩, 0, [5], [], 12, 4⟩]⟩,
    .dispatch single [5] 0 handler, .dispatch single [3] 0 handler, .dispatch single [0] 0 handler,
    .invalidate ⟨1⟩, .dispatch { single with status := .demoted } [3] 0 handler,
    .dispatch single [5] (-1) handler, .clear]

/-- The collisions and the warm start are not noticed. -/
theorem transparent_of_honest_crowded :
    let start : Session Unit := ⟨fresh {} (.constant ⟨0⟩) (.naming ⟨7⟩), ()⟩
    (∀ op ∈ crowded, op.Honest .any addSeven) ∧
    (∀ call ∈ start.calls .any crowded, call.answer.violation = none ∧
      (call.input.length = call.site.readSet.width →
        call.answer.result = (addSeven call.site.id call.input).mapError .handler)) ∧
    (∀ (id : SiteId) (r : Registration),
      (start.run .any crowded).engine.sites[id]? = some r → r.status = .memoizable) ∧
    (start.run .any crowded).engine.metrics.purityViolations = 0 := by
  have honest : ∀ op ∈ crowded, op.Honest .any addSeven := by
    simp [crowded, Op.Honest, single, addSeven, SnapshotEntry.post]
  exact ⟨honest,
    transparent_of_honest .any {} (.constant ⟨0⟩) (.naming ⟨7⟩) addSeven () crowded honest⟩

end Session

end CallMemo
