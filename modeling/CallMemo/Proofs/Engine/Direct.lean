import CallMemo.Cache.Policies
import CallMemo.Proofs.Engine.Frame

/-!
# Direct calls

When every replay is checked, an engine cannot be told from an interpreter that has no cache: each
dispatch of the right width runs its handler once and returns what the run yields, whatever is
recorded, true or not, and whichever sites were demoted. The two are compared along whole sessions;
of the engine the comparison keeps only the declared slots and the state of the handlers.
-/

namespace CallMemo

variable {η σ ε : Type}

/-- A handler that also notes the inputs it is run for. -/
def Handler.logged (handler : Handler σ ε) : Handler (σ × List (List UInt64)) ε :=
  fun input (world, log) =>
    let (outcome, world) := handler input world
    (outcome, world, log ++ [input])

/-- The operation with a handler that notes its inputs. -/
def Engine.Op.logged : Engine.Op η σ ε → Engine.Op η (σ × List (List UInt64)) ε
  | .register id slots => .register id slots
  | .dispatch site input draw handler => .dispatch site input draw (Handler.logged handler)
  | .exportSnapshot => .exportSnapshot
  | .warmStart snapshot => .warmStart snapshot
  | .invalidate id => .invalidate id
  | .clear => .clear

/-- Callers hold handles of the engine itself, by the identity of the site, and any other call sites
whatever. -/
def Resolver.mixed : Resolver (SiteId ⊕ CallSite)
  | e, .inl id => e.callSite? id
  | _, .inr site => some site

/-- An interpreter without a cache. Of a call site it knows the declared slots. -/
structure Direct (σ : Type) where
  /-- The slots that each registered site declared. -/
  readSets : Std.ExtTreeMap SiteId ReadSet := ∅
  /-- The state of the handlers. -/
  world : σ

namespace Direct

/-- Checks the width of an input and calls the handler. -/
def call (id : SiteId) (readSet : ReadSet) (input : List UInt64) (handler : Handler σ ε)
    (world : σ) : Except (DispatchError ε) PostState × σ :=
  if input.length = readSet.width then
    let (outcome, world) := handler input world
    (outcome.mapError .handler, world)
  else (.error (.contextWidth id readSet.width input.length), world)

/-- The site that a name stands for, with its declared slots. -/
def site? (d : Direct σ) : SiteId ⊕ CallSite → Option (SiteId × ReadSet)
  | .inl id => d.readSets[id]?.map fun readSet => (id, readSet)
  | .inr site => some (site.id, site.readSet)

/-- What an operation returns, and the state of the handlers after it. Only dispatches return
anything. -/
def answer? (d : Direct σ) :
    Engine.Op (SiteId ⊕ CallSite) σ ε → Option (Except (DispatchError ε) PostState × σ)
  | .dispatch name input _ handler => (d.site? name).map fun (id, readSet) =>
    call id readSet input handler d.world
  | _ => none

/-- The inputs for which an operation runs a handler: that of a dispatch of the right width. -/
def runs (d : Direct σ) : Engine.Op (SiteId ⊕ CallSite) σ ε → List (List UInt64)
  | .dispatch name input _ _ =>
    if (d.site? name).any (input.length = ·.2.width) then [input] else []
  | _ => []

/-- The declared slots after an operation: an accepted declaration of a new site is kept. -/
def declared (d : Direct σ) :
    Engine.Op (SiteId ⊕ CallSite) σ ε → Std.ExtTreeMap SiteId ReadSet
  | .register id slots => match ReadSet.declare id slots with
    | .ok readSet => d.readSets.insertIfNew id readSet
    | .error _ => d.readSets
  | _ => d.readSets

/-- The interpreter after one operation. -/
def step (d : Direct σ) (op : Engine.Op (SiteId ⊕ CallSite) σ ε) : Direct σ where
  readSets := d.declared op
  world := ((d.answer? op).map (·.2)).getD d.world

/-- The interpreter after a list of operations. -/
def run (d : Direct σ) (ops : List (Engine.Op (SiteId ⊕ CallSite) σ ε)) : Direct σ :=
  ops.foldl step d

/-- What a list of operations returns, in order. -/
def results (d : Direct σ) :
    List (Engine.Op (SiteId ⊕ CallSite) σ ε) → List (Except (DispatchError ε) PostState)
  | [] => []
  | op :: rest => ((d.answer? op).map (·.1)).toList ++ (d.step op).results rest

/-- The inputs for which handlers run in a list of operations, in order. -/
def allRuns (d : Direct σ) :
    List (Engine.Op (SiteId ⊕ CallSite) σ ε) → List (List UInt64)
  | [] => []
  | op :: rest => d.runs op ++ (d.step op).allRuns rest

/-- The interpreter with a log beside the state of the handlers. -/
def withLog (d : Direct σ) (log : List (List UInt64)) : Direct (σ × List (List UInt64)) where
  readSets := d.readSets
  world := (d.world, log)

/-- The log does not hide a site. -/
theorem site?_withLog {d : Direct σ} {log : List (List UInt64)} {name : SiteId ⊕ CallSite} :
    (d.withLog log).site? name = d.site? name := by
  cases name with
  | inl id => rfl
  | inr site => rfl

/-- A logged handler adds its input to the log exactly when it runs. -/
theorem call_logged {id : SiteId} {readSet : ReadSet} {input : List UInt64}
    {handler : Handler σ ε} {world : σ} {log : List (List UInt64)} :
    (call id readSet input (Handler.logged handler) (world, log)).2 =
      ((call id readSet input handler world).2,
        log ++ if input.length = readSet.width then [input] else []) := by
  unfold call
  split
  · rfl
  · rw [List.append_nil]

/-- A logged operation leaves the same state behind, and its runs in the log. -/
theorem answer?_logged (d : Direct σ) (log : List (List UInt64))
    (op : Engine.Op (SiteId ⊕ CallSite) σ ε) :
    ((d.withLog log).answer? op.logged).map (·.2) =
      (d.answer? op).map fun answer => (answer.2, log ++ d.runs op) := by
  cases op with
  | dispatch name input draw handler =>
    rw [Engine.Op.logged, answer?, site?_withLog, answer?, runs]
    cases d.site? name with
    | none => rfl
    | some found =>
      obtain ⟨id, readSet⟩ := found
      simp only [Option.map_some, Option.any_some, decide_eq_true_eq, withLog, call_logged]
  | register | exportSnapshot | warmStart | invalidate | clear => rfl

/-- An operation that returns nothing runs no handler. -/
theorem runs_of_none {d : Direct σ} {op : Engine.Op (SiteId ⊕ CallSite) σ ε}
    (h : d.answer? op = none) : d.runs op = [] := by
  cases op with
  | dispatch name input draw handler =>
    rw [answer?, Option.map_eq_none_iff] at h
    simp [runs, h]
  | register | exportSnapshot | warmStart | invalidate | clear => rfl

/-- An operation with logged handlers adds the runs of the operation to the log. -/
theorem step_logged (d : Direct σ) (log : List (List UInt64))
    (op : Engine.Op (SiteId ⊕ CallSite) σ ε) :
    (d.withLog log).step op.logged = (d.step op).withLog (log ++ d.runs op) := by
  have hdeclared : (d.withLog log).declared op.logged = d.declared op := by
    cases op <;> rfl
  have hworld : (((d.withLog log).answer? op.logged).map (·.2)).getD (d.world, log) =
      ((d.step op).world, log ++ d.runs op) := by
    rw [answer?_logged, step]
    cases h : d.answer? op with
    | none => simp [runs_of_none h]
    | some answer => rfl
  exact (Direct.mk.injEq ..).mpr ⟨hdeclared, hworld⟩

/-- The log of a whole session lists all runs. -/
theorem run_logged (d : Direct σ) (log : List (List UInt64))
    (ops : List (Engine.Op (SiteId ⊕ CallSite) σ ε)) :
    (d.withLog log).run (ops.map Engine.Op.logged) =
      (d.run ops).withLog (log ++ d.allRuns ops) := by
  induction ops generalizing d log with
  | nil => rw [allRuns, List.append_nil]; rfl
  | cons op rest ih =>
    rw [allRuns, ← List.append_assoc]
    exact (congrArg (run · _) (step_logged d log op)).trans (ih (d.step op) (log ++ d.runs op))

end Direct

/-- A share of one checks every replay. -/
theorem isSampled_one (draw : UInt64) : isSampled .one draw = true := by
  have hnan : Binary64.one.isNaN = false := by decide
  have hzero : ¬ Binary64.one ≤ .zero := by decide
  have hone : Binary64.one ≤ .one := by decide
  simp [isSampled, hnan, hzero, hone]

namespace Engine

variable {e : Engine}

/-- If every replay is checked, a dispatch is a direct call. -/
theorem dispatch_eq_call (hrate : e.config.validationSampleRate = .one) (site : CallSite)
    (input : List UInt64) (draw : UInt64) (handler : Handler σ ε) (world : σ) :
    ((e.dispatch site input draw handler world).result,
        (e.dispatch site input draw handler world).world) =
      Direct.call site.id site.readSet input handler world ∧
    ((e.dispatch site input draw handler world).ran = true ↔
      input.length = site.readSet.width) := by
  have ran_call {purpose : Purpose} {e' : Engine} {outcome : Except ε PostState} {world' : σ}
      (consulted : Consulting e site input draw e' (.run purpose))
      (ho : handler input world = (outcome, world')) :
      (outcome.mapError DispatchError.handler, world') =
          Direct.call site.id site.readSet input handler world ∧
        (true = true ↔ input.length = site.readSet.width) := by
    rw [Direct.call, if_pos consulted.width_eq, ho]
    exact ⟨rfl, iff_of_true rfl consulted.width_eq⟩
  have hd := dispatch_dispatching e site input draw handler world
  generalize e.dispatch site input draw handler world = d at hd ⊢
  cases hd with
  | refused width =>
    rw [Direct.call, if_neg width]
    exact ⟨rfl, iff_of_false Bool.false_ne_true width⟩
  | replayed consulted =>
    cases consulted with
    | replay width memoizable present same trusted =>
      rw [hrate, isSampled_one] at trusted
      cases trusted
  | failed consulted outcome => exact ran_call consulted outcome
  | bypassed consulted outcome => exact ran_call consulted outcome
  | recorded consulted outcome => exact ran_call consulted outcome
  | confirmed consulted outcome => exact ran_call consulted outcome
  | contradicted consulted outcome differs => exact ran_call consulted outcome

end Engine

namespace Session

open Engine

variable {s : Session σ} {d : Direct σ}

/-- An engine that checks every replay, and an interpreter that knows the same sites, with the same
state of the handlers. -/
structure Mirrors (s : Session σ) (d : Direct σ) : Prop where
  /-- Every replay is checked. -/
  rate_eq : s.engine.config.validationSampleRate = .one
  /-- The registered sites declared the same slots. -/
  readSet?_eq : ∀ id, s.engine.readSet? id = d.readSets[id]?
  /-- The handlers are in the same state. -/
  world_eq : s.world = d.world

/-- A new engine mirrors an interpreter that knows no site. -/
theorem mirrors_fresh (config : Config) (hrate : config.validationSampleRate = .one)
    (codec : Codec) (policy : EvictionPolicy) (world : σ) :
    Mirrors ⟨fresh config codec policy, world⟩ ⟨∅, world⟩ where
  rate_eq := hrate
  readSet?_eq id := by simp [readSet?, fresh, withPolicy, withCodec, ofConfig]
  world_eq := rfl

/-- Names stand for sites with the same identity and the same slots. -/
theorem Mirrors.site?_eq (h : Mirrors s d) (name : SiteId ⊕ CallSite) :
    d.site? name = (Resolver.mixed s.engine name).map fun site => (site.id, site.readSet) := by
  cases name with
  | inl id =>
    rw [Direct.site?, ← h.readSet?_eq, readSet?, Resolver.mixed, callSite?, Option.map_map,
      Option.map_map]
    rfl
  | inr site => rfl

/-- An operation returns the same, and a dispatch runs its handler exactly if its width is right. -/
theorem Mirrors.call?_eq (h : Mirrors s d) (op : Op (SiteId ⊕ CallSite) σ ε) :
    (s.call? .mixed op).map (fun call => (call.answer.result, call.answer.world)) =
        d.answer? op ∧
      ∀ call ∈ s.call? .mixed op,
        (call.answer.ran = true ↔ call.input.length = call.site.readSet.width) := by
  cases op with
  | dispatch name input draw handler =>
    rw [Direct.answer?, h.site?_eq name]
    cases hsite : Resolver.mixed s.engine name with
    | none => simp [call?, hsite]
    | some site =>
      obtain ⟨heq, hran⟩ := dispatch_eq_call h.rate_eq site input draw handler s.world
      simp only [call?, hsite, Option.bind_eq_bind, Option.bind_some, Option.pure_def,
        Option.map_some, Option.mem_def, Option.some.injEq, forall_eq']
      exact ⟨heq.trans (by rw [h.world_eq]), hran⟩
  | register | exportSnapshot | warmStart | invalidate | clear => exact ⟨rfl, by simp [call?]⟩

/-- Every replay is checked from then on. -/
theorem Mirrors.rate_step (h : Mirrors s d) (op : Op (SiteId ⊕ CallSite) σ ε) :
    (s.step .mixed op).engine.config.validationSampleRate = .one := by
  rw [(sameSettings_step op).config_eq]
  exact h.rate_eq

/-- Both keep the same declarations. -/
theorem Mirrors.declared_eq (h : Mirrors s d) (op : Op (SiteId ⊕ CallSite) σ ε) (t : SiteId) :
    (s.step .mixed op).engine.readSet? t = (d.declared op)[t]? := by
  cases op with
  | register id slots =>
    have hid := h.readSet?_eq id
    have ht := h.readSet?_eq t
    simp only [Session.step, registered_eq, Direct.declared]
    cases ReadSet.declare id slots with
    | error err => exact ht
    | ok readSet =>
      simp only [Std.ExtTreeMap.getElem?_insertIfNew, Std.LawfulEqOrd.compare_eq_iff_eq, ← ht]
      cases hs : s.engine.sites[id]? with
      | none =>
        have habsent : id ∉ d.readSets := by
          rw [Std.ExtTreeMap.mem_iff_isSome_getElem?, ← hid, readSet?, hs, Option.map_none,
            Option.isSome_none]
          exact Bool.false_ne_true
        simp only [readSet?, Std.ExtTreeMap.getElem?_insert, Std.LawfulEqOrd.compare_eq_iff_eq,
          habsent, not_false_eq_true, and_true]
        split <;> rfl
      | some r =>
        have hpresent : id ∈ d.readSets := by
          rw [Std.ExtTreeMap.mem_iff_isSome_getElem?, ← hid, readSet?, hs, Option.map_some,
            Option.isSome_some]
        rw [if_neg fun hk => hk.2 hpresent]
  | dispatch name input draw handler =>
    refine Eq.trans ?_ (h.readSet?_eq t)
    cases hsite : Resolver.mixed s.engine name with
    | none => simp [Session.step, call?, hsite]
    | some site => simpa [Session.step, call?, hsite] using readSet?_dispatch ..
  | warmStart snapshot =>
    have hsites := sites_loadAll s.engine snapshot.entries
    exact (congrArg (fun sites => sites[t]?.map _) hsites).trans (h.readSet?_eq t)
  | exportSnapshot | invalidate | clear => exact h.readSet?_eq t

/-- The handlers stay in the same state. -/
theorem Mirrors.world_step (h : Mirrors s d) (op : Op (SiteId ⊕ CallSite) σ ε) :
    (s.step .mixed op).world = (d.step op).world := by
  rw [Direct.step, ← (h.call?_eq op).1, ← h.world_eq]
  cases op with
  | dispatch name input draw handler =>
    cases hcall : s.call? .mixed (.dispatch name input draw handler) with
    | none => simp [Session.step, hcall]
    | some call => simp [Session.step, hcall]
  | register | exportSnapshot | warmStart | invalidate | clear => rfl

/-- Every operation keeps the two alike. -/
theorem Mirrors.step (h : Mirrors s d) (op : Op (SiteId ⊕ CallSite) σ ε) :
    Mirrors (s.step .mixed op) (d.step op) :=
  ⟨h.rate_step op, h.declared_eq op, h.world_step op⟩

/-- The two go on alike in whole sessions. -/
theorem Mirrors.run (h : Mirrors s d) (ops : List (Op (SiteId ⊕ CallSite) σ ε)) :
    Mirrors (s.run .mixed ops) (d.run ops) := by
  induction ops generalizing s d with
  | nil => exact h
  | cons op rest ih => exact ih (h.step op)

/-- The dispatches of a session return what direct calls return, and run their handlers exactly if
their widths are right. -/
theorem Mirrors.calls_eq (h : Mirrors s d) (ops : List (Op (SiteId ⊕ CallSite) σ ε)) :
    (s.calls .mixed ops).map (·.answer.result) = d.results ops ∧
      ∀ call ∈ s.calls .mixed ops,
        (call.answer.ran = true ↔ call.input.length = call.site.readSet.width) := by
  induction ops generalizing s d with
  | nil => exact ⟨rfl, by simp [calls]⟩
  | cons op rest ih =>
    obtain ⟨hnow, hran⟩ := h.call?_eq op
    obtain ⟨hlater, hruns⟩ := ih (h.step op)
    constructor
    · rw [calls, List.map_append, hlater, Direct.results, ← hnow, Option.map_map]
      cases s.call? .mixed op <;> rfl
    · intro call hcall
      rcases List.mem_append.mp hcall with hcall | hcall
      · exact hran call (Option.mem_toList.mp hcall)
      · exact hruns call hcall

/-- If every replay is checked, a session cannot be told from one of direct calls: the results and
the state of the handlers are the same, a dispatch runs its handler exactly if its width is right,
and handlers that note their inputs note one for each such dispatch. The codec, the policy, the
bounds, the snapshots and the call sites that callers hold are arbitrary. -/
theorem eq_direct_of_checked (config : Config) (hrate : config.validationSampleRate = .one)
    (codec : Codec) (policy : EvictionPolicy) (world : σ)
    (ops : List (Op (SiteId ⊕ CallSite) σ ε)) :
    let start : Session σ := ⟨fresh config codec policy, world⟩
    let noting : Session (σ × List (List UInt64)) := ⟨fresh config codec policy, (world, [])⟩
    let direct : Direct σ := ⟨∅, world⟩
    (start.calls .mixed ops).map (·.answer.result) = direct.results ops ∧
    (start.run .mixed ops).world = (direct.run ops).world ∧
    (∀ call ∈ start.calls .mixed ops,
      (call.answer.ran = true ↔ call.input.length = call.site.readSet.width)) ∧
    (noting.run .mixed (ops.map Op.logged)).world =
      ((direct.run ops).world, direct.allRuns ops) := by
  intro start noting direct
  have h : Mirrors start direct := mirrors_fresh config hrate codec policy world
  have hnoting : Mirrors noting (direct.withLog []) :=
    mirrors_fresh config hrate codec policy (world, [])
  obtain ⟨hresults, hran⟩ := h.calls_eq ops
  refine ⟨hresults, (h.run ops).world_eq, hran, ?_⟩
  rw [(hnoting.run (ops.map Op.logged)).world_eq, Direct.run_logged, List.nil_append]
  rfl

/-- Counts its runs, fails on the input zero, and otherwise returns the count. -/
def counting : Handler UInt64 String := fun input count =>
  (if input.headD 0 = 0 then .error "zero" else .ok { nextPc := count }, count + 1)

/-- A handle of another engine, in which the site reads another slot and was not demoted. -/
def foreign : CallSite where
  id := ⟨1⟩
  readSet := ⟨[⟨11⟩], List.cons_ne_nil _ _, List.pairwise_singleton _ _⟩

/-- An untrue snapshot, an impure handler, a collision, a failure, a wrong width, and a dispatch of
a site that was demoted, by its identity and by a foreign handle. -/
def deceived : List (Op (SiteId ⊕ CallSite) UInt64 String) :=
  [.register ⟨1⟩ [⟨10⟩], .warmStart ⟨[⟨⟨1⟩, 0, [5], [], 12, 4⟩]⟩,
    .dispatch (.inl ⟨1⟩) [3] 0 counting, .dispatch (.inl ⟨1⟩) [3] 0 counting,
    .dispatch (.inl ⟨1⟩) [0] 0 counting, .dispatch (.inl ⟨1⟩) [5, 5] 0 counting,
    .dispatch (.inl ⟨1⟩) [5] 0 counting, .dispatch (.inr foreign) [5] 0 counting]

/-- The engine answers like the interpreter nevertheless. -/
theorem eq_direct_of_checked_deceived :
    let config : Config := { validationSampleRate := .one }
    let start : Session UInt64 := ⟨fresh config (.constant ⟨0⟩) (.naming ⟨7⟩), 0⟩
    let noting : Session (UInt64 × List (List UInt64)) :=
      ⟨fresh config (.constant ⟨0⟩) (.naming ⟨7⟩), (0, [])⟩
    let direct : Direct UInt64 := ⟨∅, 0⟩
    config.validationSampleRate = .one ∧
    (start.calls .mixed deceived).map (·.answer.result) = direct.results deceived ∧
    (start.run .mixed deceived).world = (direct.run deceived).world ∧
    (∀ call ∈ start.calls .mixed deceived,
      (call.answer.ran = true ↔ call.input.length = call.site.readSet.width)) ∧
    (noting.run .mixed (deceived.map Op.logged)).world =
      ((direct.run deceived).world, direct.allRuns deceived) :=
  ⟨rfl, eq_direct_of_checked { validationSampleRate := .one } rfl (.constant ⟨0⟩) (.naming ⟨7⟩) 0
    deceived⟩

end Session

end CallMemo
