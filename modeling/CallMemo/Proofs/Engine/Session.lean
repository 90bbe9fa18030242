import CallMemo.Proofs.Engine.Dispatching

/-!
# Sessions

A session is an engine together with the state that handlers work on. It goes on by the operations
of a caller, one after another: a dispatch is one operation, so the handlers of a session do not use
the engine itself. Its history lists the results recorded on the way: those of handler runs that
succeeded, and those of snapshot entries that were loaded.
-/

namespace CallMemo

/-- What a caller does with an engine. `η` is the type of the names that callers have for call
sites, `σ` the state of the handlers and `ε` their error type. -/
inductive Engine.Op (η σ ε : Type) where
  /-- Registers a dispatch point with the slots that its handler reads. -/
  | register (id : SiteId) (slots : List Slot)
  /-- Dispatches; `draw` is the word drawn for the sample. -/
  | dispatch (site : η) (input : List UInt64) (draw : UInt64) (handler : Handler σ ε)
  /-- Exports a snapshot. -/
  | exportSnapshot
  /-- Seeds the cache from a snapshot. -/
  | warmStart (snapshot : Snapshot)
  /-- Drops the cached entries of a site. -/
  | invalidate (id : SiteId)
  /-- Drops all cached entries. -/
  | clear

/-- How the names of call sites are resolved. -/
abbrev Resolver (η : Type) := Engine → η → Option CallSite

/-- Callers hold handles of the engine itself. A handle shows the status that its site has by the
time it is used. -/
def Resolver.own : Resolver SiteId := Engine.callSite?

/-- Callers hold any call site whatever, such as one that belongs to another engine. -/
def Resolver.any : Resolver CallSite := fun _ site => some site

/-- A result that was obtained for an input of a site. -/
structure Recording where
  /-- The call site. -/
  site : SiteId
  /-- The input values. -/
  input : List UInt64
  /-- The result. -/
  post : PostState
  deriving DecidableEq, Repr

namespace Engine

/-- An engine with nothing registered or recorded. -/
def fresh (config : Config) (codec : Codec) (policy : EvictionPolicy) : Engine :=
  ((ofConfig config).withCodec codec).withPolicy policy

/-- The engine after a registration, which changes nothing if it fails. -/
def registered (e : Engine) (id : SiteId) (slots : List Slot) : Engine :=
  match e.register id slots with
  | .ok r => r.engine
  | .error _ => e

/-- A registration adds a site that was absent, or changes nothing. -/
theorem registered_cases (e : Engine) (id : SiteId) (slots : List Slot) :
    e.registered id slots = e ∨
      e.sites[id]? = none ∧
        ∃ readSet, e.registered id slots = { e with sites := e.sites.insert id { readSet } } := by
  unfold registered register
  cases ReadSet.declare id slots with
  | error err => exact .inl rfl
  | ok readSet =>
    cases hs : e.sites[id]? with
    | none => exact .inr ⟨rfl, readSet, by simp [bind, Except.bind, pure, Except.pure]⟩
    | some r =>
      refine .inl ?_
      by_cases hr : r.readSet = readSet <;>
        simp [bind, Except.bind, pure, Except.pure, throw, throwThe, MonadExceptOf.throw, hr]

/-- The results of the snapshot entries that are loaded, in order. -/
def loadedResults (e : Engine) : List SnapshotEntry → List Recording
  | [] => []
  | s :: rest =>
    (if (e.load s).accepted then [⟨s.site, s.inputs, s.post⟩] else []) ++
      (e.load s).engine.loadedResults rest

end Engine

/-- An engine in use. -/
structure Session (σ : Type) where
  /-- The engine as it stands. -/
  engine : Engine
  /-- The state of the handlers. -/
  world : σ

/-- A dispatch that was made. -/
structure Call (σ ε : Type) where
  /-- The call site. -/
  site : CallSite
  /-- The input values. -/
  input : List UInt64
  /-- What became of it. -/
  answer : Engine.Dispatched σ ε

/-- The result that a handler run yielded, if the handler ran and succeeded. -/
def Call.recording? {σ ε : Type} (call : Call σ ε) : Option Recording :=
  match call.answer.ran, call.answer.result with
  | true, .ok post => some ⟨call.site.id, call.input, post⟩
  | _, _ => none

namespace Session

variable {η σ ε : Type}

/-- The dispatch that an operation makes. None is made under a name that stands for no call
site. -/
def call? (resolve : Resolver η) (s : Session σ) : Engine.Op η σ ε → Option (Call σ ε)
  | .dispatch name input draw handler => do
    let site ← resolve s.engine name
    return { site, input, answer := s.engine.dispatch site input draw handler s.world }
  | _ => none

/-- Calls are made by dispatches under names that stand for a call site. -/
theorem mem_call?_iff {resolve : Resolver η} {s : Session σ} {op : Engine.Op η σ ε}
    {call : Call σ ε} :
    call ∈ s.call? resolve op ↔ ∃ name input draw handler site,
      op = .dispatch name input draw handler ∧ resolve s.engine name = some site ∧
        call = ⟨site, input, s.engine.dispatch site input draw handler s.world⟩ := by
  cases op with
  | dispatch name input draw handler =>
    simp only [call?, Option.bind_eq_bind, Option.pure_def, Option.mem_def,
      Option.bind_eq_some_iff, Option.some.injEq, Engine.Op.dispatch.injEq]
    constructor
    · rintro ⟨site, hsite, rfl⟩
      exact ⟨name, input, draw, handler, site, ⟨rfl, rfl, rfl, rfl⟩, hsite, rfl⟩
    · rintro ⟨_, _, _, _, site, ⟨rfl, rfl, rfl, rfl⟩, hsite, rfl⟩
      exact ⟨site, hsite, rfl⟩
  | _ => simp [call?]

/-- The session after one operation. -/
def step (resolve : Resolver η) (s : Session σ) : Engine.Op η σ ε → Session σ
  | .register id slots => { s with engine := s.engine.registered id slots }
  | .dispatch name input draw handler =>
    match s.call? resolve (.dispatch name input draw handler) with
    | none => s
    | some call => { engine := call.answer.engine, world := call.answer.world }
  | .exportSnapshot => s
  | .warmStart snapshot => { s with engine := (s.engine.warmStart snapshot).engine }
  | .invalidate id =>
    { s with engine := { s.engine with cache := (s.engine.cache.invalidate id).2 } }
  | .clear => { s with engine := { s.engine with cache := s.engine.cache.clear } }

/-- The session after a list of operations. -/
def run (resolve : Resolver η) (s : Session σ) (ops : List (Engine.Op η σ ε)) : Session σ :=
  ops.foldl (step resolve) s

/-- The last operation is a step of its own. -/
theorem run_snoc {resolve : Resolver η} {s : Session σ} (ops : List (Engine.Op η σ ε))
    (op : Engine.Op η σ ε) :
    s.run resolve (ops ++ [op]) = (s.run resolve ops).step resolve op := by
  rw [run, List.foldl_append]
  rfl

/-- The dispatches made in a list of operations, in order. -/
def calls (resolve : Resolver η) (s : Session σ) : List (Engine.Op η σ ε) → List (Call σ ε)
  | [] => []
  | op :: rest => (s.call? resolve op).toList ++ (s.step resolve op).calls resolve rest

/-- The results that one operation yields. -/
def results (resolve : Resolver η) (s : Session σ) : Engine.Op η σ ε → List Recording
  | .warmStart snapshot => s.engine.loadedResults snapshot.entries
  | op => ((s.call? resolve op).bind Call.recording?).toList

/-- All results obtained in a list of operations, in order. -/
def history (resolve : Resolver η) (s : Session σ) : List (Engine.Op η σ ε) → List Recording
  | [] => []
  | op :: rest => s.results resolve op ++ (s.step resolve op).history resolve rest

end Session

/-- The last result that was obtained for an input of a site. -/
def latest? (history : List Recording) (site : SiteId) (input : List UInt64) : Option PostState :=
  (history.reverse.find? fun r => r.site = site ∧ r.input = input).map (·.post)

end CallMemo
