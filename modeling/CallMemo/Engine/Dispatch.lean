import CallMemo.Engine.Basic

/-!
# Dispatch

A dispatch consults the cache first. Unless the width of the input is wrong or a trusted result is
replayed, the handler runs and the engine settles its outcome: it records a new result, or compares
a fresh result with a replay, and a contradiction demotes the site. The two halves are separate, so
that a handler may use the engine itself in between.
-/

namespace CallMemo

/-- What the run of a handler is for. -/
inductive Purpose where
  /-- The site is demoted and only the result counts. -/
  | bypass
  /-- The result is recorded under the fingerprint. -/
  | record (fp : Fingerprint)
  /-- The result is compared with the recorded one. -/
  | recheck (fp : Fingerprint) (cached : PostState)
  deriving DecidableEq, Repr

/-- How a dispatch goes on once the cache was consulted. -/
inductive Decision where
  /-- The input has the wrong width. -/
  | refuse (expected found : Nat)
  /-- The recorded result is returned. -/
  | replay (post : PostState)
  /-- The handler runs. -/
  | run (purpose : Purpose)
  deriving DecidableEq, Repr

namespace Engine

/-- The first half of a dispatch. -/
structure Consultation where
  /-- The engine afterwards. -/
  engine : Engine
  /-- How the dispatch goes on. -/
  decision : Decision
  /-- What happened on the way. -/
  events : List Log.Event := []

/-- Consults the cache for a calling context. A replay is checked if the sample says so; `draw` is
a uniformly drawn word. -/
def consult (e : Engine) (site : CallSite) (input : List UInt64) (draw : UInt64) : Consultation :=
  if input.length ≠ site.readSet.width then
    { engine := e, decision := .refuse site.readSet.width input.length }
  else if !site.isMemoizable then { engine := e.count .bypass, decision := .run .bypass }
  else
    let fp := e.codec.encode site.id input
    match e.cache.lookup site.id fp with
    | (none, _) => { engine := e.count .miss, decision := .run (.record fp) }
    | (some hit, cache) =>
      let e := { e with cache }
      if !hit.isFor input then
        { engine := e.count .collision, decision := .run (.record fp),
          events := [.collision site.id fp] }
      else
        { engine := e.count .hit
          decision :=
            if isSampled e.config.validationSampleRate draw then .run (.recheck fp hit.post)
            else .replay hit.post }

/-- The second half of a dispatch; `ε` is the error type of the handler. -/
structure Settlement (ε : Type) where
  /-- The engine afterwards. -/
  engine : Engine
  /-- What the caller gets. -/
  result : Except (DispatchError ε) PostState
  /-- The contradiction that demotes the site, if there is one. -/
  violation : Option Violation := none
  /-- What happened on the way. -/
  events : List Log.Event := []

/-- Records the result of a handler. -/
def record (e : Engine) (id : SiteId) (fp : Fingerprint) (input : List UInt64)
    (post : PostState) : Engine × List Log.Event :=
  let insertion := e.cache.insert id fp input post
  ({ e with cache := insertion.cache }.countInsertion insertion.outcome, insertion.events)

/-- Counts a contradiction and drops the entries of the site if the settings ask for it. -/
def contradict (e : Engine) (v : Violation) : Engine × List Log.Event :=
  let (dropped, cache) :=
    if e.config.invalidateOnDemotion then e.cache.invalidate v.site else (0, e.cache)
  ({ e.count .violation with cache }, [.demoted v dropped])

/-- Settles the outcome of a handler. `site` is the call site as it stands after the run: a site
that was demoted meanwhile records nothing and is not demoted again. -/
def settle {ε : Type} (e : Engine) (site : CallSite) (input : List UInt64) (purpose : Purpose)
    (outcome : Except ε PostState) : Settlement ε :=
  match outcome with
  | .error err => { engine := e.count .failure, result := .error (.handler err) }
  | .ok fresh =>
    match purpose with
    | .bypass => { engine := e, result := .ok fresh }
    | .record fp =>
      if site.isMemoizable then
        let (engine, events) := e.record site.id fp input fresh
        { engine, result := .ok fresh, events }
      else { engine := e, result := .ok fresh }
    | .recheck fp cached =>
      if fresh = cached then
        let (_, cache) := e.cache.confirm site.id fp
        { engine := { e.count (.validation true) with cache }, result := .ok fresh }
      else if site.isMemoizable then
        let v : Violation := { site := site.id, fingerprint := fp, cached, observed := fresh }
        let (engine, events) := (e.count (.validation false)).contradict v
        { engine, result := .ok fresh, violation := some v, events }
      else { engine := e.count (.validation false), result := .ok fresh }

/-- A complete dispatch; `σ` is the state that handlers work on and `ε` their error type. -/
structure Dispatched (σ ε : Type) where
  /-- The engine afterwards. -/
  engine : Engine
  /-- The state of the handlers afterwards. -/
  world : σ
  /-- What the caller gets. -/
  result : Except (DispatchError ε) PostState
  /-- Whether the handler ran. -/
  ran : Bool
  /-- The contradiction that demoted the site, if there is one. -/
  violation : Option Violation := none
  /-- What happened on the way. -/
  events : List Log.Event := []

/-- Runs `handler` for `input`, or answers from the cache when that is known to be safe. -/
def dispatch {σ ε : Type} (e : Engine) (site : CallSite) (input : List UInt64) (draw : UInt64)
    (handler : List UInt64 → σ → Except ε PostState × σ) (world : σ) : Dispatched σ ε :=
  let c := e.consult site input draw
  match c.decision with
  | .refuse expected found =>
    { engine := c.engine, world, result := .error (.contextWidth site.id expected found),
      ran := false, events := c.events }
  | .replay post =>
    { engine := c.engine, world, result := .ok post, ran := false, events := c.events }
  | .run purpose =>
    let (outcome, world) := handler input world
    let s := c.engine.settle site input purpose outcome
    { engine := if s.violation.isSome then s.engine.demote site.id else s.engine
      world, result := s.result, ran := true, violation := s.violation,
      events := c.events ++ s.events }

end Engine

end CallMemo
