import CallMemo.CallSite
import CallMemo.Codec
import CallMemo.Cache.Insert
import CallMemo.Metrics

/-!
# The memoization engine

An engine holds the settings, the registered call sites, the cache and the counters. A site is
registered once with its read set; registering it again with the same read set gives the same site.
-/

namespace CallMemo

/-- A memoizing front end for indirect handler calls. -/
structure Engine where
  /-- The settings. -/
  config : Config
  /-- The assignment of fingerprints. -/
  codec : Codec := .mixing
  /-- The registered call sites. -/
  sites : Std.ExtTreeMap SiteId Registration := ∅
  /-- The recorded results. -/
  cache : Cache
  /-- The counters. -/
  metrics : Metrics := {}

namespace Engine

/-- An engine with the given settings and nothing registered or recorded. -/
def ofConfig (config : Config) : Engine where
  config := config
  cache := { limits := config.limits }

/-- An engine with the given settings, if they are accepted. -/
def new (config : Config) : Except ConfigurationError Engine :=
  config.checked.map ofConfig

/-- The engine with another codec. -/
def withCodec (e : Engine) (codec : Codec) : Engine := { e with codec }

/-- The engine with another eviction policy and an empty cache. -/
def withPolicy (e : Engine) (policy : EvictionPolicy) : Engine :=
  { e with cache := { limits := e.config.limits, policy } }

/-- A registered call site. -/
def callSite? (e : Engine) (id : SiteId) : Option CallSite :=
  e.sites[id]?.map fun r => { r with id }

/-- All registered call sites by ascending identity. -/
def callSites (e : Engine) : List CallSite :=
  e.sites.toList.map fun (id, r) => { r with id }

/-- The result of a registration. -/
structure Registered where
  /-- The engine afterwards. -/
  engine : Engine
  /-- The registered site. -/
  site : CallSite
  /-- What happened on the way. -/
  events : List Log.Event := []

/-- Registers a dispatch point with the slots that its handler reads. -/
def register (e : Engine) (id : SiteId) (slots : List Slot) :
    Except ConfigurationError Registered := do
  let readSet ← ReadSet.declare id slots
  match e.sites[id]? with
  | some r =>
    if r.readSet = readSet then return { engine := e, site := { r with id } }
    else throw (.readSetConflict id)
  | none =>
    return {
      engine := { e with sites := e.sites.insert id { readSet } }
      site := { readSet, id }
      events := [.registered id readSet.width] }

/-- Marks a site as demoted for good. -/
def demote (e : Engine) (id : SiteId) : Engine :=
  { e with sites := e.sites.modify id fun r => { r with status := .demoted } }

/-- Counts a happening. -/
def count (e : Engine) (h : Metrics.Happening) : Engine :=
  { e with metrics := e.metrics.record h }

/-- Counts what became of an insertion. -/
def countInsertion (e : Engine) : InsertOutcome → Engine
  | .inserted | .replaced => e.count (.insert false)
  | .evicted .. => e.count (.insert true)
  | .skipped => e.count .skippedInsert

/-- The engine in one line. -/
def listing (e : Engine) : String :=
  let rate := Layout.listing.render e.config.validationSampleRate
  s!"MemoEngine \x7b config: {e.config.listing}, sites: {e.sites.size}" ++
    s!", cache: {e.cache.listing}" ++
    s!", validator: PurityValidator \x7b sample_rate: {rate} \x7d, .. \x7d"

end Engine

end CallMemo
