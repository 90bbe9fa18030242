import CallMemo.Engine.Dispatch

/-!
# The shared engine

One engine for a whole process. It is configured at most once and before its first use; the first
use without a configuration creates it with the default settings.
-/

namespace CallMemo

/-- The shared engine, absent until it is configured or used. -/
abbrev SharedEngine := Option Engine

namespace SharedEngine

/-- The engine as it is, or as first use creates it. -/
def engine (s : SharedEngine) : Engine := s.getD (.ofConfig {})

/-- Creates the engine with the given settings; it can be created only once. -/
def configure (s : SharedEngine) (config : Config) : Except ConfigurationError SharedEngine := do
  config.validate
  match s with
  | some _ => throw .alreadyConfigured
  | none => return some (.ofConfig config)

/-- Registers a dispatch point with the shared engine. -/
def register (s : SharedEngine) (id : SiteId) (slots : List Slot) :
    Except ConfigurationError Engine.Registered :=
  s.engine.register id slots

/-- Dispatches through the shared engine. -/
def dispatch {σ ε : Type} (s : SharedEngine) (site : CallSite) (input : List UInt64)
    (draw : UInt64) (handler : List UInt64 → σ → Except ε PostState × σ) (world : σ) :
    Engine.Dispatched σ ε :=
  s.engine.dispatch site input draw handler world

end SharedEngine

end CallMemo
