import CallMemo.Binary64.Rounding

/-!
# Metrics

Counters for everything the engine does on behalf of its callers. They count modulo `2 ^ 64`.
-/

namespace CallMemo

/-- The counters of an engine. -/
structure Metrics where
  /-- Dispatches that consulted the cache. -/
  lookups : UInt64 := 0
  /-- Lookups that found the recorded input. -/
  hits : UInt64 := 0
  /-- Lookups that found nothing. -/
  misses : UInt64 := 0
  /-- Lookups that found another input under the same fingerprint. -/
  collisions : UInt64 := 0
  /-- Results recorded. -/
  inserts : UInt64 := 0
  /-- Results recorded in place of another entry. -/
  evictions : UInt64 := 0
  /-- Results that found no room. -/
  skippedInserts : UInt64 := 0
  /-- Replays checked against a fresh run. -/
  validations : UInt64 := 0
  /-- Checks that agreed. -/
  confirmations : UInt64 := 0
  /-- Sites demoted. -/
  purityViolations : UInt64 := 0
  /-- Dispatches of demoted sites. -/
  bypassedCalls : UInt64 := 0
  /-- Handler runs that failed. -/
  handlerFailures : UInt64 := 0
  deriving DecidableEq, Repr

namespace Metrics

/-- A happening that is counted. -/
inductive Happening where
  /-- A lookup found the recorded input. -/
  | hit
  /-- A lookup found nothing. -/
  | miss
  /-- A lookup found another input. -/
  | collision
  /-- A result was recorded, perhaps in place of another entry. -/
  | insert (evicted : Bool)
  /-- A result found no room. -/
  | skippedInsert
  /-- A replay was checked and perhaps confirmed. -/
  | validation (confirmed : Bool)
  /-- A site was demoted. -/
  | violation
  /-- A demoted site was dispatched. -/
  | bypass
  /-- A handler failed. -/
  | failure
  deriving DecidableEq, Repr

/-- Counts a happening. -/
def record (m : Metrics) : Happening → Metrics
  | .hit => { m with lookups := m.lookups + 1, hits := m.hits + 1 }
  | .miss => { m with lookups := m.lookups + 1, misses := m.misses + 1 }
  | .collision => { m with lookups := m.lookups + 1, collisions := m.collisions + 1 }
  | .insert false => { m with inserts := m.inserts + 1 }
  | .insert true => { m with inserts := m.inserts + 1, evictions := m.evictions + 1 }
  | .skippedInsert => { m with skippedInserts := m.skippedInserts + 1 }
  | .validation false => { m with validations := m.validations + 1 }
  | .validation true =>
    { m with validations := m.validations + 1, confirmations := m.confirmations + 1 }
  | .violation => { m with purityViolations := m.purityViolations + 1 }
  | .bypass => { m with bypassedCalls := m.bypassedCalls + 1 }
  | .failure => { m with handlerFailures := m.handlerFailures + 1 }

/-- The share of lookups that were hits, zero before the first lookup. -/
def hitRate (m : Metrics) : Binary64 :=
  if m.lookups = 0 then .zero
  else (Binary64.ofNat m.hits.toNat).div (.ofNat m.lookups.toNat)

/-- The counters in their customary order. -/
def toList (m : Metrics) : List UInt64 :=
  [m.lookups, m.hits, m.misses, m.collisions, m.inserts, m.evictions, m.skippedInserts,
    m.validations, m.confirmations, m.purityViolations, m.bypassedCalls, m.handlerFailures]

end Metrics

end CallMemo
