import CallMemo.Bench.Worker

/-!
# The report of a bench run

The sums of the workers, what the cache did, how full it is, what the purity checks found, and how
each call site stands in the end.
-/

namespace CallMemo.Bench

/-- The word for a call site that may be served from the cache, or may not. -/
def siteWord (memoizable : Bool) : String := if memoizable then "memoizable" else "unsafe"

/-- The lines of the report; `sums` are the sums of the workers in order. -/
def report (e : Engine) (table : List Routine) (sums : List UInt64) : List String :=
  let m := e.metrics
  let stats := e.cache.stats
  let hitRate := (m.hitRate.mul .hundred).fixed 2
  let usage := stats.usagePercent.fixed 2
  sums.mapIdx (fun i sum => s!"worker {i}: acc = {sum}") ++
    [ s!"cache {m.lookups} lookups, {m.hits} hits ({hitRate}%), {m.misses} misses, " ++
        s!"{m.collisions} collisions",
      s!"store {stats.total} entries across {stats.sites} sites ({usage}% of budget), " ++
        s!"{m.evictions} evictions",
      s!"purity {m.validations} re-checks, {m.confirmations} confirmed, " ++
        s!"{m.purityViolations} violations, {m.bypassedCalls} bypassed calls" ] ++
    table.map fun r =>
      s!"  site {r.site} {siteWord ((e.callSite? r.site).any (·.isMemoizable))}"

end CallMemo.Bench
