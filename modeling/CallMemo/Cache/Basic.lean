import CallMemo.Cache.Policy
import CallMemo.Config.Basic

/-!
# The post-state cache

A bounded store from fingerprints to entries, with one shard per call site. A clock ticks on every
use and every insertion; reading zero is left to restored entries. The number of entries in all
shards is kept beside them.
-/

namespace CallMemo

/-- A bounded store of recorded results. -/
structure Cache where
  /-- The bounds on the number of entries. -/
  limits : Limits
  /-- The choice of victims. -/
  policy : EvictionPolicy := .leastRecentlyUsed
  /-- The entries of each site that was ever given room. -/
  shards : Std.ExtTreeMap SiteId Shard := ∅
  /-- The number of entries in all, modulo `2 ^ 64`. -/
  total : UInt64 := 0
  /-- The next reading of the clock. -/
  clock : UInt64 := 1

namespace Cache

/-- The entries of a site, none if it has no shard. -/
def shard (c : Cache) (site : SiteId) : Shard := c.shards.getD site ∅

/-- Puts a shard in place of the one a site has. -/
def setShard (c : Cache) (site : SiteId) (shard : Shard) : Cache :=
  { c with shards := c.shards.insert site shard }

/-- The entry of a calling context. -/
def peek? (c : Cache) (site : SiteId) (fp : Fingerprint) : Option Entry := (c.shard site)[fp]?

/-- Looks a calling context up and marks its entry as used. -/
def lookup (c : Cache) (site : SiteId) (fp : Fingerprint) : Option Hit × Cache :=
  match c.peek? site fp with
  | none => (none, c)
  | some e =>
    let used := c.setShard site ((c.shard site).insert fp (e.hit c.clock))
    (some e.toHit, { used with clock := c.clock + 1 })

/-- Raises the confidence of an entry whose check agreed; tells whether there is one. -/
def confirm (c : Cache) (site : SiteId) (fp : Fingerprint) : Bool × Cache :=
  match c.peek? site fp with
  | none => (false, c)
  | some e => (true, c.setShard site ((c.shard site).insert fp e.confirm))

/-- Drops the entries of a site and tells how many there were. -/
def invalidate (c : Cache) (site : SiteId) : Nat × Cache :=
  match c.shards[site]? with
  | none => (0, c)
  | some shard =>
    (shard.size, { c.setShard site ∅ with total := c.total - shard.size.toUInt64 })

/-- Drops all entries and keeps the shards. -/
def clear (c : Cache) : Cache :=
  let dropped := c.shards.foldl (fun n _ shard => n + shard.size) 0
  { c with shards := c.shards.map fun _ _ => ∅, total := c.total - dropped.toUInt64 }

/-- Whether a calling context has an entry. -/
def contains (c : Cache) (site : SiteId) (fp : Fingerprint) : Bool := (c.shard site).contains fp

/-- The number of entries of a site. -/
def entryCount (c : Cache) (site : SiteId) : Nat := (c.shard site).size

/-- The confidence of an entry. -/
def confidence? (c : Cache) (site : SiteId) (fp : Fingerprint) : Option UInt32 :=
  (c.peek? site fp).map (·.usage.confidence)

/-- The sites that have a shard, in ascending order. -/
def sites (c : Cache) : List SiteId := c.shards.keys

/-- The entries of a site by ascending fingerprint. -/
def entries (c : Cache) (site : SiteId) : List (Fingerprint × Entry) := (c.shard site).toList

/-- How full a cache is. -/
structure Stats where
  /-- The number of shards. -/
  sites : Nat
  /-- The number of entries. -/
  total : UInt64
  /-- The bounds. -/
  limits : Limits
  /-- The entries as a percentage of the bound in all. -/
  usagePercent : Binary64
  deriving DecidableEq, Repr

/-- How full the cache is. -/
def stats (c : Cache) : Stats where
  sites := c.shards.size
  total := c.total
  limits := c.limits
  usagePercent :=
    ((Binary64.ofNat c.total.toNat).div (.ofNat c.limits.total.toNat)).mul .hundred

/-- The cache in one line. -/
def listing (c : Cache) : String :=
  s!"PostStateCache \x7b limits: CacheLimits \x7b max_per_site: {c.limits.perSite}, " ++
    s!"max_total: {c.limits.total} \x7d, total: {c.total}, .. \x7d"

end Cache

end CallMemo
