import CallMemo.Error

/-!
# Settings

The settings of an engine, their defaults and the check that accepts them.
-/

namespace CallMemo

/-- Bounds on the number of cached entries. -/
structure Limits where
  /-- The most entries that one site may hold. -/
  perSite : UInt64
  /-- The most entries that all sites together may hold. -/
  total : UInt64
  deriving DecidableEq, Repr

/-- The settings of an engine. -/
structure Config where
  /-- The most cached contexts per call site. -/
  maxEntriesPerSite : UInt64 := 256
  /-- The most cached contexts in all. -/
  maxTotalEntries : UInt64 := 65536
  /-- The share of replays that are checked against the handler, one in a hundred by default. -/
  validationSampleRate : Binary64 := ⟨0x3F847AE147AE147B⟩
  /-- Whether the entries of a demoted site are dropped at once. -/
  invalidateOnDemotion : Bool := true
  deriving DecidableEq, Repr

namespace Config

/-- Accepts settings with room for an entry and a rate between zero and one. -/
def validate (c : Config) : Except ConfigurationError Unit :=
  if c.maxEntriesPerSite = 0 then .error .zeroSiteCapacity
  else if c.maxTotalEntries = 0 then .error .zeroTotalCapacity
  else if Binary64.zero ≤ c.validationSampleRate ∧ c.validationSampleRate ≤ .one then .ok ()
  else .error (.sampleRate c.validationSampleRate)

/-- The settings themselves if they are accepted. -/
def checked (c : Config) : Except ConfigurationError Config := c.validate.map fun _ => c

/-- The bounds for the cache. -/
def limits (c : Config) : Limits where
  perSite := c.maxEntriesPerSite
  total := c.maxTotalEntries

/-- The settings in one line. -/
def listing (c : Config) : String :=
  s!"MemoConfig \x7b max_entries_per_site: {c.maxEntriesPerSite}" ++
    s!", max_total_entries: {c.maxTotalEntries}" ++
    ", validation_sample_rate: " ++ Layout.listing.render c.validationSampleRate ++
    s!", invalidate_on_demotion: {c.invalidateOnDemotion} \x7d"

end Config

end CallMemo
