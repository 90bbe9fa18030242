import CallMemo.Engine.Basic
import CallMemo.Snapshot.Basic

/-!
# Export and warm start

An engine exports the entries of its memoizable sites as a snapshot, and accepts the entries of a
snapshot that fit a registered site. Accepted entries start out unused; their fingerprints are
computed anew.
-/

namespace CallMemo

/-- A cached entry as a snapshot entry. -/
def SnapshotEntry.ofEntry (site : SiteId) (fp : Fingerprint) (e : Entry) : SnapshotEntry where
  site := site
  ctxHash := fp.val
  inputs := e.rawInput
  writes := e.post.writes
  nextPc := e.post.nextPc
  hits := e.usage.hits

namespace Engine

/-- All cached entries of the sites that are still memoizable. -/
def exportSnapshot (e : Engine) : Snapshot where
  entries := (e.callSites.filter (·.isMemoizable)).flatMap fun site =>
    (e.cache.entries site.id).map fun (fp, entry) => .ofEntry site.id fp entry

/-- The fate of one snapshot entry. -/
structure Loading where
  /-- The engine afterwards. -/
  engine : Engine
  /-- Whether the entry is in the cache now. -/
  accepted : Bool
  /-- What happened on the way. -/
  events : List Log.Event := []

/-- Offers one snapshot entry to the cache. -/
def load (e : Engine) (s : SnapshotEntry) : Loading :=
  match e.sites[s.site]? with
  | none => { engine := e, accepted := false, events := [.unknownSite s.site] }
  | some r =>
    if !r.isMemoizable || s.inputs.length != r.readSet.width then
      { engine := e, accepted := false, events := [.unfit s.site s.inputs.length] }
    else
      let fp := e.codec.encode s.site s.inputs
      let insertion := e.cache.insertCold s.site fp s.inputs s.post s.hits
      { engine := { e with cache := insertion.cache }.countInsertion insertion.outcome
        accepted := insertion.outcome != .skipped
        events := insertion.events }

/-- The outcome of a warm start. -/
structure WarmStart where
  /-- The engine afterwards. -/
  engine : Engine
  /-- The number of entries accepted. -/
  loaded : Nat := 0
  /-- The number of entries left out. -/
  skipped : Nat := 0
  /-- What happened on the way. -/
  events : List Log.Event := []

/-- Offers snapshot entries to the cache one after another. -/
def loadAll (e : Engine) : List SnapshotEntry → WarmStart
  | [] => { engine := e }
  | s :: rest =>
    let first := e.load s
    let others := first.engine.loadAll rest
    { engine := others.engine
      loaded := others.loaded + if first.accepted then 1 else 0
      skipped := others.skipped + if first.accepted then 0 else 1
      events := first.events ++ others.events }

/-- Seeds the cache from a snapshot. -/
def warmStart (e : Engine) (snapshot : Snapshot) : WarmStart :=
  let w := e.loadAll snapshot.entries
  { w with events := w.events ++ [.warmStarted w.loaded w.skipped] }

end Engine

end CallMemo
