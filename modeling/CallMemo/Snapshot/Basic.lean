import CallMemo.PostState.Basic
import CallMemo.Identity

/-!
# Snapshots

The contents of a cache as data, one entry per recorded calling context. A tracer writes snapshots
and a later run starts from them.
-/

namespace CallMemo

/-- A recorded calling context. -/
structure SnapshotEntry where
  /-- The call site. -/
  site : SiteId
  /-- The fingerprint under the codec of the writer; readers compute their own. -/
  ctxHash : UInt64
  /-- The input values. -/
  inputs : List UInt64
  /-- The register writes of the recorded result. -/
  writes : List RegWrite
  /-- The program counter of the recorded result. -/
  nextPc : UInt64
  /-- How often the entry was used. -/
  hits : UInt64 := 0
  deriving DecidableEq, Repr

/-- The recorded result. -/
def SnapshotEntry.post (s : SnapshotEntry) : PostState := ⟨s.writes, s.nextPc⟩

/-- The contents of a cache. -/
structure Snapshot where
  /-- The entries in order. -/
  entries : List SnapshotEntry := []
  deriving DecidableEq, Repr

end CallMemo
