import CallMemo.Snapshot.Basic
import CallMemo.Json.Printer

/-!
# Snapshot text

A snapshot is written as pretty JSON, every member in declared order.
-/

namespace CallMemo

/-- A register write as pretty text at the given depth. -/
def RegWrite.pretty (depth : Nat) (w : RegWrite) : String :=
  Json.prettyObject depth
    [Json.member "reg" (toString w.reg.toNat), Json.member "val" (toString w.value.toNat)]

/-- A snapshot entry as pretty text at the given depth. -/
def SnapshotEntry.pretty (depth : Nat) (s : SnapshotEntry) : String :=
  Json.prettyObject depth
    [ Json.member "site" (toString s.site.val.toNat),
      Json.member "ctx_hash" (toString s.ctxHash.toNat),
      Json.member "inputs"
        (Json.prettyList (depth + 1) (s.inputs.map fun v => toString v.toNat)),
      Json.member "writes"
        (Json.prettyList (depth + 1) (s.writes.map (·.pretty (depth + 2)))),
      Json.member "next_pc" (toString s.nextPc.toNat),
      Json.member "hits" (toString s.hits.toNat) ]

/-- The text of a snapshot file. -/
def Snapshot.text (s : Snapshot) : String :=
  Json.prettyObject 0
    [Json.member "entries" (Json.prettyList 1 (s.entries.map (·.pretty 2)))]

end CallMemo
