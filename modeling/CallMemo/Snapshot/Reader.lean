import CallMemo.Snapshot.Basic
import CallMemo.PostState.Document

/-!
# Reading snapshots

The records of a snapshot file. The hits of an entry may be left out and count as zero; every other
member is required, in any order.
-/

namespace CallMemo

open Json (Fault Record)

/-- A snapshot entry whose members are being read. -/
structure SnapshotEntry.Draft where
  /-- The call site, once read. -/
  site : Option UInt64 := none
  /-- The fingerprint, once read. -/
  ctxHash : Option UInt64 := none
  /-- The input values, once read. -/
  inputs : Option (List UInt64) := none
  /-- The writes, once read. -/
  writes : Option (List RegWrite) := none
  /-- The next program counter, once read. -/
  nextPc : Option UInt64 := none
  /-- The hits, once read. -/
  hits : Option UInt64 := none

/-- The record of a snapshot entry. -/
def SnapshotEntry.record : Record Draft SnapshotEntry where
  blank := {}
  members :=
    [ ⟨"site", (·.site.isSome), fun d => do return { d with site := some (← Json.Reader.uint64) }⟩,
      ⟨"ctx_hash", (·.ctxHash.isSome),
        fun d => do return { d with ctxHash := some (← Json.Reader.uint64) }⟩,
      ⟨"inputs", (·.inputs.isSome),
        fun d => do return { d with inputs := some (← Json.Reader.list Json.Reader.uint64) }⟩,
      ⟨"writes", (·.writes.isSome),
        fun d => do return { d with writes := some (← Json.Reader.list RegWrite.record.read) }⟩,
      ⟨"next_pc", (·.nextPc.isSome),
        fun d => do return { d with nextPc := some (← Json.Reader.uint64) }⟩,
      ⟨"hits", (·.hits.isSome),
        fun d => do return { d with hits := some (← Json.Reader.uint64) }⟩ ]
  complete d := do
    return {
      site := ⟨← Json.required "site" d.site⟩
      ctxHash := ← Json.required "ctx_hash" d.ctxHash
      inputs := ← Json.required "inputs" d.inputs
      writes := ← Json.required "writes" d.writes
      nextPc := ← Json.required "next_pc" d.nextPc
      hits := d.hits.getD 0 }

/-- The record of a snapshot; the draft holds the entries once they are read. -/
def Snapshot.record : Record (Option (List SnapshotEntry)) Snapshot where
  blank := none
  members :=
    [⟨"entries", Option.isSome, fun _ => some <$> Json.Reader.list SnapshotEntry.record.read⟩]
  complete d := do return { entries := ← Json.required "entries" d }

/-- Reads the text of a snapshot file. -/
def Snapshot.ofText (text : String) : Except Fault Snapshot := Json.readText Snapshot.record.read text

end CallMemo
