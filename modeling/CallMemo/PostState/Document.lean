import CallMemo.PostState.Basic
import CallMemo.Json.Typed
import CallMemo.Json.Printer

/-!
# Post-states as JSON

The records of register writes and post-states, and their compact text. Every member is required,
in any order.
-/

namespace CallMemo

open Json (Fault Record)

/-- The value of a required member. -/
def Json.required {α : Type} (name : String) : Option α → Except Fault α
  | some a => .ok a
  | none => .error (.missing name)

/-- A register write whose members are being read. -/
structure RegWrite.Draft where
  /-- The register, once read. -/
  reg : Option UInt16 := none
  /-- The value, once read. -/
  value : Option UInt64 := none

/-- The record of a register write. -/
def RegWrite.record : Record Draft RegWrite where
  blank := {}
  members :=
    [ ⟨"reg", (·.reg.isSome), fun d => do return { d with reg := some (← Json.Reader.uint16) }⟩,
      ⟨"val", (·.value.isSome),
        fun d => do return { d with value := some (← Json.Reader.uint64) }⟩ ]
  complete d := do
    return { reg := ← Json.required "reg" d.reg, value := ← Json.required "val" d.value }

/-- A post-state whose members are being read. -/
structure PostState.Draft where
  /-- The writes, once read. -/
  writes : Option (List RegWrite) := none
  /-- The next program counter, once read. -/
  nextPc : Option UInt64 := none

/-- The record of a post-state. -/
def PostState.record : Record Draft PostState where
  blank := {}
  members :=
    [ ⟨"writes", (·.writes.isSome),
        fun d => do return { d with writes := some (← Json.Reader.list RegWrite.record.read) }⟩,
      ⟨"next_pc", (·.nextPc.isSome),
        fun d => do return { d with nextPc := some (← Json.Reader.uint64) }⟩ ]
  complete d := do
    return {
      writes := ← Json.required "writes" d.writes
      nextPc := ← Json.required "next_pc" d.nextPc }

/-- Reads a post-state. -/
def PostState.ofJson (text : String) : Except Fault PostState :=
  Json.readText PostState.record.read text

/-- A register write as compact JSON. -/
def RegWrite.toJson (w : RegWrite) : String :=
  Json.compact "\x7b" "\x7d" [s!"\"reg\":{w.reg.toNat}", s!"\"val\":{w.value.toNat}"]

/-- A post-state as compact JSON. -/
def PostState.toJson (p : PostState) : String :=
  let writes := Json.compact "[" "]" (p.writes.map RegWrite.toJson)
  Json.compact "\x7b" "\x7d" [s!"\"writes\":{writes}", s!"\"next_pc\":{p.nextPc.toNat}"]

end CallMemo
