import CallMemo.PostState.Basic
import CallMemo.Identity

/-!
# Cache entries

An entry keeps the recorded post-state together with the raw input it was recorded for, so that a
lossy fingerprint never passes another input's result off, and with its usage, which eviction
policies look at.
-/

namespace CallMemo

/-- How an entry has been used. -/
structure Usage where
  /-- The clock reading of the last use; zero if the entry was restored and not used since. -/
  lastUsed : UInt64
  /-- The number of uses, modulo `2 ^ 64`. -/
  hits : UInt64 := 0
  /-- The number of checks that agreed, modulo `2 ^ 32`. -/
  confidence : UInt32 := 0
  deriving DecidableEq, Repr

namespace Usage

/-- The usage of an entry recorded now. -/
def fresh (tick : UInt64) : Usage := { lastUsed := tick }

/-- The usage of an entry restored with the hits of an earlier run. -/
def cold (hits : UInt64) : Usage := { lastUsed := 0, hits }

/-- Counts a use; the clock reading never goes back. -/
def hit (u : Usage) (tick : UInt64) : Usage :=
  { u with lastUsed := max u.lastUsed tick, hits := u.hits + 1 }

/-- Counts a check that agreed. -/
def confirm (u : Usage) : Usage := { u with confidence := u.confidence + 1 }

end Usage

/-- A recorded result. -/
structure Entry where
  /-- The input values it was recorded for. -/
  rawInput : List UInt64
  /-- The recorded result. -/
  post : PostState
  /-- How it has been used. -/
  usage : Usage
  deriving DecidableEq, Repr

/-- What a successful lookup hands back. -/
structure Hit where
  /-- The input values the result was recorded for. -/
  rawInput : List UInt64
  /-- The recorded result. -/
  post : PostState
  deriving DecidableEq, Repr

namespace Entry

/-- The part of an entry that a lookup shows. -/
def toHit (e : Entry) : Hit := ⟨e.rawInput, e.post⟩

/-- The entry after a use. -/
def hit (e : Entry) (tick : UInt64) : Entry := { e with usage := e.usage.hit tick }

/-- The entry after a check that agreed. -/
def confirm (e : Entry) : Entry := { e with usage := e.usage.confirm }

end Entry

/-- Whether a result was recorded for exactly this input. -/
def Hit.isFor (h : Hit) (input : List UInt64) : Bool := h.rawInput == input

/-- The entries of one call site. -/
abbrev Shard := Std.ExtTreeMap Fingerprint Entry

end CallMemo
