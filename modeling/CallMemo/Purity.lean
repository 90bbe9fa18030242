import CallMemo.PostState.Basic
import CallMemo.Identity
import CallMemo.Binary64.Rounding

/-!
# Purity checks

A sample of the replays is checked against a fresh run of the handler. A check that fails is
reported as a violation, and its site stops being memoized.
-/

namespace CallMemo

/-- A recorded post-state that a fresh run of the handler contradicts. -/
structure Violation where
  /-- The site of the impure handler. -/
  site : SiteId
  /-- The calling context of the check. -/
  fingerprint : Fingerprint
  /-- What the cache held. -/
  cached : PostState
  /-- What the fresh run produced. -/
  observed : PostState
  deriving DecidableEq, Repr

/-- The explanation shown to the user. -/
def Violation.message (v : Violation) : String :=
  let cached := Text.hexMarked v.cached.nextPc.toNat
  let observed := Text.hexMarked v.observed.nextPc.toNat
  s!"handler at call site {v.site} is impure: context {v.fingerprint} " ++
    s!"cached next_pc {cached}, re-run produced next_pc {observed}"

/-- Whether a replay is checked, given the share of replays to check and a uniformly drawn word.
A share that is not a number checks nothing. -/
def isSampled (rate : Binary64) (draw : UInt64) : Bool :=
  if rate.isNaN ∨ rate ≤ .zero then false
  else if Binary64.one ≤ rate then true
  else draw.toNat < rate.scaledFloor

end CallMemo
