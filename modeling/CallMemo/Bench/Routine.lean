import CallMemo.Engine.Dispatch

/-!
# The routines of the bench

The bench calls its routines in turn through the engine. Each takes its argument from one register
and leaves its result there. Two of them are pure; the third reads a counter that nobody declares,
so that equal arguments do not give equal results.
-/

namespace CallMemo.Bench

/-- The register that holds the argument and the result of a routine. -/
def accumulator : Slot := ⟨10⟩

/-- A routine that the bench calls. -/
inductive Routine where
  /-- Adds seven to the low half of its argument. -/
  | addSeven
  /-- Flips some bits of its argument and keeps sixteen of them. -/
  | twiddle
  /-- Adds the number of its earlier runs to its argument. -/
  | drifting
  deriving DecidableEq, Repr

namespace Routine

/-- The address of the routine, which names its call site. -/
def site : Routine → SiteId
  | addSeven => ⟨0x1000⟩
  | twiddle => ⟨0x3000⟩
  | drifting => ⟨0x5000⟩

/-- The program counter behind the routine. -/
def nextPc : Routine → UInt64
  | addSeven => 0x2000
  | twiddle => 0x4000
  | drifting => 0x6000

/-- The result for an argument when the drifting routine has run `drift` times. -/
def value (r : Routine) (x drift : UInt64) : UInt64 :=
  match r with
  | addSeven => (x.toUInt32 + 7).toUInt64
  | twiddle => ((x.toUInt32 ^^^ 0x1234) &&& 0xFFFF).toUInt64
  | drifting => x + drift

/-- The number of runs of the drifting routine once this one has run. -/
def nextDrift (r : Routine) (drift : UInt64) : UInt64 :=
  match r with
  | drifting => drift + 1
  | _ => drift

/-- Runs the routine; it never fails. The argument is the only value of its calling context. -/
def run (r : Routine) (input : List UInt64) (drift : UInt64) : Except Empty PostState × UInt64 :=
  let write : RegWrite := { reg := accumulator.val, value := r.value (input.headD 0) drift }
  (.ok { writes := [write], nextPc := r.nextPc }, r.nextDrift drift)

/-- The routines in the order in which the bench calls them. -/
def table (impure : Bool) : List Routine :=
  [addSeven, twiddle] ++ if impure then [drifting] else []

example : addSeven.value 5 0 = 12 ∧ twiddle.value 3 0 = 0x1237 := by decide

end Routine

end CallMemo.Bench
