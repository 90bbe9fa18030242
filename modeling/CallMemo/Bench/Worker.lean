import CallMemo.Bench.Routine

/-!
# Workers

A worker is an interpreter with a register file of its own. It calls the routines in turn through
an engine that all workers share, and adds up their results. Workers run one after another.
-/

namespace CallMemo.Bench

/-- What the workers share. -/
structure Shared where
  /-- The engine. -/
  engine : Engine
  /-- How often the drifting routine has run. -/
  drift : UInt64 := 0
  /-- How many calls were made so far; every call has a draw of its own. -/
  calls : Nat := 0
  /-- What happened so far, the latest first. -/
  events : List Log.Event := []

/-- Notes further events. -/
def Shared.note (s : Shared) (events : List Log.Event) : Shared :=
  { s with events := events.reverseAux s.events }

/-- An interpreter. -/
structure Worker where
  /-- The register file. -/
  registers : List UInt64 := List.replicate 32 0
  /-- The sum of the results so far, modulo `2 ^ 64`. -/
  sum : UInt64 := 0
  deriving DecidableEq, Repr

/-- Registers the routines of a table. -/
def Shared.register (s : Shared) : List Routine → Except ConfigurationError Shared
  | [] => .ok s
  | r :: rest => do
    let registered ← s.engine.register r.site [accumulator]
    ({ s with engine := registered.engine }.note registered.events).register rest

/-- The argument of the iteration with the given number. -/
def argument (i : Nat) : UInt64 := if i % 2 = 1 then 3 else 5

/-- Calls a routine with the state of a worker. The slot that routines read lies within the register
file and a routine never fails, so the call has a result. -/
def call (draw : Nat → UInt64) (site : CallSite) (r : Routine) (s : Shared) (w : Worker) :
    Shared × Worker :=
  let input := (site.readSet.gather w.registers).getD []
  let d := s.engine.dispatch site input (draw s.calls) r.run s.drift
  let shared := { s with engine := d.engine, drift := d.world, calls := s.calls + 1 }.note d.events
  match d.result with
  | .error _ => (shared, w)
  | .ok post =>
    let registers := post.applyTo w.registers
    (shared, { registers, sum := w.sum + registers.getD accumulator.val.toNat 0 })

/-- One iteration: the argument is set and the routine whose turn it is is called. -/
def iterate (draw : Nat → UInt64) (table : List Routine) (i : Nat) (s : Shared) (w : Worker) :
    Shared × Worker :=
  let w := { w with registers := w.registers.set accumulator.val.toNat (argument i) }
  match table[i % table.length]? with
  | none => (s, w)
  | some r =>
    match s.engine.callSite? r.site with
    | none => (s, w)
    | some site => call draw site r s w

/-- Runs a fresh worker for a number of iterations. -/
def runWorker (draw : Nat → UInt64) (table : List Routine) (iterations : Nat) (s : Shared) :
    Shared × Worker :=
  iterations.fold (fun i _ (s, w) => iterate draw table i s w) (s, {})

/-- Runs a number of workers one after another and gives their sums in order. -/
def runWorkers (draw : Nat → UInt64) (table : List Routine) (iterations : Nat) :
    Nat → Shared → Shared × List UInt64
  | 0, s => (s, [])
  | workers + 1, s =>
    let (s, w) := runWorker draw table iterations s
    let (s, sums) := runWorkers draw table iterations workers s
    (s, w.sum :: sums)

end CallMemo.Bench
