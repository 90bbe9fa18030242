import CallMemo.Bench.Report
import CallMemo.Bench.Script
import CallMemo.CommandLine.Arguments
import CallMemo.CommandLine.Help
import CallMemo.Engine.WarmStart
import CallMemo.Log.Filter
import CallMemo.Snapshot.File

/-!
# The bench program

The program reads its options, registers the routines, starts from a snapshot if one is given, runs
the workers, reports, and writes a snapshot if one is asked for. Events that pass the log filter are
shown among its output as they happen.
-/

namespace CallMemo.Bench

/-- The variable that holds the log filter. -/
def logVariable : String := "PTRMEMO_LOG"

/-- The variables that the program looks at. -/
def variableNames : List String :=
  [Config.perSiteVariable, Config.totalVariable, Config.sampleRateVariable,
    Config.invalidateVariable, logVariable]

/-- What a run of the program depends on besides its arguments and files. -/
structure Surroundings where
  /-- The variables that are set. -/
  env : Environment
  /-- The uniformly drawn word of each call. -/
  draw : Nat → UInt64
  /-- A log filter that is in place already and hides the one of the environment. -/
  directives : Option String := none

/-- The log filter in force. -/
def Surroundings.filter (s : Surroundings) : Log.Filter :=
  .ofSetting (s.directives <|> s.env logVariable)

/-- Shows the events that pass the filter. -/
def log (filter : Log.Filter) (events : List Log.Event) (next : Script) : Script :=
  .print ((events.filter filter.passes).map (·.line)) next

/-- Ends the program with a failure. -/
def fail (f : Failure) : Script := .complain f.lines (.finish 1)

/-- Writes the snapshot of an engine and says so. -/
def saveSnapshot (e : Engine) (path : String) : Script :=
  let snapshot := e.exportSnapshot
  .write path snapshot.text fun
    | .error reason => fail (.createSnapshot path reason)
    | .ok () => .print [s!"snapshot {snapshot.entries.length} entries to {path}"] (.finish 0)

/-- Runs the workers and reports; there is at least one worker. -/
def measure (s : Surroundings) (o : CommandLine.Options) (shared : Shared) : Script :=
  let table := Routine.table o.impure
  let (shared, sums) :=
    runWorkers s.draw table o.iterations.toNat (max o.workers.toNat 1) shared
  log s.filter shared.events.reverse <|
    .print (report shared.engine table sums) <|
      match o.snapshotOut with
      | some path => saveSnapshot shared.engine path
      | none => .finish 0

/-- Starts from the snapshot in a file. -/
def loadSnapshot (s : Surroundings) (path : String) (shared : Shared) (next : Shared → Script) :
    Script :=
  .read path fun answer =>
    match Snapshot.ofFile path answer with
    | .error f => fail f
    | .ok snapshot =>
      let w := shared.engine.warmStart snapshot
      log s.filter (w.events ++ [.snapshotLoaded path w.loaded w.skipped]) <|
        next { shared with engine := w.engine }

/-- Sets up an engine with the routines registered, and goes on with it. -/
def prepare (s : Surroundings) (o : CommandLine.Options) (config : Config)
    (next : Shared → Script) : Script :=
  match ({ engine := .ofConfig config } : Shared).register (Routine.table o.impure) with
  | .error e => fail (.configuration e)
  | .ok shared => log s.filter shared.events.reverse <| next { shared with events := [] }

/-- Runs the bench with the given options. -/
def run (s : Surroundings) (o : CommandLine.Options) : Script :=
  match o.memoConfig s.env with
  | .error e => fail (.configuration e)
  | .ok config =>
    log s.filter [.configured config] <|
      prepare s o config fun shared =>
        match o.snapshotIn with
        | some path => loadSnapshot s path shared (measure s o)
        | none => measure s o shared

/-- The program with the given arguments. -/
def program (s : Surroundings) (args : List String) : Script :=
  match CommandLine.Options.ofArguments args with
  | .ok options => run s options
  | .error .help => .print CommandLine.helpLines (.finish 0)
  | .error .version => .print [CommandLine.versionLine] (.finish 0)
  | .error (.usage e) => .complain [s!"error: {e.message}"] (.finish 2)

end CallMemo.Bench
