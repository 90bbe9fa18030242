import CallMemo.Config.Environment

/-!
# Options of the bench program

The options that the program takes, what each value means, and how they combine with the settings
from the environment.
-/

namespace CallMemo.CommandLine

/-- An option that takes a value. -/
inductive Setting where
  /-- Loop iterations per worker. -/
  | iterations
  /-- Interpreter instances that share one engine. -/
  | workers
  /-- The share of replays that are checked. -/
  | sampleRate
  /-- The most cached contexts per call site. -/
  | maxPerSite
  /-- The most cached contexts in all. -/
  | maxTotal
  /-- The snapshot to start from. -/
  | snapshotIn
  /-- The snapshot to write after the run. -/
  | snapshotOut
  deriving DecidableEq, Repr

/-- An option without a value. -/
inductive Flag where
  /-- Add a stateful handler to the table. -/
  | impure
  /-- Keep the entries of a demoted site. -/
  | keepDemoted
  /-- Show the options. -/
  | help
  /-- Show the version. -/
  | version
  deriving DecidableEq, Repr

/-- The name of an option that takes a value, and the name of the value. -/
def Setting.names : Setting → String × String
  | iterations => ("iterations", "ITERATIONS")
  | workers => ("workers", "WORKERS")
  | sampleRate => ("sample-rate", "SAMPLE_RATE")
  | maxPerSite => ("max-per-site", "MAX_PER_SITE")
  | maxTotal => ("max-total", "MAX_TOTAL")
  | snapshotIn => ("snapshot-in", "SNAPSHOT_IN")
  | snapshotOut => ("snapshot-out", "SNAPSHOT_OUT")

/-- The option and its value as shown in messages. -/
def Setting.usage (s : Setting) : String := "--" ++ s.names.1 ++ " <" ++ s.names.2 ++ ">"

/-- The name of an option without a value. -/
def Flag.name : Flag → String
  | impure => "impure"
  | keepDemoted => "keep-demoted"
  | help => "help"
  | version => "version"

/-- The option as shown in messages. -/
def Flag.usage (f : Flag) : String := "--" ++ f.name

/-- All options that take a value. -/
def Setting.all : List Setting :=
  [iterations, workers, sampleRate, maxPerSite, maxTotal, snapshotIn, snapshotOut]

/-- All options without a value. -/
def Flag.all : List Flag := [impure, keepDemoted, help, version]

/-- The given options. -/
structure Options where
  /-- Loop iterations per worker. -/
  iterations : UInt64 := 100000
  /-- Interpreter instances that share one engine. -/
  workers : UInt64 := 1
  /-- The share of replays that are checked, if given. -/
  sampleRate : Option Binary64 := none
  /-- The most cached contexts per call site, if given. -/
  maxPerSite : Option UInt64 := none
  /-- The most cached contexts in all, if given. -/
  maxTotal : Option UInt64 := none
  /-- Whether to add a stateful handler to the table. -/
  impure : Bool := false
  /-- Whether to keep the entries of a demoted site. -/
  keepDemoted : Bool := false
  /-- The snapshot to start from, if given. -/
  snapshotIn : Option String := none
  /-- The snapshot to write after the run, if given. -/
  snapshotOut : Option String := none
  deriving DecidableEq, Repr

namespace Options

/-- The settings from the environment, overridden by whatever was given as an option. -/
def memoConfig (o : Options) (env : Environment) : Except ConfigurationError Config := do
  let base ← Config.ofEnvironment env
  Config.checked
    { maxEntriesPerSite := o.maxPerSite.getD base.maxEntriesPerSite
      maxTotalEntries := o.maxTotal.getD base.maxTotalEntries
      validationSampleRate := o.sampleRate.getD base.validationSampleRate
      invalidateOnDemotion := !o.keepDemoted && base.invalidateOnDemotion }

/-- Why a value is not accepted. -/
inductive ValueFault where
  /-- A path is empty. -/
  | noValue
  /-- A number cannot be read for the given reason. -/
  | unreadable (reason : String)
  deriving DecidableEq, Repr

/-- Reads a count. -/
def readCount (value : String) : Except ValueFault UInt64 :=
  (Text.readUInt64 value.toList).mapError (.unreadable ·.message)

/-- Reads a path. -/
def readPath (value : String) : Except ValueFault String :=
  if value.isEmpty then .error .noValue else .ok value

/-- Sets the value of an option. -/
def set (o : Options) (s : Setting) (value : String) : Except ValueFault Options := do
  match s with
  | .iterations => return { o with iterations := ← readCount value }
  | .workers => return { o with workers := ← readCount value }
  | .sampleRate =>
    let rate ← (Binary64.readLiteral value.toList).mapError (ValueFault.unreadable ·.message)
    return { o with sampleRate := some rate }
  | .maxPerSite => return { o with maxPerSite := some (← readCount value) }
  | .maxTotal => return { o with maxTotal := some (← readCount value) }
  | .snapshotIn => return { o with snapshotIn := some (← readPath value) }
  | .snapshotOut => return { o with snapshotOut := some (← readPath value) }

/-- Sets an option without a value; requests to show something change nothing. -/
def setFlag (o : Options) : Flag → Options
  | .impure => { o with impure := true }
  | .keepDemoted => { o with keepDemoted := true }
  | .help | .version => o

end Options

end CallMemo.CommandLine
