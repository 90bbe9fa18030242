import CallMemo.CommandLine.Options

/-!
# Help

What the program shows when it is asked for its options or its version.
-/

namespace CallMemo.CommandLine

/-- What an option is for. -/
def Setting.purpose : Setting → String
  | iterations => "Loop iterations per worker"
  | workers => "Interpreter instances sharing one engine"
  | sampleRate => "Fraction of cache hits re-checked against the real handler"
  | maxPerSite => "Maximum cached contexts per call site"
  | maxTotal => "Maximum cached contexts overall"
  | snapshotIn => "Warm-start the cache from a JSON snapshot"
  | snapshotOut => "Write the cache to a JSON snapshot after the run"

/-- What an option without a value is for. -/
def Flag.purpose : Flag → String
  | impure => "Add a stateful handler to the table; it must end up demoted"
  | keepDemoted => "Keep a demoted site's entries instead of dropping them"
  | help => "Print help"
  | version => "Print version"

/-- The name of the program. -/
def programName : String := "ptrcall"

/-- The line that tells the version. -/
def versionLine : String := programName ++ " 0.1.0"

/-- The lines that tell the options. -/
def helpLines : List String :=
  [ "Indirect-call microbench driven through the memoization engine", "",
    "Usage: " ++ programName ++ " [OPTIONS]", "", "Options:" ] ++
  Setting.all.map (fun s => s!"  {s.usage}  {s.purpose}") ++
  Flag.all.map fun f => s!"  {f.usage}  {f.purpose}"

end CallMemo.CommandLine
