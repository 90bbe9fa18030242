import CallMemo.Bench.Program

/-!
# The command line

Performs the script of the bench program with the files, the environment and the random numbers of
the system.
-/

namespace CallMemo.Bench

/-- What the system says about a file that cannot be used. -/
def reasonOf : IO.Error → String
  | .noFileOrDirectory .. => "No such file or directory (os error 2)"
  | .permissionDenied .. => "Permission denied (os error 13)"
  | e => toString e

/-- Performs the steps of a script and gives the exit code. -/
def Script.perform : Script → IO UInt32
  | finish code => return code
  | print lines next => do
    for line in lines do IO.println line
    next.perform
  | complain lines next => do
    for line in lines do IO.eprintln line
    next.perform
  | read path next => do
    let answer ← (IO.FS.readFile path).toBaseIO
    (next (answer.mapError reasonOf)).perform
  | write path text next => do
    let answer ← (IO.FS.writeFile path text).toBaseIO
    (next (answer.mapError reasonOf)).perform

/-- Reads the variables of the process that the program looks at. -/
def readEnvironment : IO Environment := do
  let values ← variableNames.mapM fun name => return (name, ← IO.getEnv name)
  return fun name => (values.lookup name).join

end CallMemo.Bench

open CallMemo in
/-- Runs the bench program. -/
def main (args : List String) : IO UInt32 := do
  let env ← Bench.readEnvironment
  let seed ← IO.rand 0 (UInt64.size - 1)
  let draw := fun call => Codec.mix seed.toUInt64 call.toUInt64
  (Bench.program { env, draw } args).perform
