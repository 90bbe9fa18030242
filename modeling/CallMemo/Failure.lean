import CallMemo.Error
import CallMemo.Json.Reader

/-!
# Failures of a whole operation

What ends an operation on files or a program: misuse, a file that cannot be used, or a snapshot
that cannot be read. A failure may have a cause of its own that is shown apart.
-/

namespace CallMemo

/-- Why an operation on files or a program ends early. -/
inductive Failure where
  /-- The settings are misused. -/
  | configuration (e : ConfigurationError)
  /-- A settings file cannot be read for the given reason. -/
  | readConfig (path reason : String)
  /-- A snapshot file cannot be opened for the given reason. -/
  | openSnapshot (path reason : String)
  /-- A snapshot file cannot be created for the given reason. -/
  | createSnapshot (path reason : String)
  /-- The text of a snapshot file is faulty. -/
  | malformedSnapshot (fault : Json.Fault)
  deriving DecidableEq, Repr

namespace Failure

/-- The explanation shown to the user. -/
def message : Failure → String
  | configuration e => e.message
  | readConfig path _ => s!"failed to read config {path}"
  | openSnapshot path _ => s!"failed to open snapshot {path}"
  | createSnapshot path _ => s!"failed to create snapshot {path}"
  | malformedSnapshot _ => "failed to deserialise memo snapshot"

/-- What the system says about a file that cannot be used. -/
def reason? : Failure → Option String
  | readConfig _ reason | openSnapshot _ reason | createSnapshot _ reason => some reason
  | _ => none

/-- The lines shown to the user. -/
def lines (f : Failure) : List String :=
  s!"Error: {f.message}" :: match f.reason? with
    | some reason => ["", "Caused by:", s!"    {reason}"]
    | none => []

end Failure

end CallMemo
