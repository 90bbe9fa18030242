import CallMemo.Snapshot.Reader
import CallMemo.Snapshot.Printer
import CallMemo.Config.Toml
import CallMemo.Failure

/-!
# Files

Reading settings and snapshots from what the system answers to a request for a file: its text or
the reason why there is none.
-/

namespace CallMemo

/-- The snapshot in a file. -/
def Snapshot.ofFile (path : String) (answer : Except String String) : Except Failure Snapshot :=
  match answer with
  | .error reason => .error (.openSnapshot path reason)
  | .ok text => (Snapshot.ofText text).mapError .malformedSnapshot

/-- The settings in a file. -/
def Config.ofFile (path : String) (answer : Except String String) : Except Failure Config :=
  match answer with
  | .error reason => .error (.readConfig path reason)
  | .ok text => (Config.ofToml text).mapError .configuration

end CallMemo
