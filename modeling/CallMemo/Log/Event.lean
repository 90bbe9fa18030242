import CallMemo.Config.Basic
import CallMemo.Purity

/-!
# Events

What the library tells about its work. Operations return their events as data; an event has a
level, a target (the part of the program it comes from), a message and named values.
-/

namespace CallMemo.Log

/-- How important an event is, the most verbose level last. -/
inductive Level where
  /-- Something failed. -/
  | error
  /-- Something is suspicious. -/
  | warn
  /-- Progress worth knowing. -/
  | info
  /-- Details of the work. -/
  | debug
  /-- Everything. -/
  | trace
  deriving DecidableEq, Repr

namespace Level

/-- The position among the levels: one for errors, five for everything. -/
def verbosity : Level → Nat
  | error => 1
  | warn => 2
  | info => 3
  | debug => 4
  | trace => 5

/-- The mark of the level in a log line. -/
def label : Level → String
  | error => "ERROR"
  | warn => "WARN"
  | info => "INFO"
  | debug => "DEBUG"
  | trace => "TRACE"

end Level

/-- Something that happened during an operation. -/
inductive Event where
  /-- A call site was registered. -/
  | registered (site : SiteId) (width : Nat)
  /-- A lookup found another input under the same fingerprint. -/
  | collision (site : SiteId) (fingerprint : Fingerprint)
  /-- A site was demoted and the given number of entries dropped. -/
  | demoted (violation : Violation) (dropped : Nat)
  /-- An entry gave way to a new one of its own site. -/
  | evicted (site : SiteId) (victim : Fingerprint)
  /-- An entry gave way to a new one of another site. -/
  | reclaimed (site : SiteId) (victim : Fingerprint) (requester : SiteId)
  /-- A new entry found no room. -/
  | noRoom (site : SiteId) (fingerprint : Fingerprint)
  /-- A snapshot entry names a site that is not registered. -/
  | unknownSite (site : SiteId)
  /-- A snapshot entry does not fit its site. -/
  | unfit (site : SiteId) (width : Nat)
  /-- A warm start is complete. -/
  | warmStarted (loaded skipped : Nat)
  /-- The bench runs with these settings. -/
  | configured (config : Config)
  /-- The bench has loaded a snapshot. -/
  | snapshotLoaded (path : String) (loaded skipped : Nat)
  deriving DecidableEq, Repr

namespace Event

/-- How important the event is. -/
def level : Event → Level
  | collision .. | demoted .. | unfit .. => .warn
  | snapshotLoaded .. => .info
  | _ => .debug

/-- The part of the program that the event comes from. -/
def target : Event → String
  | registered .. | collision .. | demoted .. => "ptrmemo::memo::engine"
  | evicted .. | reclaimed .. | noRoom .. => "ptrmemo::memo::cache::post_state_cache"
  | unknownSite .. | unfit .. | warmStarted .. => "ptrmemo::memo::snapshot"
  | configured .. | snapshotLoaded .. => "ptrmemo::cli"

/-- What happened, in words. -/
def message : Event → String
  | registered .. => "registered call site"
  | collision .. => "fingerprint collision, running handler"
  | demoted v _ => s!"{v.message}; call site will no longer be memoized"
  | evicted .. => "evicted post-state entry"
  | reclaimed .. => "evicted post-state entry for another site"
  | noRoom .. => "no room for post-state entry"
  | unknownSite _ => "snapshot entry for unregistered call site"
  | unfit .. => "snapshot entry does not fit call site"
  | warmStarted .. => "warm start finished"
  | configured _ => "engine configuration"
  | snapshotLoaded .. => "warm start"

/-- The named values of the event, in the order shown. -/
def fields : Event → List (String × String)
  | registered site width => [("site", toString site), ("width", toString width)]
  | collision site fp => [("site", toString site), ("fingerprint", toString fp)]
  | demoted v dropped => [("site", toString v.site), ("dropped", toString dropped)]
  | evicted site victim => [("site", toString site), ("victim", toString victim)]
  | reclaimed site victim requester =>
    [("site", toString site), ("victim", toString victim), ("requester", toString requester)]
  | noRoom site fp => [("site", toString site), ("fingerprint", toString fp)]
  | unknownSite site => [("site", toString site)]
  | unfit site width => [("site", toString site), ("width", toString width)]
  | warmStarted loaded skipped => [("loaded", toString loaded), ("skipped", toString skipped)]
  | configured config => [("config", config.listing)]
  | snapshotLoaded path loaded skipped =>
    [("path", path), ("loaded", toString loaded), ("skipped", toString skipped)]

/-- Whether the event has a field of this name; the message is a field as well. -/
def hasField (e : Event) (name : String) : Bool :=
  name == "message" || e.fields.any (·.1 == name)

/-- The message and the named values of the event. -/
def text (e : Event) : String :=
  " ".intercalate (e.message :: e.fields.map fun (name, value) => s!"{name}={value}")

/-- The log line of the event. -/
def line (e : Event) : String := s!"{e.level.label} {e.target}: {e.text}"

end Event

end CallMemo.Log
