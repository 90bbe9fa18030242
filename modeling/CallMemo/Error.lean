import CallMemo.Identity
import CallMemo.Binary64.Layout

/-!
# Errors

Misuse found while a site is registered or the engine is configured, and the failure of a single
dispatch. Each cause is a constructor; the texts shown to users are rendered here.
-/

namespace CallMemo

/-- Misuse found during registration or configuration. -/
inductive ConfigurationError where
  /-- A site declares no slots. -/
  | emptyReadSet (site : SiteId)
  /-- A site declares a slot more than once. -/
  | duplicateSlot (site : SiteId) (slot : Slot)
  /-- A site is registered already, with other slots or in another order. -/
  | readSetConflict (site : SiteId)
  /-- No entry may be kept per site. -/
  | zeroSiteCapacity
  /-- No entry may be kept at all. -/
  | zeroTotalCapacity
  /-- The rate is not a number between zero and one. -/
  | sampleRate (rate : Binary64)
  /-- A setting has a value that cannot be read. -/
  | invalidValue (key value : String)
  /-- The shared engine exists already. -/
  | alreadyConfigured
  /-- A settings document is malformed or holds a value of the wrong kind. -/
  | unreadable
  deriving DecidableEq, Repr

/-- The explanation shown to the user. -/
def ConfigurationError.message : ConfigurationError → String
  | .emptyReadSet site => s!"call site {site} declared an empty read set"
  | .duplicateSlot site slot => s!"call site {site} declares slot {slot} more than once"
  | .readSetConflict site => s!"call site {site} is already registered with a different read set"
  | .zeroSiteCapacity => "max_entries_per_site must be at least 1"
  | .zeroTotalCapacity => "max_total_entries must be at least 1"
  | .sampleRate rate => "validation sample rate " ++ Layout.message.render rate ++ " is outside [0, 1]"
  | .invalidValue key value => s!"invalid value `{value}` for {key}"
  | .alreadyConfigured => "the memoization engine is already configured"
  | .unreadable => "failed to parse configuration"

/-- The failure of a single dispatch; `ε` is the error type of the handler. -/
inductive DispatchError (ε : Type) where
  /-- The number of input values is not the width of the read set. -/
  | contextWidth (site : SiteId) (expected found : Nat)
  /-- The handler itself failed. -/
  | handler (error : ε)
  deriving DecidableEq, Repr

namespace DispatchError

/-- The explanation shown to the user. -/
def message {ε : Type} [ToString ε] : DispatchError ε → String
  | contextWidth site expected found =>
    s!"call site {site} expects {expected} input values, got {found}"
  | handler error => s!"handler failed: {error}"

/-- The error of the handler, if that is what failed. -/
def handlerError? {ε : Type} : DispatchError ε → Option ε
  | contextWidth .. => none
  | handler error => some error

end DispatchError

end CallMemo
