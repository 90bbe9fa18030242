import CallMemo.Config.Basic
import CallMemo.Binary64.Literal
import CallMemo.Text.Blank

/-!
# Settings from the environment

Each setting can be given by a variable; an unset variable leaves the default. Blanks around a
value are ignored. The variables are read in a fixed order and the first unreadable one is
reported with its value as given; the settings are checked as a whole afterwards.
-/

namespace CallMemo

/-- The variables that are set, by name. -/
abbrev Environment := String → Option String

namespace Config

/-- The variable for the bound per site. -/
def perSiteVariable : String := "PTRMEMO_MAX_ENTRIES_PER_SITE"

/-- The variable for the bound in all. -/
def totalVariable : String := "PTRMEMO_MAX_TOTAL_ENTRIES"

/-- The variable for the sample rate. -/
def sampleRateVariable : String := "PTRMEMO_VALIDATION_SAMPLE_RATE"

/-- The variable that tells whether entries of a demoted site are dropped. -/
def invalidateVariable : String := "PTRMEMO_INVALIDATE_ON_DEMOTION"

/-- Reads a truth value. -/
def readBool? : List Char → Option Bool
  | ['t', 'r', 'u', 'e'] => some true
  | ['f', 'a', 'l', 's', 'e'] => some false
  | _ => none

/-- The value of a variable, or the given default if it is not set. -/
def variableD {α : Type} (env : Environment) (key : String) (read : List Char → Option α)
    (default : α) : Except ConfigurationError α :=
  match env key with
  | none => .ok default
  | some value =>
    match read (Text.trimBlanks value.toList) with
    | some a => .ok a
    | none => .error (.invalidValue key value)

/-- The settings that the environment gives. -/
def ofEnvironment (env : Environment) : Except ConfigurationError Config := do
  let base : Config := {}
  let perSite ← variableD env perSiteVariable (Text.readUInt64 · |>.toOption) base.maxEntriesPerSite
  let total ← variableD env totalVariable (Text.readUInt64 · |>.toOption) base.maxTotalEntries
  let rate ← variableD env sampleRateVariable (Binary64.readLiteral · |>.toOption)
    base.validationSampleRate
  let invalidate ← variableD env invalidateVariable readBool? base.invalidateOnDemotion
  checked
    { maxEntriesPerSite := perSite, maxTotalEntries := total,
      validationSampleRate := rate, invalidateOnDemotion := invalidate }

end Config

end CallMemo
