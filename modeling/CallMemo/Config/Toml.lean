import CallMemo.Config.Basic
import CallMemo.Binary64.Rounding
import CallMemo.Toml.Document

/-!
# Settings from TOML

Every setting may be left out and keeps its default then; other keys and tables are ignored. An
integer setting takes integers that are not negative, the sample rate takes any number.
-/

namespace CallMemo.Config

open Toml (Item Table)

/-- The value of a setting, the default if its key is absent, `none` if it is of the wrong kind. -/
def settingD {α : Type} (t : Table) (key : String) (read : Item → Option α) (default : α) :
    Option α :=
  match t.find? key with
  | none => some default
  | some item => read item

/-- A count. -/
def count? : Item → Option UInt64
  | .scalar (.integer n) => if 0 ≤ n then some n.toNat.toUInt64 else none
  | _ => none

/-- A rate. -/
def rate? : Item → Option Binary64
  | .scalar (.float x) => some x
  | .scalar (.integer n) => some (.ofRatio (n < 0) n.natAbs 1)
  | _ => none

/-- A truth value. -/
def flag? : Item → Option Bool
  | .scalar (.boolean b) => some b
  | _ => none

/-- The settings of a document, without checking them. -/
def ofTable? (t : Table) : Option Config := do
  let base : Config := {}
  return {
    maxEntriesPerSite := ← settingD t "max_entries_per_site" count? base.maxEntriesPerSite
    maxTotalEntries := ← settingD t "max_total_entries" count? base.maxTotalEntries
    validationSampleRate := ← settingD t "validation_sample_rate" rate? base.validationSampleRate
    invalidateOnDemotion := ← settingD t "invalidate_on_demotion" flag? base.invalidateOnDemotion }

/-- Reads settings from TOML text and checks them. -/
def ofToml (text : String) : Except ConfigurationError Config :=
  match (Toml.Table.ofText text).bind ofTable? with
  | some c => c.checked
  | none => .error .unreadable

end CallMemo.Config
