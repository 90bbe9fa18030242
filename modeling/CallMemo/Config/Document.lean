import CallMemo.Config.Basic
import CallMemo.Json.Typed
import CallMemo.Json.Printer

/-!
# Settings as JSON

Every setting may be left out of a document and keeps its default then. Numbers that are not
finite have no form in JSON and are written as null.
-/

namespace CallMemo

namespace Config

/-- Settings whose members are being read. -/
structure Draft where
  /-- The bound per site, once read. -/
  perSite : Option UInt64 := none
  /-- The bound in all, once read. -/
  total : Option UInt64 := none
  /-- The sample rate, once read. -/
  rate : Option Binary64 := none
  /-- Whether entries are dropped on demotion, once read. -/
  invalidate : Option Bool := none

/-- The settings that a draft stands for. -/
def Draft.settings (d : Draft) : Config :=
  let base : Config := {}
  { maxEntriesPerSite := d.perSite.getD base.maxEntriesPerSite
    maxTotalEntries := d.total.getD base.maxTotalEntries
    validationSampleRate := d.rate.getD base.validationSampleRate
    invalidateOnDemotion := d.invalidate.getD base.invalidateOnDemotion }

/-- The record of the settings. -/
def record : Json.Record Draft Config where
  blank := {}
  members :=
    [ ⟨"max_entries_per_site", (·.perSite.isSome),
        fun d => do return { d with perSite := some (← Json.Reader.uint64) }⟩,
      ⟨"max_total_entries", (·.total.isSome),
        fun d => do return { d with total := some (← Json.Reader.uint64) }⟩,
      ⟨"validation_sample_rate", (·.rate.isSome),
        fun d => do return { d with rate := some (← Json.Reader.binary64) }⟩,
      ⟨"invalidate_on_demotion", (·.invalidate.isSome),
        fun d => do return { d with invalidate := some (← Json.Reader.bool) }⟩ ]
  complete d := .ok d.settings

/-- Reads settings from JSON text, without checking them. -/
def ofJson (text : String) : Except Json.Fault Config := Json.readText record.read text

/-- The settings as compact JSON. -/
def toJson (c : Config) : String :=
  let rate := c.validationSampleRate
  let rateText := if rate.isFinite then Layout.document.render rate else "null"
  Json.compact "\x7b" "\x7d"
    [ s!"\"max_entries_per_site\":{c.maxEntriesPerSite}",
      s!"\"max_total_entries\":{c.maxTotalEntries}",
      s!"\"validation_sample_rate\":{rateText}",
      s!"\"invalidate_on_demotion\":{c.invalidateOnDemotion}" ]

end Config

end CallMemo
