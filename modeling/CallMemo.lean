import CallMemo.Bench.Program
import CallMemo.Bench.Report
import CallMemo.Bench.Routine
import CallMemo.Bench.Script
import CallMemo.Bench.Worker
import CallMemo.Binary64.Basic
import CallMemo.Binary64.Decimal
import CallMemo.Binary64.Layout
import CallMemo.Binary64.Literal
import CallMemo.Binary64.Power
import CallMemo.Binary64.Rounding
import CallMemo.Cache.Basic
import CallMemo.Cache.Entry
import CallMemo.Cache.Insert
import CallMemo.Cache.Policies
import CallMemo.Cache.Policy
import CallMemo.CallSite
import CallMemo.Codec
import CallMemo.CommandLine.Arguments
import CallMemo.CommandLine.Help
import CallMemo.CommandLine.Options
import CallMemo.Config.Basic
import CallMemo.Config.Document
import CallMemo.Config.Environment
import CallMemo.Config.Toml
import CallMemo.Engine.Basic
import CallMemo.Engine.Dispatch
import CallMemo.Engine.Shared
import CallMemo.Engine.WarmStart
import CallMemo.Error
import CallMemo.Failure
import CallMemo.Identity
import CallMemo.Json.Numeral
import CallMemo.Json.Printer
import CallMemo.Json.Reader
import CallMemo.Json.Skip
import CallMemo.Json.Typed
import CallMemo.Log.Event
import CallMemo.Log.Filter
import CallMemo.Log.Pattern
import CallMemo.Log.Pattern.CharacterClass
import CallMemo.Log.Pattern.Element
import CallMemo.Main
import CallMemo.Metrics
import CallMemo.PostState.Basic
import CallMemo.PostState.Document
import CallMemo.Proofs.Cache.Accounting
import CallMemo.Proofs.Cache.LeastRecent
import CallMemo.Proofs.Cache.Placement
import CallMemo.Proofs.Cache.Queue
import CallMemo.Proofs.Cache.Recency
import CallMemo.Proofs.Cache.Residency
import CallMemo.Proofs.Cache.Run
import CallMemo.Proofs.Cache.Victims
import CallMemo.Proofs.Cache.View
import CallMemo.Proofs.Engine.Dispatching
import CallMemo.Proofs.Engine.Freshness
import CallMemo.Proofs.Engine.Session
import CallMemo.Proofs.Engine.Transparency
import CallMemo.Purity
import CallMemo.Snapshot.Basic
import CallMemo.Snapshot.File
import CallMemo.Snapshot.Printer
import CallMemo.Snapshot.Reader
import CallMemo.Text.Alphanumeric
import CallMemo.Text.Blank
import CallMemo.Text.Hex
import CallMemo.Text.Integer
import CallMemo.Text.Terminal
import CallMemo.Toml.Document
import CallMemo.Toml.Number
import CallMemo.Toml.Text
import CallMemo.Toml.Value
import CallMemo.Proofs.Engine.Direct
import CallMemo.Proofs.Engine.Filing
import CallMemo.Proofs.Engine.Demotion
import CallMemo.Proofs.Engine.Export
import CallMemo.Proofs.Engine.Restoring
import CallMemo.Proofs.Cache.Isolation
import CallMemo.Proofs.Json.Reading
import CallMemo.Proofs.Json.Pretty
import CallMemo.Proofs.Snapshot.RoundTrip
import CallMemo.Proofs.Cache.Calls
import CallMemo.Proofs.Cache.Journal
import CallMemo.Proofs.Engine.Events
import CallMemo.Proofs.Engine.Tally
import CallMemo.Proofs.Engine.Uses
import CallMemo.Proofs.Engine.Survey
import CallMemo.Proofs.Engine.Registry
import CallMemo.Proofs.Engine.Lifecycle
import CallMemo.Proofs.Bench.Iteration
import CallMemo.Proofs.Engine.Queueing
import CallMemo.Proofs.Bench.Rotation
import CallMemo.Proofs.Bench.Pure
import CallMemo.Proofs.Bench.Drifting
import CallMemo.Proofs.Cache.Reclaiming
import CallMemo.Proofs.Cache.Insertion
import CallMemo.Proofs.Cache.Effect
import CallMemo.Proofs.Cache.Refusal
import CallMemo.Proofs.Cache.Tour
import CallMemo.Proofs.Cache.Stalest
import CallMemo.Proofs.Engine.Failing
import CallMemo.Proofs.Config.Validity
import CallMemo.Proofs.CommandLine.Overriding
import CallMemo.Proofs.Cache.EmptyShard
import CallMemo.Proofs.Engine.Admission
import CallMemo.Proofs.Engine.Canonical
import CallMemo.Proofs.Cache.Stocking
import CallMemo.Proofs.Engine.Retention
import CallMemo.Proofs.PostState.Application
import CallMemo.Proofs.Text.Literal
import CallMemo.Proofs.Binary64.Literal
import CallMemo.Proofs.Config.Environment
import CallMemo.Proofs.Json.Grammar
import CallMemo.Proofs.Json.Tokens
import CallMemo.Proofs.Json.Skipping
import CallMemo.Proofs.Json.Gathering
import CallMemo.Proofs.Json.Filling
import CallMemo.Proofs.Snapshot.Fields
import CallMemo.Proofs.Snapshot.Acceptance
