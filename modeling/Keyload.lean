import Keyload.Churn.Activity
import Keyload.Churn.Slots
import Keyload.CommandLine.Arguments
import Keyload.CommandLine.Conclusion
import Keyload.Error
import Keyload.Fault
import Keyload.KeySpace.Basic
import Keyload.KeySpace.Bounded
import Keyload.KeySpace.Cursor
import Keyload.KeySpace.Lists
import Keyload.Log
import Keyload.Main
import Keyload.Number.Binary64
import Keyload.Number.Decimal
import Keyload.Number.Duration
import Keyload.Number.Floating
import Keyload.Number.Places
import Keyload.Number.Radix
import Keyload.Number.Sum
import Keyload.Pattern.Basic
import Keyload.Pattern.Builder
import Keyload.Pattern.Compiler
import Keyload.Pattern.Format
import Keyload.Pattern.Level
import Keyload.Pattern.Value
import Keyload.Pattern.ValueSpec
import Keyload.Proofs.Churn.Carried
import Keyload.Proofs.Churn.Slots
import Keyload.Proofs.Churn.Subtrees
import Keyload.Proofs.KeySpace.Names
import Keyload.Proofs.KeySpace.Populated
import Keyload.Proofs.KeySpace.Walk
import Keyload.Proofs.Pattern.ByName
import Keyload.Proofs.Pattern.Compiled
import Keyload.Proofs.Pattern.VisitOrder
import Keyload.Proofs.Random.Library
import Keyload.Proofs.Random.Script
import Keyload.Proofs.Run.Conservation
import Keyload.Proofs.Run.FilledEngine
import Keyload.Proofs.Run.Frame
import Keyload.Proofs.Run.Ledger
import Keyload.Proofs.Run.Loading
import Keyload.Proofs.Run.Turns
import Keyload.Proofs.Run.VisitedEngine
import Keyload.Proofs.Stats.Counted
import Keyload.Proofs.Store.Contents
import Keyload.Random.Source
import Keyload.Random.Uniform
import Keyload.Random.Xoshiro
import Keyload.Rate
import Keyload.Regex.Basic
import Keyload.Regex.Charset
import Keyload.Regex.Reader
import Keyload.Regex.Sampler
import Keyload.Regex.Shape
import Keyload.Regex.Tree
import Keyload.Run.Backoff
import Keyload.Run.Conducting
import Keyload.Run.Course
import Keyload.Run.Dispatcher
import Keyload.Run.Engine
import Keyload.Run.Producer
import Keyload.Run.Producing
import Keyload.Run.Reporter
import Keyload.Run.Schedule
import Keyload.Run.Sentinel
import Keyload.Run.Split
import Keyload.Run.State
import Keyload.Run.Step
import Keyload.Run.Watching
import Keyload.Run.Working
import Keyload.Settings.Basic
import Keyload.Settings.Layers
import Keyload.Settings.Reading
import Keyload.Settings.Toml.Basic
import Keyload.Settings.Toml.Moment
import Keyload.Settings.Toml.Scalar
import Keyload.Settings.Toml.Tree
import Keyload.Settings.Validation
import Keyload.Settings.Value
import Keyload.Settings.Writing
import Keyload.Signals
import Keyload.Stats.Metrics
import Keyload.Stats.Recorder
import Keyload.Stats.Report
import Keyload.Stats.Tally
import Keyload.Store.Client
import Keyload.Store.Feed
import Keyload.Store.Memory
import Keyload.Store.Operation
import Keyload.Store.Pool
import Keyload.Store.Site
import Keyload.Text.Blank
import Keyload.Text.Case
import Keyload.Text.Lower
import Keyload.Text.Quoted
import Keyload.Text.Split
import Keyload.Text.WordChars
import Keyload.Watch.Counts
import Keyload.Watch.Plan
import Keyload.Watch.Replay
import Keyload.Watch.Stream
import Keyload.Watch.Watcher
import Keyload.Proofs.Store.Ordered
import Keyload.Proofs.Store.FiniteMap
import Keyload.Proofs.KeySpace.NestedLoops
import Keyload.Proofs.KeySpace.Passes
import Keyload.Proofs.Churn.Sent
import Keyload.Proofs.Run.ChurnedTree
import Keyload.Proofs.Churn.Cycles
import Keyload.Proofs.Store.Renewal
import Keyload.Proofs.Watch.Notices
import Keyload.Proofs.Run.TestEnd
import Keyload.Proofs.Run.Reports
import Keyload.Proofs.Pattern.Recompiled
import Keyload.Proofs.Pattern.WellFormed
import Keyload.Proofs.Run.LoadedEngine
import Keyload.Proofs.Stats.Accounted
import Keyload.Proofs.Run.WorkerMoves
import Keyload.Proofs.Run.Deeds
import Keyload.Proofs.Run.ProducerMoves
import Keyload.Proofs.Run.Joins
import Keyload.Proofs.Run.BadDefinition
import Keyload.Proofs.KeySpace.Leaves
import Keyload.Proofs.Churn.Inside
import Keyload.Proofs.Run.InsideTree
import Keyload.Proofs.Run.Heeded
import Keyload.Proofs.Run.Lines
import Keyload.Proofs.Run.Signalled
import Keyload.Proofs.Run.Fitting
import Keyload.Proofs.Run.WindingDown
import Keyload.Proofs.Run.Unstuck
import Keyload.Proofs.Run.LostClient
import Keyload.Proofs.Watch.Delivered
import Keyload.Proofs.Run.Fickle
import Keyload.Proofs.Run.Unread
import Keyload.Proofs.Run.Watched
import Keyload.Proofs.Run.Guarded
import Keyload.Proofs.Run.Rosters
import Keyload.Proofs.Run.Cancelled
import Keyload.Proofs.Stats.Measured
import Keyload.Proofs.KeySpace.Partition
import Keyload.Proofs.Churn.Reads
import Keyload.Proofs.KeySpace.Lists
import Keyload.Proofs.Run.Shares
import Keyload.Proofs.Watch.Plans
import Keyload.Proofs.Run.Callers
import Keyload.Proofs.Run.Pacing
import Keyload.Proofs.Run.Retries
import Keyload.Proofs.Number.Numerals
import Keyload.Proofs.Pattern.Spelling
import Keyload.Proofs.Pattern.Declared
import Keyload.Proofs.Pattern.Numbering
import Keyload.Proofs.KeySpace.Addresses
import Keyload.Proofs.Pattern.Drawn
import Keyload.Proofs.KeySpace.Distinct
import Keyload.Proofs.Pattern.Overridden
import Keyload.Proofs.Pattern.DigitRuns
