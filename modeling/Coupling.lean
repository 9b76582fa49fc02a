import Coupling.Activity
import Coupling.Batch.Meter
import Coupling.Batch.Pool
import Coupling.Batch.Report
import Coupling.Batch.Run
import Coupling.Batch.Staged
import Coupling.Batch.Worker
import Coupling.Cache.Entry
import Coupling.Cache.Location
import Coupling.Cache.Results
import Coupling.Cache.Timestamp
import Coupling.ClassSize
import Coupling.Digest.Hex
import Coupling.Digest.Sha256
import Coupling.Digest.XxHash
import Coupling.Disk.Basic
import Coupling.Disk.Change
import Coupling.Disk.Discovery
import Coupling.Finding.Basic
import Coupling.Finding.Failure
import Coupling.Finding.Record
import Coupling.Finding.Summary
import Coupling.Function.Annotation
import Coupling.Function.Duplicate
import Coupling.Function.Position
import Coupling.Function.Shape
import Coupling.Function.Signature
import Coupling.Function.Tally
import Coupling.Ignore.Pattern
import Coupling.Ignore.Rules
import Coupling.Json.Decode
import Coupling.Json.Number
import Coupling.Json.Printer
import Coupling.Json.Reader
import Coupling.Json.Value
import Coupling.Literal.Line
import Coupling.Literal.Magic
import Coupling.Literal.Numeral
import Coupling.Literal.Quoted
import Coupling.Name.Usage
import Coupling.Number.Binary64
import Coupling.Number.Decimal
import Coupling.Number.Fixed
import Coupling.Number.Shortest
import Coupling.Paths.Exclusion
import Coupling.Paths.Glob
import Coupling.Paths.Path
import Coupling.Proofs.Batch.Guards
import Coupling.Proofs.Batch.History
import Coupling.Proofs.Batch.Order
import Coupling.Proofs.Batch.Repeats
import Coupling.Proofs.Batch.Schedules
import Coupling.Proofs.Batch.Stops
import Coupling.Proofs.Batch.Visits
import Coupling.Proofs.Batch.Worker
import Coupling.Proofs.Cache.Answers
import Coupling.Proofs.Cache.AsMap
import Coupling.Proofs.Cache.Damage
import Coupling.Proofs.Cache.Frame
import Coupling.Proofs.Cache.Kept
import Coupling.Proofs.Cache.Key
import Coupling.Proofs.Cache.Queue
import Coupling.Proofs.Cache.Sound
import Coupling.Proofs.Cache.Stamps
import Coupling.Proofs.Disk.Contents
import Coupling.Proofs.Disk.Locations
import Coupling.Proofs.Disk.Pruning
import Coupling.Proofs.Finding.Distinct
import Coupling.Proofs.Finding.Identity
import Coupling.Proofs.Finding.Origin
import Coupling.Proofs.Finding.Sites
import Coupling.Proofs.Finding.Summary
import Coupling.Proofs.Function.Counts
import Coupling.Proofs.Function.Decorators
import Coupling.Proofs.Function.Duplicates
import Coupling.Proofs.Function.Flattening
import Coupling.Proofs.Function.Groups
import Coupling.Proofs.Function.Outline
import Coupling.Proofs.Function.Parameters
import Coupling.Proofs.Function.Receivers
import Coupling.Proofs.Function.Skeleton
import Coupling.Proofs.Json.Unambiguous
import Coupling.Proofs.Literal.Escapes
import Coupling.Proofs.Literal.Integers
import Coupling.Proofs.Literal.Security
import Coupling.Proofs.Name.Usage
import Coupling.Proofs.Number.Rounding
import Coupling.Proofs.Number.Shortest
import Coupling.Proofs.Number.Values
import Coupling.Proofs.Number.Written
import Coupling.Proofs.Paths.Below
import Coupling.Proofs.Paths.Shown
import Coupling.Proofs.Settings.Encoding
import Coupling.Proofs.Settings.Exclusions
import Coupling.Proofs.Settings.Nearest
import Coupling.Proofs.Survey.Frames
import Coupling.Proofs.Syntax.Lines
import Coupling.Proofs.Syntax.Places
import Coupling.Proofs.Syntax.Search
import Coupling.Proofs.Text.Lines
import Coupling.Proofs.Text.Lossy
import Coupling.Proofs.Text.Lower
import Coupling.Proofs.Text.Separated
import Coupling.Proofs.Text.Utf8
import Coupling.Proofs.Walk.Counters
import Coupling.Proofs.Walk.Events
import Coupling.Proofs.Walk.Faults
import Coupling.Proofs.Walk.Looser
import Coupling.Proofs.Walk.Scopes
import Coupling.Proofs.Walk.Steps
import Coupling.Settings.Basic
import Coupling.Settings.Decode
import Coupling.Settings.Load
import Coupling.Settings.Validate
import Coupling.Survey.Basic
import Coupling.Survey.File
import Coupling.Survey.Walk
import Coupling.Syntax.NodeKind
import Coupling.Syntax.Search
import Coupling.Syntax.Source
import Coupling.Syntax.Tree
import Coupling.Text.Blank
import Coupling.Text.Lines
import Coupling.Text.Lower
import Coupling.Text.Search
import Coupling.Text.Slice
import Coupling.Text.Utf8
import Coupling.Text.Word
import Coupling.Toml.Quoted
import Coupling.Toml.Reader
import Coupling.Toml.Scalar
import Coupling.Toml.Table
