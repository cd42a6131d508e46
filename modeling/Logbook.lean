import Logbook.Arguments
import Logbook.CallSite
import Logbook.Configuration.Apply
import Logbook.Configuration.Basic
import Logbook.Configuration.Document
import Logbook.Configuration.Wiring
import Logbook.Decimal.Binary
import Logbook.Decimal.Fixed
import Logbook.Decimal.Notation
import Logbook.Decimal.Power
import Logbook.Decimal.Shortest
import Logbook.Error
import Logbook.Exception
import Logbook.FileMode
import Logbook.Files.Gzip
import Logbook.Files.Operations
import Logbook.Files.Tree
import Logbook.Files.Walk
import Logbook.Filter
import Logbook.Formatter
import Logbook.Handler
import Logbook.Hub
import Logbook.Json.Cursor
import Logbook.Json.Fault
import Logbook.Json.Number
import Logbook.Json.Shape
import Logbook.Json.Text
import Logbook.Json.Tree
import Logbook.Level
import Logbook.Listener
import Logbook.LogFile
import Logbook.Logging
import Logbook.Metrics
import Logbook.Path
import Logbook.Proofs.Delivery.Dispatch
import Logbook.Proofs.Hierarchy.Levels
import Logbook.Proofs.Hierarchy.Loops
import Logbook.Proofs.Hierarchy.Placement
import Logbook.Proofs.Hierarchy.Run
import Logbook.Proofs.Names
import Logbook.Proofs.Results
import Logbook.Proofs.Table
import Logbook.Queue
import Logbook.Record
import Logbook.Registry
import Logbook.Rotation.Archive
import Logbook.Rotation.Compressed
import Logbook.Rotation.Policy
import Logbook.Rotation.Schedule
import Logbook.Rotation.Size
import Logbook.Rotation.Timed
import Logbook.Rotation.Watched
import Logbook.Session
import Logbook.Sink
import Logbook.Sink.File
import Logbook.Sink.Memory
import Logbook.Sink.Probe
import Logbook.Sink.Socket
import Logbook.Sink.Stream
import Logbook.Store
import Logbook.Store.Release
import Logbook.Table
import Logbook.Template.BraceField
import Logbook.Template.Conversion
import Logbook.Template.FieldText
import Logbook.Template.Piece
import Logbook.Template.Placeholder
import Logbook.Template.Style
import Logbook.Template.Written
import Logbook.Text.Alphanumeric
import Logbook.Text.Bytes
import Logbook.Text.Blank
import Logbook.Text.Combining
import Logbook.Text.Hidden
import Logbook.Text.Quoted
import Logbook.Text.Range
import Logbook.Time.Date
import Logbook.Time.Pattern
import Logbook.Time.Span
import Logbook.Time.TimeOfDay
import Logbook.Time.Zone
import Logbook.Value
import Logbook.World
import Logbook.Proofs.Queue.Feed
import Logbook.Proofs.Queue.Pipeline
import Logbook.Proofs.Queue.Crossing
import Logbook.Proofs.Files.Entries
import Logbook.Proofs.Files.Way
import Logbook.Proofs.Files.Spelling
import Logbook.Proofs.Files.Places
import Logbook.Proofs.Files.Live
import Logbook.Proofs.Rotation.Backups
import Logbook.Proofs.Rotation.Shift
import Logbook.Proofs.Rotation.Size
import Logbook.Proofs.Files.Alike
import Logbook.Proofs.Rotation.SizeRun
import Logbook.Proofs.Time.Summer
import Logbook.Proofs.Rotation.Schedule
import Logbook.Proofs.Rotation.Instants
import Logbook.Proofs.Rotation.Stamp
import Logbook.Proofs.Files.WellFormed
import Logbook.Proofs.Files.Opened
import Logbook.Proofs.Rotation.Retention
import Logbook.Proofs.Rotation.ArchivesKept
import Logbook.Proofs.Rotation.Watched
import Logbook.Proofs.Rotation.Stock
import Logbook.Proofs.Configuration.Loggers
import Logbook.Proofs.Configuration.Documents
import Logbook.Proofs.Rotation.Succession
import Logbook.Proofs.Delivery.Buffering
import Logbook.Proofs.Hierarchy.Standing
import Logbook.Proofs.Delivery.Persistence
import Logbook.Proofs.Delivery.Shutdown
import Logbook.Proofs.Delivery.Acceptance
import Logbook.Proofs.Configuration.Built
import Logbook.Proofs.Configuration.Sections
import Logbook.Proofs.Configuration.InUse
import Logbook.Proofs.Configuration.Failures
import Logbook.Proofs.Configuration.Shape
import Logbook.Proofs.Configuration.Again
import Logbook.Proofs.Configuration.Refused
import Logbook.Proofs.Template.Spelling
import Logbook.Proofs.Template.Agreement
import Logbook.Proofs.Template.Grammar
import Logbook.Proofs.Template.Conversions
import Logbook.Proofs.Template.Merging
import Logbook.Proofs.Template.Tokens
import Logbook.Proofs.Rendering.Kept
import Logbook.Proofs.Rendering.Changes
import Logbook.Proofs.Delivery.CallStack
import Logbook.Proofs.Files.Prepared
import Logbook.Proofs.Files.Replacement
import Logbook.Proofs.Files.Carried
import Logbook.Proofs.Delivery.FileCalls
import Logbook.Proofs.Delivery.PlainFile
import Logbook.Proofs.Files.Gzip
import Logbook.Proofs.Files.Held
import Logbook.Proofs.Rotation.Holdings
import Logbook.Proofs.Rotation.Filing
import Logbook.Proofs.Rotation.Turnover
import Logbook.Proofs.Rotation.Mirrored
import Logbook.Proofs.Rotation.Generations
import Logbook.Proofs.Rotation.Unhindered
import Logbook.Proofs.Rotation.FullLines
import Logbook.Proofs.Rotation.LocalNames
import Logbook.Proofs.Rotation.LocalClashes
import Logbook.Proofs.Rotation.FreshNames
import Logbook.Proofs.Template.BraceGrammar
import Logbook.Proofs.Template.Specifiers
import Logbook.Proofs.Template.BraceTokens
import Logbook.Proofs.Template.Integers
import Logbook.Proofs.Template.Unsigned
import Logbook.Proofs.Template.Presentation
import Logbook.Proofs.Template.Expansion
import Logbook.Proofs.Rendering.Resolution
import Logbook.Proofs.Template.Placeholders
import Logbook.Proofs.Template.Marks
import Logbook.Proofs.Rendering.TimeFields
import Logbook.Proofs.Configuration.Construction
import Logbook.Proofs.Configuration.References
import Logbook.Proofs.Hierarchy.Ancestors
import Logbook.Proofs.Configuration.Descendants
import Logbook.Proofs.Delivery.Reconnection
import Logbook.Proofs.Rotation.Selection
import Logbook.Proofs.Delivery.Course
import Logbook.Proofs.Delivery.Accounting
import Logbook.Proofs.Rotation.Compression
