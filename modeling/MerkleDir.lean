import MerkleDir.Arguments.Grammar
import MerkleDir.Arguments.Invocation
import MerkleDir.Bytes
import MerkleDir.ChangeSet
import MerkleDir.Command.Basic
import MerkleDir.Command.Error
import MerkleDir.Command.Program
import MerkleDir.Command.Run
import MerkleDir.Command.Scan
import MerkleDir.Config.Basic
import MerkleDir.Config.Decode
import MerkleDir.Config.File
import MerkleDir.Config.Layer
import MerkleDir.Config.Lenient
import MerkleDir.Config.Load
import MerkleDir.Config.Render
import MerkleDir.Config.Strict
import MerkleDir.Config.Variables
import MerkleDir.Decimal.Binary64
import MerkleDir.Decimal.Notation
import MerkleDir.Digest
import MerkleDir.EntryDigest
import MerkleDir.Environment
import MerkleDir.FileSystem.Basic
import MerkleDir.FileSystem.Edit
import MerkleDir.FileSystem.Image
import MerkleDir.FileSystem.Locations
import MerkleDir.FileSystem.OsError
import MerkleDir.Hash.Algorithm
import MerkleDir.Hash.Blake3
import MerkleDir.Json
import MerkleDir.Log.Directive
import MerkleDir.Log.Event
import MerkleDir.Log.Filter
import MerkleDir.Log.Record
import MerkleDir.Log.Setup
import MerkleDir.Main
import MerkleDir.MerkleTree
import MerkleDir.Path
import MerkleDir.Pattern.Basic
import MerkleDir.Pattern.Bracket
import MerkleDir.Pattern.Escape
import MerkleDir.Pattern.Flags
import MerkleDir.Pattern.Match
import MerkleDir.Pattern.Reader
import MerkleDir.Proofs.Changes.Between
import MerkleDir.Proofs.Changes.ByPosition
import MerkleDir.Proofs.Changes.Candidates
import MerkleDir.Proofs.Changes.Replay
import MerkleDir.Proofs.Command.ErrorLine
import MerkleDir.Proofs.Command.Raised
import MerkleDir.Proofs.Config.Layers
import MerkleDir.Proofs.Config.Modules
import MerkleDir.Proofs.Config.PlainNames
import MerkleDir.Proofs.Config.Precedence
import MerkleDir.Proofs.Config.Rendered
import MerkleDir.Proofs.Config.RenderedSettings
import MerkleDir.Proofs.Config.RoundTrip
import MerkleDir.Proofs.Config.Settings
import MerkleDir.Proofs.FileSystem.Leads
import MerkleDir.Proofs.FileSystem.Links
import MerkleDir.Proofs.FileSystem.PathSegments
import MerkleDir.Proofs.FileSystem.Reached
import MerkleDir.Proofs.FileSystem.Resolution
import MerkleDir.Proofs.Hashing.DigestOrder
import MerkleDir.Proofs.Hashing.DigestText
import MerkleDir.Proofs.Hashing.Inputs
import MerkleDir.Proofs.Hashing.TimestampText
import MerkleDir.Proofs.Nfc.Composition
import MerkleDir.Proofs.Nfc.Decomposition
import MerkleDir.Proofs.Nfc.NormalForm
import MerkleDir.Proofs.Nfc.Order
import MerkleDir.Proofs.Nfc.Table
import MerkleDir.Proofs.Path.Display
import MerkleDir.Proofs.Path.NormalText
import MerkleDir.Proofs.Path.Parent
import MerkleDir.Proofs.Path.RelativeParent
import MerkleDir.Proofs.Path.Segments
import MerkleDir.Proofs.Path.Stretches
import MerkleDir.Proofs.Report.Calendar
import MerkleDir.Proofs.Report.ChangeText
import MerkleDir.Proofs.Report.Coherence
import MerkleDir.Proofs.Report.EntryTimes
import MerkleDir.Proofs.Scan.BreadthFirst
import MerkleDir.Proofs.Scan.Coverage
import MerkleDir.Proofs.Scan.Discovery
import MerkleDir.Proofs.Scan.Reached
import MerkleDir.Proofs.Snapshot.Determinacy
import MerkleDir.Proofs.Snapshot.Entries
import MerkleDir.Proofs.Snapshot.Failures
import MerkleDir.Proofs.Snapshot.Followed
import MerkleDir.Proofs.Snapshot.Hashed
import MerkleDir.Proofs.Snapshot.History
import MerkleDir.Proofs.Snapshot.Identity
import MerkleDir.Proofs.Snapshot.LinkEnds
import MerkleDir.Proofs.Snapshot.Policies
import MerkleDir.Proofs.Snapshot.Records
import MerkleDir.Proofs.Snapshot.Spelling
import MerkleDir.Proofs.Snapshot.Store
import MerkleDir.Proofs.Snapshot.Subdirectories
import MerkleDir.Proofs.Snapshot.Taken
import MerkleDir.Proofs.Snapshot.Walked
import MerkleDir.Proofs.Table
import MerkleDir.Proofs.Text.Hex
import MerkleDir.Proofs.Text.JsonString
import MerkleDir.Proofs.Text.LowerCase
import MerkleDir.Proofs.Text.Utf8
import MerkleDir.Proofs.Toml.Lines
import MerkleDir.Proofs.Toml.Numbers
import MerkleDir.Proofs.Toml.Strings
import MerkleDir.Proofs.Tree.Binding
import MerkleDir.Proofs.Tree.Comparison
import MerkleDir.Proofs.Tree.Descent
import MerkleDir.Proofs.Tree.Identity
import MerkleDir.Proofs.Tree.Levels
import MerkleDir.Proofs.Tree.NodeCount
import MerkleDir.Proofs.Tree.Operations
import MerkleDir.Proofs.Tree.Reached
import MerkleDir.Proofs.Watch.Callers
import MerkleDir.Proofs.Watch.Idle
import MerkleDir.Proofs.Watch.Interleaving
import MerkleDir.Proofs.Watch.Refreshes
import MerkleDir.Report.Basic
import MerkleDir.Report.Calendar
import MerkleDir.Report.Json
import MerkleDir.Report.Text
import MerkleDir.Snapshot.Basic
import MerkleDir.Snapshot.Error
import MerkleDir.Snapshot.Options
import MerkleDir.Snapshot.Store
import MerkleDir.Snapshot.Walk
import MerkleDir.Text.Alphanumeric
import MerkleDir.Text.Blank
import MerkleDir.Text.CharClass
import MerkleDir.Text.CodePointSet
import MerkleDir.Text.CombiningClass
import MerkleDir.Text.Hex
import MerkleDir.Text.LowerCase
import MerkleDir.Text.Nfc
import MerkleDir.Text.Nfc.Table
import MerkleDir.Text.Printable
import MerkleDir.Text.Quoted
import MerkleDir.Text.Utf8
import MerkleDir.Timestamp
import MerkleDir.Toml.Character
import MerkleDir.Toml.DateTime
import MerkleDir.Toml.Document
import MerkleDir.Toml.Quotation
import MerkleDir.Toml.Scalar
import MerkleDir.Toml.Statement
import MerkleDir.Toml.Term
import MerkleDir.Toml.Writer
import MerkleDir.Watch.Directory
import MerkleDir.Watch.Session
