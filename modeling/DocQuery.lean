import DocQuery.Cache.Results
import DocQuery.Cache.Ttl
import DocQuery.Calendar
import DocQuery.Config
import DocQuery.Config.File
import DocQuery.Connection
import DocQuery.Debounce
import DocQuery.Discovery.Attribute
import DocQuery.Discovery.Profile
import DocQuery.Discovery.Shape
import DocQuery.Document.Basic
import DocQuery.Document.Columns
import DocQuery.Engine.Basic
import DocQuery.Engine.Client
import DocQuery.Engine.Discovery
import DocQuery.Engine.Load
import DocQuery.Engine.State
import DocQuery.Engine.Timeline
import DocQuery.Engine.Write
import DocQuery.Failure
import DocQuery.FieldType
import DocQuery.Filter.Active
import DocQuery.Filter.Basic
import DocQuery.Filter.Wire
import DocQuery.History
import DocQuery.Json.Basic
import DocQuery.Json.Decode
import DocQuery.Json.Number
import DocQuery.Json.Reader
import DocQuery.Main
import DocQuery.Numeric.Binary
import DocQuery.Numeric.Digits
import DocQuery.Numeric.Shortest
import DocQuery.Numeric.Text
import DocQuery.Paging
import DocQuery.Pattern.CharSet
import DocQuery.Pattern.CharSetReader
import DocQuery.Pattern.Glob
import DocQuery.Pattern.Regex
import DocQuery.Pattern.RegexReader
import DocQuery.Proofs.Cache.Ttl
import DocQuery.Proofs.Discovery.Types
import DocQuery.Proofs.Engine.Cached
import DocQuery.Proofs.Engine.Client
import DocQuery.Proofs.Engine.Fetch
import DocQuery.Proofs.Engine.Freshness
import DocQuery.Proofs.Engine.Generation
import DocQuery.Proofs.Engine.Interleaving
import DocQuery.Proofs.Engine.Requests
import DocQuery.Proofs.Engine.Session
import DocQuery.Proofs.Engine.Typed
import DocQuery.Proofs.FieldType
import DocQuery.Proofs.Numeric.Rounding
import DocQuery.Proofs.Numeric.Shortest
import DocQuery.Proofs.Numeric.Text
import DocQuery.Proofs.Numeric.Whole
import DocQuery.Proofs.Paging.Boundaries
import DocQuery.Proofs.Paging.Slices
import DocQuery.Proofs.Record
import DocQuery.Proofs.Sorting
import DocQuery.Proofs.Store.Ranking
import DocQuery.Proofs.Value.Order
import DocQuery.Record
import DocQuery.Request.Query
import DocQuery.Request.Write
import DocQuery.Shell.Arguments
import DocQuery.Shell.Command
import DocQuery.Shell.Elapsed
import DocQuery.Shell.Launch
import DocQuery.Shell.Report
import DocQuery.Shell.Session
import DocQuery.Shell.Style
import DocQuery.Shell.Table
import DocQuery.Sorting
import DocQuery.Store.Backend
import DocQuery.Store.Basic
import DocQuery.Store.Predicate
import DocQuery.Text.Basic
import DocQuery.Text.Case
import DocQuery.Text.Category
import DocQuery.Text.Script
import DocQuery.Toml.Reader
import DocQuery.Toml.Scalar
import DocQuery.Toml.Table
import DocQuery.Toml.Token
import DocQuery.Value.Basic
import DocQuery.Value.Order
import DocQuery.Proofs.Engine.Tasks
import DocQuery.Proofs.Value.Json
import DocQuery.Proofs.Filter.Wire
import DocQuery.Proofs.Value.Preorder
import DocQuery.Proofs.Json.Print
import DocQuery.Proofs.Store.Writes
import DocQuery.Proofs.Document.Columns
import DocQuery.Proofs.Engine.Upsert
import DocQuery.Proofs.Engine.Provenance
import DocQuery.Proofs.Engine.Failing
import DocQuery.Proofs.Store.Counting
import DocQuery.Proofs.Engine.Totals
import DocQuery.Proofs.Paging.Grounded
import DocQuery.Proofs.Engine.Reload
import DocQuery.Proofs.Engine.Actions
import DocQuery.Proofs.Engine.FirstPage
import DocQuery.Proofs.Engine.Appending
import DocQuery.Proofs.Engine.TurningBack
import DocQuery.Proofs.Cache.Runs
import DocQuery.Proofs.Engine.Keys
import DocQuery.Proofs.Store.Keyed
import DocQuery.Proofs.Store.Permuted
import DocQuery.Proofs.History
import DocQuery.Proofs.Value.Equality
import DocQuery.Proofs.Document.Data
import DocQuery.Proofs.Discovery.Shuffled
import DocQuery.Proofs.Request.Wire
import DocQuery.Proofs.Store.ReadBack
import DocQuery.Proofs.Connection
import DocQuery.Proofs.Store.Patching
import DocQuery.Proofs.Discovery.Joined
import DocQuery.Proofs.Discovery.Batch
import DocQuery.Proofs.Discovery.Sorted
import DocQuery.Proofs.Numeric.Floor
import DocQuery.Proofs.FieldType.Idempotent
import DocQuery.Proofs.FieldType.Integers
import DocQuery.Proofs.Discovery.Patterns
import DocQuery.Proofs.Pattern.Glob
import DocQuery.Proofs.Pattern.Regex
import DocQuery.Proofs.Pattern.Translation
import DocQuery.Proofs.Filter.Conjunction
import DocQuery.Proofs.Filter.Complement
import DocQuery.Proofs.Pattern.Groups
import DocQuery.Proofs.Filter.Containment
import DocQuery.Proofs.Value.Keys
import DocQuery.Proofs.Debounce
import DocQuery.Proofs.Text
import DocQuery.Proofs.Store.Deleting
import DocQuery.Proofs.Shell.Command
import DocQuery.Proofs.Shell.Deleting
import DocQuery.Proofs.Shell.Table
import DocQuery.Proofs.Paging.Words
