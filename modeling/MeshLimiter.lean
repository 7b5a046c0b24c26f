import MeshLimiter.Cluster.Basic
import MeshLimiter.Cluster.Call
import MeshLimiter.Cluster.Error
import MeshLimiter.Cluster.Exchange
import MeshLimiter.Cluster.Fault
import MeshLimiter.Compile
import MeshLimiter.Compile.Fragment
import MeshLimiter.Compile.Plan
import MeshLimiter.Compile.Resolution
import MeshLimiter.Compile.VirtualHost
import MeshLimiter.Decimal.Binary64
import MeshLimiter.Decimal.Duration
import MeshLimiter.Decimal.Integer
import MeshLimiter.Decimal.Literal
import MeshLimiter.Decimal.Nearest
import MeshLimiter.Decimal.Shortest
import MeshLimiter.Digest.Sha256
import MeshLimiter.Filter.Basic
import MeshLimiter.Filter.Document
import MeshLimiter.Filter.Name
import MeshLimiter.Http.Form
import MeshLimiter.Http.Message
import MeshLimiter.Http.Status
import MeshLimiter.Index.Basic
import MeshLimiter.Index.Host
import MeshLimiter.Index.Limiters
import MeshLimiter.Index.Slices
import MeshLimiter.Index.Subsets
import MeshLimiter.Json.Basic
import MeshLimiter.Json.Reader
import MeshLimiter.Json.Record
import MeshLimiter.Json.Writer
import MeshLimiter.Labels
import MeshLimiter.Limiter.Definition
import MeshLimiter.Limiter.Descriptor
import MeshLimiter.Limiter.Document
import MeshLimiter.Limiter.Interval
import MeshLimiter.Log.Event
import MeshLimiter.Log.Filter
import MeshLimiter.Main
import MeshLimiter.Material
import MeshLimiter.Metrics.Tally
import MeshLimiter.Options.Address
import MeshLimiter.Options.Basic
import MeshLimiter.Options.Reading
import MeshLimiter.Options.Start
import MeshLimiter.Pass
import MeshLimiter.Pass.Application
import MeshLimiter.Pass.Collection
import MeshLimiter.Pass.Document
import MeshLimiter.Pass.Memory
import MeshLimiter.Pass.Outcome
import MeshLimiter.Pass.Registration
import MeshLimiter.Pass.Settings
import MeshLimiter.Program.Basic
import MeshLimiter.Program.Step
import MeshLimiter.Program.World
import MeshLimiter.Proofs.Compile.Agreement
import MeshLimiter.Proofs.Compile.Checksum
import MeshLimiter.Proofs.Compile.Coverage
import MeshLimiter.Proofs.Compile.Grouping
import MeshLimiter.Proofs.Compile.Keys
import MeshLimiter.Proofs.Compile.Patches
import MeshLimiter.Proofs.Compile.Resolution
import MeshLimiter.Proofs.Compile.Rules
import MeshLimiter.Proofs.Compile.Shared
import MeshLimiter.Proofs.Compile.Subsets
import MeshLimiter.Proofs.Compile.Values
import MeshLimiter.Proofs.Decimal.Literal
import MeshLimiter.Proofs.Decimal.Whole
import MeshLimiter.Proofs.Filter.Document
import MeshLimiter.Proofs.Filter.Name
import MeshLimiter.Proofs.Index
import MeshLimiter.Proofs.Index.Host
import MeshLimiter.Proofs.Index.Notice
import MeshLimiter.Proofs.Index.Sizes
import MeshLimiter.Proofs.Index.Slices
import MeshLimiter.Proofs.Index.Subsets
import MeshLimiter.Proofs.Json.Alike
import MeshLimiter.Proofs.Json.Form
import MeshLimiter.Proofs.Json.Reading
import MeshLimiter.Proofs.Json.Record
import MeshLimiter.Proofs.Json.Texts
import MeshLimiter.Proofs.Json.Writer
import MeshLimiter.Proofs.Labels
import MeshLimiter.Proofs.Limiter.Document
import MeshLimiter.Proofs.Limiter.Interval
import MeshLimiter.Proofs.Material
import MeshLimiter.Proofs.Pass.Apart
import MeshLimiter.Proofs.Pass.Application
import MeshLimiter.Proofs.Pass.Collection
import MeshLimiter.Proofs.Pass.Commands
import MeshLimiter.Proofs.Pass.Course
import MeshLimiter.Proofs.Pass.Deletion
import MeshLimiter.Proofs.Pass.Effects
import MeshLimiter.Proofs.Pass.Filters
import MeshLimiter.Proofs.Pass.Finality
import MeshLimiter.Proofs.Pass.History
import MeshLimiter.Proofs.Pass.Isolation
import MeshLimiter.Proofs.Pass.Noting
import MeshLimiter.Proofs.Pass.Outcome
import MeshLimiter.Proofs.Pass.Overtaking
import MeshLimiter.Proofs.Pass.Ownership
import MeshLimiter.Proofs.Pass.Parts
import MeshLimiter.Proofs.Pass.Phases
import MeshLimiter.Proofs.Pass.Protocol
import MeshLimiter.Proofs.Pass.Quiescence
import MeshLimiter.Proofs.Pass.Registration
import MeshLimiter.Proofs.Pass.Repetition
import MeshLimiter.Proofs.Pass.Retention
import MeshLimiter.Proofs.Pass.Revision
import MeshLimiter.Proofs.Pass.Scene
import MeshLimiter.Proofs.Pass.Selection
import MeshLimiter.Proofs.Pass.Skipping
import MeshLimiter.Proofs.Pass.Tracking
import MeshLimiter.Proofs.Pass.Validity
import MeshLimiter.Proofs.Program.Alone
import MeshLimiter.Proofs.Program.Answers
import MeshLimiter.Proofs.Program.Interleaving
import MeshLimiter.Proofs.Program.Protocol
import MeshLimiter.Proofs.Program.Runs
import MeshLimiter.Proofs.Program.Takes
import MeshLimiter.Proofs.Program.Trace
import MeshLimiter.Proofs.Query.Counting
import MeshLimiter.Proofs.Query.Gather
import MeshLimiter.Proofs.Query.Keeping
import MeshLimiter.Proofs.Query.Members
import MeshLimiter.Proofs.Query.Pods
import MeshLimiter.Proofs.Query.Reference
import MeshLimiter.Proofs.Query.Rendering
import MeshLimiter.Proofs.Queue
import MeshLimiter.Proofs.Queue.Size
import MeshLimiter.Proofs.Queue.Traces
import MeshLimiter.Proofs.Registry.Contents
import MeshLimiter.Proofs.Registry.Document
import MeshLimiter.Proofs.Registry.Frame
import MeshLimiter.Proofs.Registry.Marker
import MeshLimiter.Proofs.Registry.Quiescence
import MeshLimiter.Proofs.Registry.Replacement
import MeshLimiter.Proofs.Registry.Writers
import MeshLimiter.Proofs.Resource.Document
import MeshLimiter.Proofs.Store
import MeshLimiter.Proofs.Template.Evaluation
import MeshLimiter.Proofs.Template.Grammar
import MeshLimiter.Proofs.Template.Layout
import MeshLimiter.Proofs.Template.Rendering
import MeshLimiter.Proofs.Template.Spelling
import MeshLimiter.Proofs.Template.Substitution
import MeshLimiter.Proofs.Text.Bytes
import MeshLimiter.Proofs.Text.Quoted
import MeshLimiter.Proofs.Text.Search
import MeshLimiter.Proofs.Work.Backoff
import MeshLimiter.Proofs.Work.Delivery
import MeshLimiter.Proofs.Work.Desk
import MeshLimiter.Proofs.Work.Recency
import MeshLimiter.Proofs.Work.Record
import MeshLimiter.Proofs.Work.Settling
import MeshLimiter.Proofs.Work.Skipping
import MeshLimiter.Proofs.Work.Sweeping
import MeshLimiter.Proofs.Work.Turns
import MeshLimiter.Proofs.Work.Waking
import MeshLimiter.Query.Backend
import MeshLimiter.Query.Basic
import MeshLimiter.Query.Document
import MeshLimiter.Query.Exchange
import MeshLimiter.Query.Pods
import MeshLimiter.Query.Sample
import MeshLimiter.Query.Yaml
import MeshLimiter.Queue
import MeshLimiter.Registry.Basic
import MeshLimiter.Registry.Document
import MeshLimiter.Registry.Yaml
import MeshLimiter.Resource.Basic
import MeshLimiter.Resource.Document
import MeshLimiter.Resource.Manifest
import MeshLimiter.ResourceId
import MeshLimiter.Store
import MeshLimiter.Store.Document
import MeshLimiter.Subset
import MeshLimiter.Template
import MeshLimiter.Template.Error
import MeshLimiter.Template.Evaluation
import MeshLimiter.Template.Rendering
import MeshLimiter.Template.Token
import MeshLimiter.Text.Blank
import MeshLimiter.Text.Printable
import MeshLimiter.Text.Quoted
import MeshLimiter.Text.Search
import MeshLimiter.Work.Backoff
import MeshLimiter.Work.Delay
import MeshLimiter.Work.Round
import MeshLimiter.Work.Schedule
import MeshLimiter.Yaml.Cursor
import MeshLimiter.Yaml.Node
import MeshLimiter.Yaml.Record
import MeshLimiter.Yaml.Scalar
import MeshLimiter.Yaml.Token
import MeshLimiter.Yaml.Writer
