import RepoAtlas.Analysis.Analyzer
import RepoAtlas.Analysis.Candidate
import RepoAtlas.Analysis.Role
import RepoAtlas.Cache.Eviction
import RepoAtlas.Cache.Folder
import RepoAtlas.Cache.Key
import RepoAtlas.Cache.Record
import RepoAtlas.Cache.Store
import RepoAtlas.CommandLine.Console
import RepoAtlas.CommandLine.Grammar
import RepoAtlas.CommandLine.Invocation
import RepoAtlas.CommandLine.Reading
import RepoAtlas.CommandLine.Run
import RepoAtlas.Config.Lenient
import RepoAtlas.Config.Load
import RepoAtlas.Config.Settings
import RepoAtlas.Disk.Fault
import RepoAtlas.Disk.Locate
import RepoAtlas.Disk.Node
import RepoAtlas.Disk.Session
import RepoAtlas.Disk.Write
import RepoAtlas.Entity
import RepoAtlas.Event
import RepoAtlas.Failure
import RepoAtlas.Graph.Reference
import RepoAtlas.Graph.Resolve
import RepoAtlas.Hash.Sha256
import RepoAtlas.Hosting.Archive
import RepoAtlas.Hosting.Client
import RepoAtlas.Hosting.Source
import RepoAtlas.Http.Address
import RepoAtlas.Http.Exchange
import RepoAtlas.Http.Response
import RepoAtlas.Json.Encoded
import RepoAtlas.Json.Reader
import RepoAtlas.Json.Value
import RepoAtlas.Json.Writer
import RepoAtlas.Log
import RepoAtlas.Main
import RepoAtlas.Number.Binary64
import RepoAtlas.Number.Quantity
import RepoAtlas.Number.Reading
import RepoAtlas.Number.Shortest
import RepoAtlas.Pattern
import RepoAtlas.Pipeline.Action
import RepoAtlas.Pipeline.Analysis
import RepoAtlas.Pipeline.Handler
import RepoAtlas.Pipeline.Script
import RepoAtlas.Pipeline.Workplace
import RepoAtlas.Pipeline.World
import RepoAtlas.Proofs.Analysis.Ranking
import RepoAtlas.Proofs.Analysis.Roles
import RepoAtlas.Proofs.Analysis.Segments
import RepoAtlas.Proofs.Analysis.Selection
import RepoAtlas.Proofs.Analysis.TestFiles
import RepoAtlas.Proofs.Cache.Cleanup
import RepoAtlas.Proofs.Cache.Clients
import RepoAtlas.Proofs.Cache.Eviction
import RepoAtlas.Proofs.Cache.Folder
import RepoAtlas.Proofs.Cache.Hindrance
import RepoAtlas.Proofs.Cache.Interleaving
import RepoAtlas.Proofs.Cache.Key
import RepoAtlas.Proofs.Cache.LastWrite
import RepoAtlas.Proofs.Cache.Loose
import RepoAtlas.Proofs.Cache.OldestFirst
import RepoAtlas.Proofs.Cache.Record
import RepoAtlas.Proofs.Cache.Reference
import RepoAtlas.Proofs.Cache.Refinement
import RepoAtlas.Proofs.Cache.Survival
import RepoAtlas.Proofs.Cache.Trouble
import RepoAtlas.Proofs.Config.Trouble
import RepoAtlas.Proofs.Disk.Build
import RepoAtlas.Proofs.Disk.Growth
import RepoAtlas.Proofs.Disk.Links
import RepoAtlas.Proofs.Disk.Name
import RepoAtlas.Proofs.Disk.Path
import RepoAtlas.Proofs.Entity
import RepoAtlas.Proofs.EventStream
import RepoAtlas.Proofs.Graph.Declared
import RepoAtlas.Proofs.Graph.Imports
import RepoAtlas.Proofs.Graph.Order
import RepoAtlas.Proofs.Graph.Permutation
import RepoAtlas.Proofs.Graph.Repetition
import RepoAtlas.Proofs.Graph.Resolution
import RepoAtlas.Proofs.Graph.Symmetry
import RepoAtlas.Proofs.Hash.Digest
import RepoAtlas.Proofs.Hosting.Checkout
import RepoAtlas.Proofs.Hosting.Containment
import RepoAtlas.Proofs.Hosting.Failures
import RepoAtlas.Proofs.Hosting.Modes
import RepoAtlas.Proofs.Hosting.Online
import RepoAtlas.Proofs.Hosting.Provision
import RepoAtlas.Proofs.Hosting.Requests
import RepoAtlas.Proofs.Hosting.Service
import RepoAtlas.Proofs.Hosting.Snapshot
import RepoAtlas.Proofs.Http.Base
import RepoAtlas.Proofs.Http.Body
import RepoAtlas.Proofs.Http.Escape
import RepoAtlas.Proofs.Http.Steps
import RepoAtlas.Proofs.Json.Numeral
import RepoAtlas.Proofs.Json.Printable
import RepoAtlas.Proofs.Json.Quoting
import RepoAtlas.Proofs.Json.Rereading
import RepoAtlas.Proofs.Json.RoundTrip
import RepoAtlas.Proofs.Number.Decimal
import RepoAtlas.Proofs.Number.Order
import RepoAtlas.Proofs.Number.Rounding
import RepoAtlas.Proofs.Pattern
import RepoAtlas.Proofs.Pipeline.Completion
import RepoAtlas.Proofs.Pipeline.Course
import RepoAtlas.Proofs.Pipeline.Disconnect
import RepoAtlas.Proofs.Pipeline.Ending
import RepoAtlas.Proofs.Pipeline.FolderRun
import RepoAtlas.Proofs.Pipeline.Footprint
import RepoAtlas.Proofs.Pipeline.Hit
import RepoAtlas.Proofs.Pipeline.Offer
import RepoAtlas.Proofs.Pipeline.Pace
import RepoAtlas.Proofs.Pipeline.Pauses
import RepoAtlas.Proofs.Pipeline.Provenance
import RepoAtlas.Proofs.Pipeline.Stages
import RepoAtlas.Proofs.Pipeline.Stance
import RepoAtlas.Proofs.Pipeline.Stream
import RepoAtlas.Proofs.Repository.Excludes
import RepoAtlas.Proofs.Repository.Host
import RepoAtlas.Proofs.Repository.Listing
import RepoAtlas.Proofs.Repository.Location
import RepoAtlas.Proofs.Repository.Reading
import RepoAtlas.Proofs.SourceModule.Calls
import RepoAtlas.Proofs.SourceModule.Exports
import RepoAtlas.Proofs.SourceModule.Members
import RepoAtlas.Proofs.SourceModule.Prose
import RepoAtlas.Proofs.SourceModule.Signatures
import RepoAtlas.Proofs.Syntax.Walk
import RepoAtlas.Proofs.Table
import RepoAtlas.Proofs.Text.Cut
import RepoAtlas.Proofs.Text.Ends
import RepoAtlas.Proofs.Text.Loose
import RepoAtlas.Proofs.Text.Parts
import RepoAtlas.Proofs.Text.Utf8
import RepoAtlas.Proofs.Unicode.Lowercase
import RepoAtlas.Repository.Glob
import RepoAtlas.Repository.Ignore
import RepoAtlas.Repository.LocalTree
import RepoAtlas.Repository.Location
import RepoAtlas.Service.Answer
import RepoAtlas.Service.Message
import RepoAtlas.Service.Payload
import RepoAtlas.SourceModule.Collect
import RepoAtlas.SourceModule.Facts
import RepoAtlas.SourceModule.Naming
import RepoAtlas.SourceModule.Prose
import RepoAtlas.SourceModule.Read
import RepoAtlas.Syntax.Classes
import RepoAtlas.Syntax.Expressions
import RepoAtlas.Syntax.Grammar
import RepoAtlas.Syntax.Lexical
import RepoAtlas.Syntax.LineEnd
import RepoAtlas.Syntax.Markup
import RepoAtlas.Syntax.Parser
import RepoAtlas.Syntax.Scan
import RepoAtlas.Syntax.Statements
import RepoAtlas.Syntax.Tree
import RepoAtlas.Syntax.Types
import RepoAtlas.Table
import RepoAtlas.Text.Ascii
import RepoAtlas.Text.Base64
import RepoAtlas.Text.Charset
import RepoAtlas.Text.Loose
import RepoAtlas.Text.Percent
import RepoAtlas.Text.PurePath
import RepoAtlas.Text.Quoted
import RepoAtlas.Text.Timestamp
import RepoAtlas.Text.Trim
import RepoAtlas.Text.Utf8
import RepoAtlas.Text.Wide
import RepoAtlas.Unicode.Alphanumeric
import RepoAtlas.Unicode.Char
import RepoAtlas.Unicode.LetterCase
import RepoAtlas.Unicode.Printable
import RepoAtlas.Unicode.Range
import RepoAtlas.Yaml.Cursor
import RepoAtlas.Yaml.Moment
import RepoAtlas.Yaml.Node
import RepoAtlas.Yaml.Scalar
import RepoAtlas.Yaml.Tag
import RepoAtlas.Yaml.Token
import RepoAtlas.Yaml.Token.Block
import RepoAtlas.Yaml.Token.Plain
import RepoAtlas.Yaml.Token.Quoted
import RepoAtlas.Yaml.Token.Scan
import RepoAtlas.Yaml.Token.State
import RepoAtlas.Yaml.Token.Tag
import RepoAtlas.Yaml.Value
