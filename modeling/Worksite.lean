import Worksite.Base64
import Worksite.Client
import Worksite.CommandLine
import Worksite.CommandLine.Arguments
import Worksite.CommandLine.Help
import Worksite.Content
import Worksite.Deadline
import Worksite.Decimal
import Worksite.Dependency
import Worksite.Error
import Worksite.Exclusion
import Worksite.FileTree
import Worksite.FileTree.Change
import Worksite.FileTree.Layout
import Worksite.FileTree.Lookup
import Worksite.Glob
import Worksite.Index
import Worksite.Json
import Worksite.Json.Raw
import Worksite.Json.Reading
import Worksite.Language
import Worksite.Machine
import Worksite.Main
import Worksite.MediaType
import Worksite.Path
import Worksite.Pattern
import Worksite.Pattern.CharSet
import Worksite.Pattern.Syntax
import Worksite.Place
import Worksite.Place.Delete
import Worksite.Place.Read
import Worksite.Place.Write
import Worksite.Policy
import Worksite.Program
import Worksite.Python.Expression
import Worksite.Python.Statement
import Worksite.Python.Token
import Worksite.Query
import Worksite.Request
import Worksite.Response
import Worksite.Router
import Worksite.Sandbox
import Worksite.Search
import Worksite.Service
import Worksite.Settings
import Worksite.Sha256
import Worksite.Symbol
import Worksite.Symbol.Declaration
import Worksite.Symbol.Extract
import Worksite.Text
import Worksite.Toml
import Worksite.Toml.Document
import Worksite.Toml.Printer
import Worksite.Toml.Scalar
import Worksite.Toml.Syntax
import Worksite.Unicode.Case
import Worksite.Unicode.Category
import Worksite.Unicode.Class
import Worksite.Unicode.Script
import Worksite.Walk
import Worksite.WorkerPool
import Worksite.Proofs.FileTree.Canonical
import Worksite.Proofs.FileTree.Straight
import Worksite.Proofs.FileTree.Growth
import Worksite.Proofs.FileTree.Passing
import Worksite.Proofs.Sandbox.Resolve
import Worksite.Proofs.Place.Steps
import Worksite.Proofs.Place.Writing
import Worksite.Proofs.Place.Interruption
import Worksite.Proofs.Place.Turn
import Worksite.Proofs.Place.Race
import Worksite.Proofs.Place.Deleting
import Worksite.Proofs.Service.Effect
import Worksite.Proofs.Service.Confinement
import Worksite.Proofs.Policy
import Worksite.Proofs.Service.Authorization
import Worksite.Proofs.Service.Atomicity
import Worksite.Proofs.FileTree.Trail
import Worksite.Proofs.Service.Restart
import Worksite.Proofs.Service.Exposure
import Worksite.Proofs.Sandbox.Links
import Worksite.Proofs.Service.Deletion
import Worksite.Proofs.ByteOrder
import Worksite.Proofs.FileTree.Listing
import Worksite.Proofs.Glob
import Worksite.Proofs.Walk.Enumeration
import Worksite.Proofs.Walk.Scanning
import Worksite.Proofs.Walk.Shelter
import Worksite.Proofs.Walk.Capped
import Worksite.Proofs.Index.Collection
import Worksite.Proofs.Walk.FirstNames
import Worksite.Proofs.Service.Indexing
import Worksite.Proofs.Index.Interleaving
import Worksite.Proofs.FileTree.Alike
import Worksite.Proofs.Place.Alike
import Worksite.Proofs.Walk.Alike
import Worksite.Proofs.Service.Noninterference
import Worksite.Proofs.Path.Spelling
import Worksite.Proofs.Service.Spelling
import Worksite.Proofs.Service.Denial
import Worksite.Proofs.Path.Trimming
import Worksite.Proofs.Policy.Climbing
import Worksite.Proofs.FileTree.Spelled
import Worksite.Proofs.Sandbox.Below
import Worksite.Proofs.Service.PolicyFile
import Worksite.Proofs.Language
import Worksite.Proofs.Router
import Worksite.Proofs.Decimal
import Worksite.Proofs.Json.Reading
import Worksite.Proofs.Json.Text
import Worksite.Proofs.Json.Number
import Worksite.Proofs.Json.Written
import Worksite.Proofs.Json.Tree
import Worksite.Proofs.Json.Rearranged
import Worksite.Proofs.Json.Spread
import Worksite.Proofs.Request
import Worksite.Proofs.Response
import Worksite.Proofs.Wire
import Worksite.Proofs.Toml.Text
import Worksite.Proofs.Toml.Value
import Worksite.Proofs.Toml.Document
import Worksite.Proofs.Toml.Omission
import Worksite.Proofs.Settings
import Worksite.Proofs.Service.Permitted
import Worksite.Proofs.Sandbox.Stability
import Worksite.Proofs.Service.Writing
import Worksite.Proofs.Index.Published
import Worksite.Proofs.Sandbox.Reported
import Worksite.Proofs.Service.Reporting
import Worksite.Proofs.Text.Lines
import Worksite.Proofs.Pattern.Ends
import Worksite.Proofs.Pattern.Literal
import Worksite.Proofs.Pattern.Occurrences
import Worksite.Proofs.Unicode.Case
import Worksite.Proofs.Query
import Worksite.Proofs.Search
import Worksite.Proofs.Symbol.Declaration
import Worksite.Proofs.Service.Lines
import Worksite.Proofs.Search.Literal
import Worksite.Proofs.Sandbox.Removal
import Worksite.Proofs.Service.Removal
import Worksite.Proofs.Deadline
import Worksite.Proofs.Sandbox.Containment
import Worksite.Proofs.Search.Order
import Worksite.Proofs.Unicode.Lookup
import Worksite.Proofs.Text.Lower
import Worksite.Proofs.Symbol.Search
import Worksite.Proofs.Service.Limits
import Worksite.Proofs.Service.Ranges
import Worksite.Proofs.Base64
import Worksite.Proofs.FileTree.Ways
import Worksite.Proofs.Place.Content
import Worksite.Proofs.Service.Transport
import Worksite.Proofs.Dependency
import Worksite.Proofs.Extraction
import Worksite.Proofs.Unicode.Space
import Worksite.Proofs.Text.Words
import Worksite.Proofs.Symbol.Name
import Worksite.Proofs.Dependency.Specifier
import Worksite.Proofs.Dependency.ModuleName
import Worksite.Proofs.Dependency.Reading
import Worksite.Proofs.Dependency.ImportLine
import Worksite.Proofs.Policy.Tightening
import Worksite.Proofs.Index.Graph
import Worksite.Proofs.FileTree.Obstruction
import Worksite.Proofs.Sandbox.Missing
import Worksite.Proofs.Service.Missing
import Worksite.Proofs.Text.Returns
import Worksite.Proofs.Walk.Shape
import Worksite.Proofs.Search.Returns
import Worksite.Proofs.Symbol.Table
import Worksite.Proofs.WorkerPool
import Worksite.Proofs.Service.Accepted
import Worksite.Proofs.FileTree.Doorway
import Worksite.Proofs.Machine
import Worksite.Proofs.Sandbox.Deepest
import Worksite.Proofs.Python.DocumentOrder
import Worksite.Proofs.Service.Positions
