import ViewFinder.Capability
import ViewFinder.Command.Action
import ViewFinder.Command.Arguments
import ViewFinder.Command.Integer
import ViewFinder.Command.Invocation
import ViewFinder.Command.Program
import ViewFinder.Command.Settings
import ViewFinder.Command.Workplace
import ViewFinder.Condition
import ViewFinder.Config
import ViewFinder.Count
import ViewFinder.Database
import ViewFinder.Design
import ViewFinder.Design.Exchange
import ViewFinder.Document
import ViewFinder.Entity
import ViewFinder.Fault
import ViewFinder.Files.Disk
import ViewFinder.Files.Path
import ViewFinder.Finder
import ViewFinder.Json.Printer
import ViewFinder.Json.Reader
import ViewFinder.Main
import ViewFinder.Name
import ViewFinder.Number.Binary64
import ViewFinder.Number.Quantity
import ViewFinder.Number.Shortest
import ViewFinder.Options
import ViewFinder.Proofs.Count
import ViewFinder.Proofs.CountFound
import ViewFinder.Proofs.DesignFrame
import ViewFinder.Proofs.EmptySet
import ViewFinder.Proofs.Entries
import ViewFinder.Proofs.Fallback
import ViewFinder.Proofs.FindConditions
import ViewFinder.Proofs.FindRange
import ViewFinder.Proofs.Finder
import ViewFinder.Proofs.Query.Bounds
import ViewFinder.Proofs.Query.Chosen
import ViewFinder.Proofs.Query.CreateOnMiss
import ViewFinder.Proofs.Query.Execution
import ViewFinder.Proofs.Query.Failure
import ViewFinder.Proofs.Query.Fields
import ViewFinder.Proofs.Query.Keys
import ViewFinder.Proofs.Query.Paging
import ViewFinder.Proofs.Query.Params
import ViewFinder.Proofs.Query.Ranges
import ViewFinder.Proofs.Query.Selection
import ViewFinder.Proofs.Record
import ViewFinder.Proofs.Registry
import ViewFinder.Proofs.Registry.Race
import ViewFinder.Proofs.Registry.StoredViews
import ViewFinder.Proofs.Store.Answer
import ViewFinder.Proofs.Store.Exchanges
import ViewFinder.Proofs.Store.MapSource
import ViewFinder.Proofs.Store.Registration
import ViewFinder.Proofs.Store.Rows
import ViewFinder.Proofs.Text.Printed
import ViewFinder.Proofs.Value.Collation
import ViewFinder.Proofs.Value.Json
import ViewFinder.Query.Compiled
import ViewFinder.Query.Execution
import ViewFinder.Record
import ViewFinder.Registry
import ViewFinder.Sorting
import ViewFinder.Sorting.Runs
import ViewFinder.Store.Dialogue
import ViewFinder.Store.Index
import ViewFinder.Store.Link
import ViewFinder.Store.MapFunction
import ViewFinder.Store.Memory
import ViewFinder.Store.Params
import ViewFinder.Store.Scripted
import ViewFinder.Store.Web
import ViewFinder.Text.Blank
import ViewFinder.Text.CodePoint
import ViewFinder.Text.Digit
import ViewFinder.Text.Encoding
import ViewFinder.Text.LineEnd
import ViewFinder.Text.Lower
import ViewFinder.Text.Printable
import ViewFinder.Text.Ranges
import ViewFinder.Text.Utf8
import ViewFinder.Text.Word
import ViewFinder.Value
import ViewFinder.Value.Access
import ViewFinder.Value.Equal
import ViewFinder.Value.Fingerprint
import ViewFinder.Value.Order
import ViewFinder.Value.Part
import ViewFinder.Value.Print
import ViewFinder.Version
import ViewFinder.Window
import ViewFinder.Yaml.Character
import ViewFinder.Yaml.Node
import ViewFinder.Yaml.Node.Base64
import ViewFinder.Yaml.Node.Meaning
import ViewFinder.Yaml.Node.Number
import ViewFinder.Yaml.Printer
import ViewFinder.Yaml.Tag
import ViewFinder.Yaml.Timestamp
import ViewFinder.Yaml.Token
import ViewFinder.Yaml.Token.Lexer
import ViewFinder.Yaml.Token.Mark
import ViewFinder.Yaml.Token.Scalar
import ViewFinder.Proofs.FindMixed
import ViewFinder.Proofs.KeyFields
import ViewFinder.Proofs.Query.ViewNames
import ViewFinder.Proofs.Store.Session
import ViewFinder.Proofs.Registry.OwnViews
import ViewFinder.Proofs.OwnIndex
import ViewFinder.Proofs.Query.SharedNames
import ViewFinder.Proofs.Store.Leads
import ViewFinder.Proofs.Store.Misses
import ViewFinder.Proofs.Registry.WrittenViews
import ViewFinder.Proofs.Query.Hits
import ViewFinder.Proofs.CallQuery
import ViewFinder.Proofs.MissThenHit
import ViewFinder.Proofs.Query.ExactKeys
import ViewFinder.Proofs.Upgrade
import ViewFinder.Proofs.Query.TypeRows
import ViewFinder.Proofs.Isolation
import ViewFinder.Proofs.Backwards
import ViewFinder.Proofs.Found
import ViewFinder.Proofs.Pages
import ViewFinder.Proofs.ExplicitKeys
import ViewFinder.Proofs.Namespaces
import ViewFinder.Proofs.Registry.Readable
import ViewFinder.Proofs.Get
import ViewFinder.Proofs.GetMany
import ViewFinder.Proofs.Reordered
import ViewFinder.Proofs.SortedRecords
import ViewFinder.Proofs.Query.PerKey
import ViewFinder.Proofs.IndexOrder
import ViewFinder.Proofs.Exchange
import ViewFinder.Proofs.Query.Product
import ViewFinder.Proofs.NamedView
import ViewFinder.Proofs.Query.ReducedFlag
import ViewFinder.Proofs.WrittenCondition
import ViewFinder.Proofs.Store.SentParams
import ViewFinder.Proofs.ImportDesign
import ViewFinder.Proofs.CamelCase
import ViewFinder.Proofs.Text.Utf8
import ViewFinder.Proofs.Version
import ViewFinder.Proofs.Command.Settings
import ViewFinder.Proofs.Store.DocumentPath
