import MessageCatalog.Block
import MessageCatalog.BundleName
import MessageCatalog.CallSite
import MessageCatalog.Command.Convert
import MessageCatalog.Command.Extract
import MessageCatalog.Command.Options
import MessageCatalog.Command.Plan
import MessageCatalog.CommandLine.Flag
import MessageCatalog.CommandLine.Help
import MessageCatalog.CommandLine.Invocation
import MessageCatalog.CommandLine.Run
import MessageCatalog.Config
import MessageCatalog.Decimal.Shortest
import MessageCatalog.Diagnostic
import MessageCatalog.Digest
import MessageCatalog.Extraction
import MessageCatalog.FileFormat.Analysis
import MessageCatalog.FileFormat.Basic
import MessageCatalog.FileFormat.Content
import MessageCatalog.FileFormat.Json
import MessageCatalog.FileFormat.Render
import MessageCatalog.FileFormat.Xliff1
import MessageCatalog.FileFormat.Xliff2
import MessageCatalog.FileFormat.Xtb
import MessageCatalog.FileSystem.Basic
import MessageCatalog.FileSystem.Tree
import MessageCatalog.Glob.Pattern
import MessageCatalog.Glob.Search
import MessageCatalog.Json.Fault
import MessageCatalog.Json.Number
import MessageCatalog.Json.Reader
import MessageCatalog.Json.Value
import MessageCatalog.Json.Writer
import MessageCatalog.Loader
import MessageCatalog.Location
import MessageCatalog.Log
import MessageCatalog.Main
import MessageCatalog.Markup.Builder
import MessageCatalog.Markup.Character
import MessageCatalog.Markup.Fault
import MessageCatalog.Markup.Reader
import MessageCatalog.Markup.Tree
import MessageCatalog.Markup.Writer
import MessageCatalog.Message
import MessageCatalog.OrderedMap
import MessageCatalog.Path
import MessageCatalog.Proofs.Block
import MessageCatalog.Proofs.Characters
import MessageCatalog.Proofs.Command.BadFile
import MessageCatalog.Proofs.Detection
import MessageCatalog.Proofs.Digest
import MessageCatalog.Proofs.Extraction
import MessageCatalog.Proofs.FileFormat.Content
import MessageCatalog.Proofs.FileFormat.Extracted
import MessageCatalog.Proofs.FileFormat.Json
import MessageCatalog.Proofs.FileFormat.Xliff1
import MessageCatalog.Proofs.FileFormat.Xliff2
import MessageCatalog.Proofs.FileFormat.Xtb
import MessageCatalog.Proofs.Identity
import MessageCatalog.Proofs.Json.Objects
import MessageCatalog.Proofs.Json.Strings
import MessageCatalog.Proofs.Loader
import MessageCatalog.Proofs.Lossless
import MessageCatalog.Proofs.Markup.Attributes
import MessageCatalog.Proofs.Markup.Documents
import MessageCatalog.Proofs.Markup.Escaping
import MessageCatalog.Proofs.Markup.Layout
import MessageCatalog.Proofs.Markup.Mixed
import MessageCatalog.Proofs.Markup.Prologue
import MessageCatalog.Proofs.Markup.RoundTrip
import MessageCatalog.Proofs.Markup.Scanning
import MessageCatalog.Proofs.Markup.Tags
import MessageCatalog.Proofs.Message
import MessageCatalog.Proofs.OrderedMap
import MessageCatalog.Proofs.Replay
import MessageCatalog.Proofs.Text
import MessageCatalog.Proofs.WellFormed
import MessageCatalog.Proofs.Written
import MessageCatalog.Quotation.Basic
import MessageCatalog.Quotation.Hidden
import MessageCatalog.Replay
import MessageCatalog.Script.Binding
import MessageCatalog.Script.Declaration
import MessageCatalog.Script.Element
import MessageCatalog.Script.Expression
import MessageCatalog.Script.Function
import MessageCatalog.Script.Grammar
import MessageCatalog.Script.Letter
import MessageCatalog.Script.Member
import MessageCatalog.Script.Node
import MessageCatalog.Script.Quoted
import MessageCatalog.Script.Reading
import MessageCatalog.Script.Source
import MessageCatalog.Script.Statement
import MessageCatalog.Script.Token
import MessageCatalog.Script.TypeNote
import MessageCatalog.Text
import MessageCatalog.Proofs.FileFormat.Converted
import MessageCatalog.Proofs.History
import MessageCatalog.Proofs.FileFormat.Units
import MessageCatalog.Proofs.FileFormat.TakenOnce
import MessageCatalog.Proofs.FileFormat.Segments
import MessageCatalog.Proofs.FileFormat.Xmb
import MessageCatalog.Proofs.Placeholder
import MessageCatalog.Proofs.BlockEnd
import MessageCatalog.Proofs.TemplateText
import MessageCatalog.Proofs.Cuts
import MessageCatalog.Proofs.FileFormat.Steps
import MessageCatalog.Proofs.FileFormat.Unwrapped
import MessageCatalog.Proofs.KeptText
import MessageCatalog.Proofs.Expansion
import MessageCatalog.Proofs.FileFormat.Flattened
import MessageCatalog.Proofs.LoweredTemplate
import MessageCatalog.Proofs.Naming
import MessageCatalog.Proofs.TagSpelling
import MessageCatalog.Proofs.Path
import MessageCatalog.Proofs.Builds
import MessageCatalog.Proofs.OutputNames
import MessageCatalog.Proofs.Location
import MessageCatalog.Proofs.ErrorContext
import MessageCatalog.Proofs.Markup.Unescaping
import MessageCatalog.Proofs.Markup.Calls
import MessageCatalog.Proofs.FileFormat.Calls
