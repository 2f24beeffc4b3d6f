import DocblockScan.ArgumentReading
import DocblockScan.Config.Basic
import DocblockScan.Config.Loading
import DocblockScan.Decimal.Binary64
import DocblockScan.Declaration
import DocblockScan.Discovery
import DocblockScan.Docblock.ArgumentList
import DocblockScan.Docblock.Comment
import DocblockScan.Docblock.Fault
import DocblockScan.Docblock.Lexeme
import DocblockScan.Docblock.Tags
import DocblockScan.Endpoint.Basic
import DocblockScan.Endpoint.ClassRule
import DocblockScan.Endpoint.MethodRule
import DocblockScan.Endpoint.Resolution
import DocblockScan.Endpoint.Resource
import DocblockScan.FileSystem.Basic
import DocblockScan.FileSystem.Failure
import DocblockScan.Json.Basic
import DocblockScan.Json.Records
import DocblockScan.Listener
import DocblockScan.Literal
import DocblockScan.Namespace
import DocblockScan.OrderedMap
import DocblockScan.Path
import DocblockScan.Registration
import DocblockScan.Registry
import DocblockScan.ScanError
import DocblockScan.Tag
import DocblockScan.TagSet
import DocblockScan.Text.Blank
import DocblockScan.Text.Pieces
import DocblockScan.Text.Reading
import DocblockScan.Toml.Value
import DocblockScan.SourceCode.Tree
import DocblockScan.SourceCode.Classes
import DocblockScan.ClassSource
import DocblockScan.Session.Basic
import DocblockScan.Session.Boot
import DocblockScan.CommandLine.Toolkit
import DocblockScan.CommandLine.Listing
import DocblockScan.CommandLine.Run
import DocblockScan.Program.SourceCode.Extent
import DocblockScan.Program.SourceCode.DocumentString
import DocblockScan.Program.SourceCode.Token
import DocblockScan.Program.SourceCode.Growth
import DocblockScan.Program.Toml.Document
import DocblockScan.Program.Toolkit
import DocblockScan.Main
import DocblockScan.Proofs.Docblock.Grammar
import DocblockScan.Proofs.Docblock.LexemeRules
import DocblockScan.Proofs.Docblock.ItemRules
import DocblockScan.Proofs.Docblock.ItemContext
import DocblockScan.Proofs.Docblock.ListRules
import DocblockScan.Proofs.Docblock.Acceptance
import DocblockScan.Proofs.Docblock.Soundness
import DocblockScan.Proofs.Docblock.RenderedArguments
import DocblockScan.Proofs.Docblock.RenderedLines
import DocblockScan.Proofs.Docblock.RoundTrip
import DocblockScan.Proofs.Registration.Lossless
import DocblockScan.Proofs.ClassSource
import DocblockScan.Proofs.ClassLookup
import DocblockScan.Proofs.FileSystem.Writing
import DocblockScan.Proofs.Registry
import DocblockScan.Proofs.Session.Definitions
import DocblockScan.Proofs.Session.Generation
import DocblockScan.Proofs.Session.Operations
import DocblockScan.Proofs.Endpoint.Contribution
import DocblockScan.Proofs.Endpoint.Creation
import DocblockScan.Proofs.Endpoint.Settling
import DocblockScan.Proofs.Endpoint.Provenance
import DocblockScan.Proofs.Docblock.Segmentation
import DocblockScan.Proofs.Docblock.StringReplacement
import DocblockScan.Proofs.Docblock.CommentCleaning
import DocblockScan.Proofs.Docblock.Opacity
import DocblockScan.Proofs.Docblock.Remainders
import DocblockScan.Proofs.Docblock.ConsecutiveLines
import DocblockScan.Proofs.FileSystem.Links
import DocblockScan.Proofs.FileSystem.Trees
import DocblockScan.Proofs.Session.Writing
import DocblockScan.Proofs.FileSystem.Places
import DocblockScan.Proofs.Session.Atomicity
import DocblockScan.Proofs.Session.Actions
import DocblockScan.Proofs.Session.Booting
import DocblockScan.Proofs.ArgumentDemands
import DocblockScan.Proofs.Endpoint.Refusal
import DocblockScan.Proofs.Session.ClassLists
import DocblockScan.Proofs.Registration.ListenerFile
import DocblockScan.Proofs.Docblock.Layouts
import DocblockScan.Proofs.Endpoint.IdleTags
import DocblockScan.Proofs.Endpoint.MethodModifiers
import DocblockScan.Proofs.Registry.Meaning
import DocblockScan.Proofs.Json.Reading
import DocblockScan.Proofs.Json.Records
import DocblockScan.Proofs.CommandLine
import DocblockScan.Proofs.Endpoint.Turns
import DocblockScan.Proofs.Endpoint.OuterPaths
import DocblockScan.Proofs.Endpoint.Expansion
import DocblockScan.Proofs.FileSystem.ByteOrder
import DocblockScan.Proofs.FileSystem.Listing
import DocblockScan.Proofs.Discovery.Listing
import DocblockScan.Proofs.Discovery.Filters
import DocblockScan.Proofs.ClassReading
import DocblockScan.Proofs.ClassSource.Registrations
import DocblockScan.Proofs.Namespace.Laws
import DocblockScan.Proofs.DefaultArgument
import DocblockScan.Proofs.Iteration
import DocblockScan.Proofs.Docblock.Cursors
import DocblockScan.Proofs.Docblock.LoopTurns
import DocblockScan.Proofs.Docblock.Termination
import DocblockScan.Proofs.SourceCode.RoundTrip
