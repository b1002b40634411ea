import ContractGen.Artifact
import ContractGen.Code.Builtin
import ContractGen.Code.Doc
import ContractGen.Code.Language
import ContractGen.Code.Layout
import ContractGen.Code.Literal
import ContractGen.Code.TypeRef
import ContractGen.Command.Arguments
import ContractGen.Command.Run
import ContractGen.Config
import ContractGen.Contract
import ContractGen.Contract.Literals
import ContractGen.Contract.Members
import ContractGen.Fault
import ContractGen.Features
import ContractGen.Files.Access
import ContractGen.Files.Path
import ContractGen.Files.Tree
import ContractGen.Generation
import ContractGen.Identifier
import ContractGen.Identifier.Suffix
import ContractGen.Json.Cursor
import ContractGen.Json.Double
import ContractGen.Json.Failure
import ContractGen.Json.Reader.Number
import ContractGen.Json.Reader.Skim
import ContractGen.Json.Reader.String
import ContractGen.Json.Reader.Value
import ContractGen.Json.Shortest
import ContractGen.Json.Value
import ContractGen.Json.Writer
import ContractGen.Main
import ContractGen.Model
import ContractGen.Plan
import ContractGen.Proofs.Actions
import ContractGen.Proofs.Acyclic
import ContractGen.Proofs.AppendedNodes
import ContractGen.Proofs.Assembly
import ContractGen.Proofs.BlankLines
import ContractGen.Proofs.Bodies
import ContractGen.Proofs.Building
import ContractGen.Proofs.CanonicalValues
import ContractGen.Proofs.Capitals
import ContractGen.Proofs.ClassLayout
import ContractGen.Proofs.Closure
import ContractGen.Proofs.Comments
import ContractGen.Proofs.Coverage
import ContractGen.Proofs.DeadEnds
import ContractGen.Proofs.Descent
import ContractGen.Proofs.Descriptions
import ContractGen.Proofs.Discovery
import ContractGen.Proofs.DistinctTypes
import ContractGen.Proofs.Ending
import ContractGen.Proofs.Entities
import ContractGen.Proofs.EntryOrder
import ContractGen.Proofs.Enumerations
import ContractGen.Proofs.Explanations
import ContractGen.Proofs.Filling
import ContractGen.Proofs.FreeSuffix
import ContractGen.Proofs.GenerateRuns
import ContractGen.Proofs.LeftOut
import ContractGen.Proofs.LegalNames
import ContractGen.Proofs.Loaders
import ContractGen.Proofs.MemberNames
import ContractGen.Proofs.Naming
import ContractGen.Proofs.Needs
import ContractGen.Proofs.Nesting
import ContractGen.Proofs.Outcomes
import ContractGen.Proofs.Output
import ContractGen.Proofs.Places
import ContractGen.Proofs.Presentation
import ContractGen.Proofs.Readings
import ContractGen.Proofs.RecordFields
import ContractGen.Proofs.ReferenceCircles
import ContractGen.Proofs.References
import ContractGen.Proofs.RelativePaths
import ContractGen.Proofs.RenamedWalks
import ContractGen.Proofs.Renaming
import ContractGen.Proofs.Renumbering
import ContractGen.Proofs.Repetition
import ContractGen.Proofs.ResolverRuns
import ContractGen.Proofs.RoundTrip
import ContractGen.Proofs.Skimming
import ContractGen.Proofs.SourceLines
import ContractGen.Proofs.Spelling
import ContractGen.Proofs.StableNames
import ContractGen.Proofs.StringLiterals
import ContractGen.Proofs.SuffixSearch
import ContractGen.Proofs.SupportTypes
import ContractGen.Proofs.TellingProperties
import ContractGen.Proofs.TemplateFiles
import ContractGen.Proofs.TemplateModels
import ContractGen.Proofs.TemplateTexts
import ContractGen.Proofs.TextReading
import ContractGen.Proofs.Trails
import ContractGen.Proofs.TypeArguments
import ContractGen.Proofs.UnionCases
import ContractGen.Proofs.UnionTexts
import ContractGen.Proofs.Verdict
import ContractGen.Proofs.Visits
import ContractGen.Proofs.WrittenFiles
import ContractGen.Resolver
import ContractGen.Schema.Decode
import ContractGen.Schema.Document
import ContractGen.Schema.Encode
import ContractGen.Schema.Graph
import ContractGen.Schema.Validity
import ContractGen.Settings
import ContractGen.Support
import ContractGen.Template
import ContractGen.Template.Builtin.Contracts
import ContractGen.Template.Builtin.File
import ContractGen.Template.Builtin.Unions
import ContractGen.Template.Builtin.Utilities
import ContractGen.Template.Engine
import ContractGen.Template.Library
import ContractGen.Template.Overrides
import ContractGen.Template.Parser
import ContractGen.Template.Render
import ContractGen.Text.Alphabetic
import ContractGen.Text.Alphanumeric
import ContractGen.Text.Blank
import ContractGen.Text.Cluster
import ContractGen.Text.Conjunct
import ContractGen.Text.Extending
import ContractGen.Text.Lines
import ContractGen.Text.Numeric
import ContractGen.Text.Pictographic
import ContractGen.Text.Quoted
import ContractGen.Text.Range
import ContractGen.Text.Spacing
import ContractGen.Text.Split
import ContractGen.Text.Unprintable
import ContractGen.Text.Upper
import ContractGen.Toml.Number
import ContractGen.Toml.Reader
import ContractGen.Toml.String
import ContractGen.Toml.Value
