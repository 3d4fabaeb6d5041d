import Memberwise.Absence
import Memberwise.Artifact
import Memberwise.CommandLine.Arguments
import Memberwise.CommandLine.Run
import Memberwise.Config
import Memberwise.ConfigFile
import Memberwise.Descriptor
import Memberwise.Dispatch
import Memberwise.FieldOptions
import Memberwise.FileSystem
import Memberwise.Generator
import Memberwise.Grouping
import Memberwise.Main
import Memberwise.NameMatch
import Memberwise.Naming
import Memberwise.Nullability
import Memberwise.PropertyTable
import Memberwise.ResolvedType
import Memberwise.Roster
import Memberwise.Scan
import Memberwise.Scope
import Memberwise.Semantics
import Memberwise.Source.Grammar
import Memberwise.Source.Grammar.Expressions
import Memberwise.Source.Grammar.Items
import Memberwise.Source.Grammar.Patterns
import Memberwise.Source.Grammar.Types
import Memberwise.Source.Parse
import Memberwise.Source.Reader
import Memberwise.Source.Tree
import Memberwise.Source.Written
import Memberwise.Symbols.Canonical
import Memberwise.Symbols.Import
import Memberwise.Symbols.Lookup
import Memberwise.Symbols.Resolve
import Memberwise.Symbols.Table
import Memberwise.Text.Alphabetic
import Memberwise.Text.Blank
import Memberwise.Text.CaseMap
import Memberwise.Text.CodeTable
import Memberwise.Text.IdentifierChar
import Memberwise.Text.Json
import Memberwise.Text.LetterCase
import Memberwise.Text.Numeric
import Memberwise.Text.Pieces
import Memberwise.Text.Printable
import Memberwise.Text.Quoted
import Memberwise.Token
import Memberwise.Token.Lexer
import Memberwise.Token.StringValue
import Memberwise.Toml.Document
import Memberwise.Toml.Lexeme
import Memberwise.Toml.Value
import Memberwise.Trace
import Memberwise.TypeIdentity
import Memberwise.Workspace
import Memberwise.Proofs.Branches
import Memberwise.Proofs.Declarations
import Memberwise.Proofs.Nesting
import Memberwise.Proofs.Grouping
import Memberwise.Proofs.PropertyTable
import Memberwise.Proofs.Dispatch
import Memberwise.Proofs.Roster
import Memberwise.Proofs.Lexing
import Memberwise.Proofs.Reading
import Memberwise.Proofs.TypeReading
import Memberwise.Proofs.Spelling
import Memberwise.Proofs.Leaves
import Memberwise.Proofs.TypeInduction
import Memberwise.Proofs.Resolution
import Memberwise.Proofs.CanonicalPath
import Memberwise.Proofs.CanonicalForm
import Memberwise.Proofs.Directness
import Memberwise.Proofs.Fitting
import Memberwise.Proofs.Stability
import Memberwise.Proofs.Lookup
import Memberwise.Proofs.Settling
import Memberwise.Proofs.Facades
import Memberwise.Proofs.Gaps
import Memberwise.Proofs.ExternImports
import Memberwise.Proofs.LocalImports
import Memberwise.Proofs.FileSystem
import Memberwise.Proofs.Commands
import Memberwise.Proofs.Writing
import Memberwise.Proofs.Compiling
import Memberwise.Proofs.Modules
import Memberwise.Proofs.Agreement
import Memberwise.Proofs.Rearranging
import Memberwise.Proofs.Blocks
import Memberwise.Proofs.Forward
import Memberwise.Proofs.Origins
import Memberwise.Proofs.Selection
import Memberwise.Proofs.Annotations
import Memberwise.Proofs.Mentions
import Memberwise.Proofs.Insertion
import Memberwise.Proofs.Indexing
import Memberwise.Proofs.Members
import Memberwise.Proofs.Reports
import Memberwise.Proofs.Identifiers
import Memberwise.Proofs.DeclaredNames
import Memberwise.Proofs.FullNames
import Memberwise.Proofs.Widening
import Memberwise.Proofs.Deriving
import Memberwise.Proofs.Substitution
import Memberwise.Proofs.Parameters
import Memberwise.Proofs.Congruence
import Memberwise.Proofs.RelativePaths
import Memberwise.Proofs.AliasCycles
import Memberwise.Proofs.Lifetimes
import Memberwise.Proofs.GlobChains
import Memberwise.Proofs.Variants
import Memberwise.Proofs.VariantNames
import Memberwise.Proofs.ArtifactText
import Memberwise.Proofs.OutputDirectory
import Memberwise.Proofs.TypeNames
import Memberwise.Proofs.Scopes
import Memberwise.Proofs.Literals
import Memberwise.Proofs.BranchCode
import Memberwise.Proofs.StringLiterals
import Memberwise.Proofs.NumberLiterals
import Memberwise.Proofs.LiteralText
import Memberwise.Proofs.Layout
import Memberwise.Proofs.Tightening
import Memberwise.Proofs.LexicalTokens
import Memberwise.Proofs.LexicalTypes
import Memberwise.Proofs.LexicalReading
import Memberwise.Proofs.LexicalGrammar
import Memberwise.Proofs.WrittenTypes
