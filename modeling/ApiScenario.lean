import ApiScenario.Code
import ApiScenario.CommandLine.Arguments
import ApiScenario.CommandLine.Compiler
import ApiScenario.CommandLine.FileTree
import ApiScenario.CommandLine.Inspector
import ApiScenario.Compile
import ApiScenario.Diagnostic
import ApiScenario.Error
import ApiScenario.Json
import ApiScenario.Main
import ApiScenario.Plan
import ApiScenario.Position
import ApiScenario.Program
import ApiScenario.Program.Draft
import ApiScenario.Program.Outline
import ApiScenario.Program.Parser
import ApiScenario.Program.Source
import ApiScenario.Program.Validation
import ApiScenario.Proofs.CodeLiterals
import ApiScenario.Proofs.CodeReading
import ApiScenario.Proofs.CompileOutcome
import ApiScenario.Proofs.DraftReading
import ApiScenario.Proofs.ExchangeReading
import ApiScenario.Proofs.Expectations
import ApiScenario.Proofs.Gaps
import ApiScenario.Proofs.Grammar
import ApiScenario.Proofs.HeaderRules
import ApiScenario.Proofs.JUnitLiterals
import ApiScenario.Proofs.JUnitReading
import ApiScenario.Proofs.LayoutIndependence
import ApiScenario.Proofs.LazyReading
import ApiScenario.Proofs.Lexemes
import ApiScenario.Proofs.LiteralSafety
import ApiScenario.Proofs.Lossless
import ApiScenario.Proofs.LoweredPlan
import ApiScenario.Proofs.Lowering
import ApiScenario.Proofs.ParserGrammar
import ApiScenario.Proofs.PlanTexts
import ApiScenario.Proofs.PlannedStatements
import ApiScenario.Proofs.Relocation
import ApiScenario.Proofs.RustLiterals
import ApiScenario.Proofs.RustReading
import ApiScenario.Proofs.SentHeaders
import ApiScenario.Proofs.SourceRoundtrip
import ApiScenario.Proofs.SourceSplit
import ApiScenario.Proofs.SpelledTokens
import ApiScenario.Proofs.TokenGrammar
import ApiScenario.Proofs.TokenPlaces
import ApiScenario.Proofs.TokenStream
import ApiScenario.Report
import ApiScenario.Target
import ApiScenario.Target.ClassName
import ApiScenario.Target.JUnitTests
import ApiScenario.Target.RustTests
import ApiScenario.Template
import ApiScenario.Text.Combining
import ApiScenario.Text.Decimal
import ApiScenario.Text.Identifier
import ApiScenario.Text.Literal
import ApiScenario.Text.Printable
import ApiScenario.Text.Visible
import ApiScenario.Token
import ApiScenario.Token.Lexer
import ApiScenario.Token.Spelling
import ApiScenario.Variables
import ApiScenario.Proofs.Substitution
import ApiScenario.Proofs.AlikePrograms
import ApiScenario.Proofs.DeadDeclarations
import ApiScenario.Proofs.Renaming
import ApiScenario.Proofs.CompilerRuns
import ApiScenario.Proofs.LinesAndColumns
import ApiScenario.Proofs.LexicalFaults
import ApiScenario.Proofs.LiteralRoundtrip
import ApiScenario.Proofs.BrokenRules
import ApiScenario.Proofs.Brackets
import ApiScenario.Proofs.DiagnosticOrder
import ApiScenario.Proofs.OrphanAssertions
import ApiScenario.Proofs.BracketedFiles
import ApiScenario.Proofs.CodeLines
import ApiScenario.Proofs.Procedures
import ApiScenario.Proofs.GeneratedProcedures
import ApiScenario.Proofs.Indentation
import ApiScenario.Proofs.TestSections
import ApiScenario.Proofs.DescentReader
import ApiScenario.Proofs.DescentRuns
import ApiScenario.Proofs.JsonGrammar
import ApiScenario.Proofs.CompactJson
import ApiScenario.Proofs.ReportReading
import ApiScenario.Proofs.FrontReading
import ApiScenario.Proofs.StatusChecks
