import PlcJava.Token
import PlcJava.Token.Scan
import PlcJava.Token.Lexer
import PlcJava.Token.Table
import PlcJava.Numeral.Integer
import PlcJava.Numeral.Decimal
import PlcJava.Expression
import PlcJava.Statement
import PlcJava.Parsing.Reading
import PlcJava.Parsing.Expression
import PlcJava.Parsing.Statement
import PlcJava.Parsing.Program
import PlcJava.Layout
import PlcJava.Java.Expression
import PlcJava.Java.Program
import PlcJava.Text.Hidden
import PlcJava.Text.Quoted
import PlcJava.Outline
import PlcJava.Compilation
import PlcJava.Compilation.Log
import PlcJava.Command.Arguments
import PlcJava.Command.Directory
import PlcJava.Command.Run
import PlcJava.Main
import PlcJava.Proofs.Outcome
import PlcJava.Proofs.Grammar
import PlcJava.Proofs.ExpressionRecognition
import PlcJava.Proofs.ProgramRecognition
import PlcJava.Proofs.TokenShape
import PlcJava.Proofs.Sweep
import PlcJava.Proofs.MaximalMunch
import PlcJava.Proofs.NumeralText
import PlcJava.Proofs.ProperTree
import PlcJava.Proofs.Spelling
import PlcJava.Proofs.ExpressionText
import PlcJava.Proofs.LayoutText
import PlcJava.Proofs.ProgramText
import PlcJava.Proofs.UniqueReading
import PlcJava.Proofs.Lookahead
import PlcJava.Proofs.Concatenation
import PlcJava.Proofs.ViablePrefix
import PlcJava.Proofs.TokenBoundary
import PlcJava.Proofs.ProgramSource
import PlcJava.Proofs.Passes
import PlcJava.Proofs.Resumption
import PlcJava.Proofs.Restart
import PlcJava.Proofs.LiteralOrder
import PlcJava.Proofs.BraceDepth
import PlcJava.Proofs.Indentation
import PlcJava.Proofs.Nesting
import PlcJava.Proofs.Fragments
import PlcJava.Proofs.CommandEffects
import PlcJava.Proofs.RuleOrder
import PlcJava.Proofs.StatementPlaces
import PlcJava.Proofs.RuleEntries
import PlcJava.Proofs.CompilationLog
import PlcJava.Proofs.Delimiting
import PlcJava.Proofs.TokenTable
import PlcJava.Proofs.QuotedText
import PlcJava.Proofs.OutlineReading
import PlcJava.Proofs.LexicalErrors
import PlcJava.Proofs.FaultPlaces
import PlcJava.Proofs.NumeralValue
import PlcJava.Proofs.NumberTokens
import PlcJava.Proofs.TokenRanges
import PlcJava.Proofs.Loops
import PlcJava.Proofs.Progress
import PlcJava.Proofs.Bodies
