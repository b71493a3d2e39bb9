import PlcJava.Java.Program
import PlcJava.Parsing.Program
import PlcJava.Token.Lexer

/-! From the text of a program to Java. -/

set_option autoImplicit false

namespace PlcJava

inductive CompileError where
  | lexical (error : LexError)
  | grammatical (error : ParseError)
deriving DecidableEq

def CompileError.message : CompileError → String
  | .lexical error => error.message
  | .grammatical error => error.message

def Program.read (source : String) : Except CompileError Program := do
  let tokens ← (lex source).mapError .lexical
  (parse tokens).mapError .grammatical

def compile (source : String) : Except CompileError String :=
  (Program.read source).map fun statements => (Java.program statements).render

end PlcJava
