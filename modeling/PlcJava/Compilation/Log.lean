import PlcJava.Compilation

/-! The log of a compilation: what each stage reports, in the order in which it happens. -/

set_option autoImplicit false

namespace PlcJava

inductive Level where
  | trace
  | debug
deriving DecidableEq

/-- Who reports: a stage of the compiler, or the compiler as a whole. -/
inductive Reporter where
  | compiler
  | lexer
  | statements
  | program
  | generator
deriving DecidableEq

structure Record where
  level : Level
  reporter : Reporter
  message : String
deriving DecidableEq

namespace Record

def lexed (token : Token) : Record :=
  ⟨.trace, .lexer, "lexed " ++ token.display ++ " at " ++ token.start.repr⟩

def lexedAll (count : Nat) : Record := ⟨.debug, .lexer, "lexed " ++ count.repr ++ " tokens"⟩

def lexingFinished (count : Nat) : Record :=
  ⟨.debug, .compiler, "lexing finished with " ++ count.repr ++ " tokens"⟩

def began (rule : Rule) (position : Nat) : Record :=
  ⟨.trace, .statements, rule.name ++ " at token " ++ position.repr⟩

def parsedAll (count : Nat) : Record :=
  ⟨.debug, .program, "parsed " ++ count.repr ++ " top-level statements"⟩

def parsingFinished (count : Nat) : Record :=
  ⟨.debug, .compiler, "parsing finished with " ++ count.repr ++ " statements"⟩

/-- The size of the text is counted in bytes. -/
def generated (java : String) (count : Nat) : Record :=
  ⟨.debug, .generator, "generated " ++ java.utf8ByteSize.repr ++ " bytes for " ++ count.repr ++ " statements"⟩

end Record

def parseLog (tokens : List Token) : List Record :=
  let pass := (Parser.ofTokens tokens).pass
  (pass.trace tokens.length).map (fun (rule, position) => .began rule position) ++
    match pass.result with
    | .error _ => []
    | .ok statements =>
      [.parsedAll statements.length, .parsingFinished statements.length,
        .generated (Java.program statements).render statements.length]

/-- Everything that is reported while a text is compiled. A token is reported as soon as it is
complete, also when the text cannot be read to its end. -/
def compileLog (source : String) : List Record :=
  let sweep := (Cursor.ofString source).sweep
  sweep.tokens.map .lexed ++
    match sweep.error? with
    | some _ => []
    | none =>
      [.lexedAll sweep.tokens.length, .lexingFinished sweep.tokens.length] ++ parseLog sweep.tokens

end PlcJava
