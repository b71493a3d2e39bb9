import PlcJava.Parsing.Statement

/-! Reading programs. A parser stands at a place in its tokens. It ends a pass where the
tokens end or where they go wrong, and a further pass begins a statement there. -/

set_option autoImplicit false

namespace PlcJava

structure ParseError where
  fault : Fault
  index : Nat
deriving DecidableEq

def ParseError.message (error : ParseError) : String :=
  "Parse error at token " ++ error.index.repr ++ ": " ++ error.fault.message

/-- What one pass over the rest of the tokens leaves: the rules it began, its result and the
tokens from where it ended. -/
structure Pass where
  entries : List Entry
  result : Except Fault Program
  rest : List Token

namespace Pass

/-- The index where a pass over the last of `total` tokens ended. -/
def stop (pass : Pass) (total : Nat) : Nat := total - pass.rest.length

/-- A fault is reported where the pass ended. -/
def answer (pass : Pass) (total : Nat) : Except ParseError Program :=
  pass.result.mapError fun fault => ⟨fault, pass.stop total⟩

def trace (pass : Pass) (total : Nat) : List (Rule × Nat) :=
  pass.entries.map fun entry => (entry.rule, total - entry.left)

end Pass

/-- Statements up to the end of the tokens. -/
def Parsing.pass (tokens : List Token) : Pass :=
  match tokens with
  | [] => ⟨[], .ok [], []⟩
  | token :: tail =>
    let first := statement (token :: tail)
    match first.reading with
    | .done value rest _ =>
      let later := pass rest
      ⟨first.entries ++ later.entries, later.result.map (value :: ·), later.rest⟩
    | .stuck fault rest _ => ⟨first.entries, .error fault, rest⟩
termination_by tokens.length
decreasing_by assumption

structure Parser where
  tokens : List Token
  position : Nat

namespace Parser

def ofTokens (tokens : List Token) : Parser := ⟨tokens, 0⟩

def pass (parser : Parser) : Pass := Parsing.pass (parser.tokens.drop parser.position)

def answer (parser : Parser) : Except ParseError Program := parser.pass.answer parser.tokens.length

def next (parser : Parser) : Parser :=
  { parser with position := parser.pass.stop parser.tokens.length }

/-- The answers of `calls` passes, each begun where the one before ended. -/
def session (parser : Parser) : Nat → List (Except ParseError Program)
  | 0 => []
  | calls + 1 => parser.answer :: parser.next.session calls

end Parser

/-- The statements that the tokens form, or the first place where they form none. -/
def parse (tokens : List Token) : Except ParseError Program := (Parser.ofTokens tokens).answer

end PlcJava
