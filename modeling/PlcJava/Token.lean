/-! Tokens of PLC text. Keywords have no kind of their own: `IF`, `LET` and the rest are
identifiers, told apart by their text where a statement begins. -/

set_option autoImplicit false

namespace PlcJava

inductive Kind where
  | identifier
  | integer
  | decimal
  | string
  | operator
deriving DecidableEq

def Kind.name : Kind → String
  | .identifier => "identifier"
  | .integer => "integer"
  | .decimal => "decimal"
  | .string => "string"
  | .operator => "operator"

/-- A classified piece of the source. `start` counts characters, so it agrees with what an
editor shows. The kind and the text of a token made by hand need not fit each other. -/
structure Token where
  kind : Kind
  literal : String
  start : Nat
deriving DecidableEq

/-- The text by which a token is named in messages. A string brings its own quotes. -/
def Token.display (token : Token) : String :=
  match token.kind with
  | .string => "string literal " ++ token.literal
  | kind => kind.name ++ " '" ++ token.literal ++ "'"

end PlcJava
