import PlcJava.Token

/-! Tokens as a table, one row a token, with tabs between the columns. -/

set_option autoImplicit false

namespace PlcJava.Token

/-- The text of the token stands in its row as it is, line breaks included. -/
def row (token : Token) : String :=
  token.start.repr ++ "\t" ++ token.kind.name ++ "\t" ++ token.literal ++ "\n"

def table (tokens : List Token) : String := String.join (tokens.map row)

end PlcJava.Token
