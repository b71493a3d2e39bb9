import PlcJava.Expression

/-! Java text of expressions. Names, operators and string contents are written as they are,
and parentheses come from groups alone. -/

set_option autoImplicit false

namespace PlcJava.Java

def literal : Literal → String
  | .boolean true => "true"
  | .boolean false => "false"
  | .integer value => Integer.write value
  | .decimal value => value.write
  | .string contents => "\"" ++ contents ++ "\""

mutual
def expression : Expression → String
  | .literal value => literal value
  | .group inner => "(" ++ expression inner ++ ")"
  | .binary operator left right => expression left ++ " " ++ operator ++ " " ++ expression right
  | .reference name => name
  | .call name values => name ++ "(" ++ arguments values ++ ")"

def arguments : List Expression → String
  | [] => ""
  | [last] => expression last
  | first :: others => expression first ++ ", " ++ arguments others
end

end PlcJava.Java
