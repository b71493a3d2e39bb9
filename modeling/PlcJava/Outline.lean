import PlcJava.Layout
import PlcJava.Statement
import PlcJava.Text.Quoted

/-! Outlines of programs, for a reader who wants to see the tree. Each part stands on a line of
its own, and a comma follows every part. Which characters are hidden in quoted text is left to the
caller. -/

set_option autoImplicit false

namespace PlcJava.Outline

def wrapped (name : String) (inner : Layout) : Layout :=
  [.text name, .text "(", .indent, .line] ++ inner ++ [.text ",", .dedent, .line, .text ")"]

def field (name : String) (value : Layout) : Layout :=
  [.line, .text name, .text ": "] ++ value ++ [.text ","]

def record (name : String) (fields : Layout) : Layout :=
  [.text name, .text " \x7b", .indent] ++ fields ++ [.dedent, .line, .text "\x7d"]

def item (value : Layout) : Layout := [.line] ++ value ++ [.text ","]

/-- Items, already laid out. Without any, the brackets stay together. -/
def list (items : Layout) : Layout :=
  if items.isEmpty then [.text "[]"] else [.text "[", .indent] ++ items ++ [.dedent, .line, .text "]"]

variable (hidden : Char → Bool)

def quoted (text : String) : Layout := [.text (Quoted.encode hidden text)]

def literal : Literal → Layout
  | .boolean true => wrapped "Boolean" [.text "true"]
  | .boolean false => wrapped "Boolean" [.text "false"]
  | .integer value => wrapped "Integer" (wrapped "BigInteger" (quoted hidden (Integer.write value)))
  | .decimal value => wrapped "Decimal" (wrapped "BigDecimal" (quoted hidden value.write))
  | .string contents => wrapped "String" (quoted hidden contents)

mutual
def expression : Expression → Layout
  | .literal value => wrapped "Literal" (literal hidden value)
  | .group inner => wrapped "Group" (expression inner)
  | .binary operator left right =>
    record "Binary" (field "operator" (quoted hidden operator) ++ field "left" (expression left) ++
      field "right" (expression right))
  | .reference name => wrapped "Variable" (quoted hidden name)
  | .call name values =>
    record "Function" (field "name" (quoted hidden name) ++ field "arguments" (list (arguments values)))

def arguments : List Expression → Layout
  | [] => []
  | first :: others => item (expression first) ++ arguments others
end

def optional : Option Expression → Layout
  | none => [.text "None"]
  | some value => wrapped "Some" (expression hidden value)

mutual
def statement : Statement → Layout
  | .expression value => wrapped "Expression" (expression hidden value)
  | .declaration name typeName value =>
    record "Declaration" (field "name" (quoted hidden name) ++ field "type_name" (quoted hidden typeName) ++
      field "value" (optional hidden value))
  | .assignment name value =>
    record "Assignment" (field "name" (quoted hidden name) ++ field "value" (expression hidden value))
  | .conditional condition thenBody elseBody =>
    record "If" (field "condition" (expression hidden condition) ++
      field "then_statements" (list (statements thenBody)) ++
      field "else_statements" (list (statements elseBody)))
  | .loop condition body =>
    record "While" (field "condition" (expression hidden condition) ++
      field "statements" (list (statements body)))

def statements : List Statement → Layout
  | [] => []
  | first :: others => item (statement first) ++ statements others
end

def program (body : Program) : Layout := record "Source" (field "statements" (list (statements hidden body)))

end PlcJava.Outline
