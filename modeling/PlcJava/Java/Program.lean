import PlcJava.Java.Expression
import PlcJava.Layout
import PlcJava.Statement

/-! Java text of statements and programs. A program becomes the `main` method of a class
`Main`, with one statement a line; an empty block stays on the line of its braces. -/

set_option autoImplicit false

namespace PlcJava.Java

mutual
def statement : Statement → Layout
  | .expression value => [.text (expression value), .text ";"]
  | .declaration name typeName none => [.text typeName, .text " ", .text name, .text ";"]
  | .declaration name typeName (some value) =>
    [.text typeName, .text " ", .text name, .text " = ", .text (expression value), .text ";"]
  | .assignment name value => [.text name, .text " = ", .text (expression value), .text ";"]
  | .conditional condition thenBody [] =>
    [.text "if (", .text (expression condition), .text ") \x7b"] ++ block thenBody ++ [.text "\x7d"]
  | .conditional condition thenBody elseBody =>
    [.text "if (", .text (expression condition), .text ") \x7b"] ++ block thenBody ++
      [.text "\x7d", .text " else \x7b"] ++ block elseBody ++ [.text "\x7d"]
  | .loop condition body =>
    [.text "while (", .text (expression condition), .text ") \x7b"] ++ block body ++ [.text "\x7d"]

/-- What stands between two braces. -/
def block : List Statement → Layout
  | [] => []
  | first :: others => [.indent, .line] ++ statement first ++ lines others ++ [.dedent, .line]

def lines : List Statement → Layout
  | [] => []
  | first :: others => [.line] ++ statement first ++ lines others
end

def program (statements : Program) : Layout :=
  [.text "public final class Main \x7b", .margin, .indent, .line,
      .text "public static void main(String[] args) \x7b"] ++ block statements ++
    [.text "\x7d", .dedent, .line, .margin, .text "\x7d", .margin]

end PlcJava.Java
