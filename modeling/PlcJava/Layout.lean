/-! Text in indented lines. A layout says what to write and where the nesting deepens; a
writer carries it out and keeps the level between layouts. -/

set_option autoImplicit false

namespace PlcJava

inductive Directive where
  | text (content : String)
  /-- A new line at the current level. -/
  | line
  /-- A new line at the margin. -/
  | margin
  | indent
  | dedent

abbrev Layout := List Directive

structure Writer where
  output : String
  level : Nat

namespace Writer

def empty : Writer := ⟨"", 0⟩

/-- Four spaces for each level. -/
def indentation (level : Nat) : String := String.ofList (List.replicate (4 * level) ' ')

def step (writer : Writer) : Directive → Writer
  | .text content => { writer with output := writer.output ++ content }
  | .line => { writer with output := writer.output ++ "\n" ++ indentation writer.level }
  | .margin => { writer with output := writer.output ++ "\n" }
  | .indent => { writer with level := writer.level + 1 }
  | .dedent => { writer with level := writer.level - 1 }

def write (writer : Writer) (layout : Layout) : Writer := layout.foldl step writer

def session (writer : Writer) : List Layout → List String
  | [] => []
  | layout :: others => (writer.write layout).output :: (writer.write layout).session others

@[simp]
theorem write_nil (writer : Writer) : writer.write [] = writer := rfl

theorem write_cons (writer : Writer) (directive : Directive) (layout : Layout) :
    writer.write (directive :: layout) = (writer.step directive).write layout := rfl

theorem write_append (writer : Writer) (first second : Layout) :
    writer.write (first ++ second) = (writer.write first).write second :=
  List.foldl_append

end Writer

def Layout.render (layout : Layout) : String := (Writer.empty.write layout).output

end PlcJava
