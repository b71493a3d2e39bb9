import PlcJava.Java.Program

/-! The text that a layout adds, as a function of the level at which it starts. What the writer
holds already plays no part, and the layout of a tree ends at the level where it began. -/

set_option autoImplicit false

namespace PlcJava

/-- The end of a line and the indentation of the next. -/
def lineBreak (level : Nat) : List Char := '\n' :: List.replicate (4 * level) ' '

namespace Directive

def written (level : Nat) : Directive → List Char
  | text content => content.toList
  | line => lineBreak level
  | margin => ['\n']
  | indent | dedent => []

def levelAfter (level : Nat) : Directive → Nat
  | indent => level + 1
  | dedent => level - 1
  | text _ | line | margin => level

end Directive

namespace Layout

def written (level : Nat) : Layout → List Char
  | [] => []
  | first :: others => first.written level ++ written (first.levelAfter level) others

def levelAfter (level : Nat) (layout : Layout) : Nat := layout.foldl Directive.levelAfter level

@[simp]
theorem levelAfter_nil (level : Nat) : levelAfter level [] = level := rfl

@[simp]
theorem levelAfter_cons (level : Nat) (first : Directive) (others : Layout) :
    levelAfter level (first :: others) = levelAfter (first.levelAfter level) others := rfl

@[simp]
theorem levelAfter_append (level : Nat) (first second : Layout) :
    levelAfter level (first ++ second) = levelAfter (levelAfter level first) second :=
  List.foldl_append

@[simp]
theorem written_append (level : Nat) (first second : Layout) :
    written level (first ++ second) = written level first ++ written (levelAfter level first) second := by
  induction first generalizing level with
  | nil => rfl
  | cons directive others ih => simp [written, ih]

end Layout

namespace Writer

private theorem step_eq (writer : Writer) (directive : Directive) :
    writer.step directive =
      ⟨writer.output ++ String.ofList (directive.written writer.level), directive.levelAfter writer.level⟩ := by
  cases directive with
  | text content => simp [step, Directive.written, Directive.levelAfter]
  | line =>
    have written : "\n" ++ indentation writer.level =
        String.ofList (lineBreak writer.level) := by
      apply String.toList_inj.mp
      simp [indentation, lineBreak]
    rw [step, String.append_assoc, written]
    rfl
  | margin | indent | dedent => simp [step, Directive.written, Directive.levelAfter]

theorem write_eq (writer : Writer) (layout : Layout) :
    writer.write layout =
      ⟨writer.output ++ String.ofList (layout.written writer.level), layout.levelAfter writer.level⟩ := by
  induction layout generalizing writer with
  | nil => simp [Layout.written]
  | cons directive layout ih =>
    rw [write_cons, ih, step_eq, Layout.written, String.ofList_append, String.append_assoc, Layout.levelAfter_cons]

theorem ofList_written {layout : Layout} {level after : Nat} {text : String}
    (writes : write ⟨"", level⟩ layout = ⟨text, after⟩) : String.ofList (layout.written level) = text := by
  have output := congrArg Writer.output writes
  rwa [write_eq, String.empty_append] at output

end Writer

theorem Layout.toList_render (layout : Layout) : layout.render.toList = layout.written 0 := by
  rw [render, Writer.write_eq, Writer.empty, String.empty_append, String.toList_ofList]

namespace Java

mutual
@[simp]
theorem levelAfter_statement (level : Nat) (value : Statement) : (statement value).levelAfter level = level := by
  match value with
  | .expression _ | .declaration _ _ none | .declaration _ _ (some _) | .assignment _ _ =>
    simp [statement, Directive.levelAfter]
  | .conditional _ thenBody [] =>
    simp [statement, Directive.levelAfter, levelAfter_block level thenBody]
  | .conditional _ thenBody (first :: others) =>
    simp [statement, Directive.levelAfter, levelAfter_block level thenBody, levelAfter_block level (first :: others)]
  | .loop _ body => simp [statement, Directive.levelAfter, levelAfter_block level body]

@[simp]
theorem levelAfter_block (level : Nat) (statements : List Statement) : (block statements).levelAfter level = level := by
  match statements with
  | [] => rfl
  | first :: others =>
    simp [block, Directive.levelAfter, levelAfter_statement (level + 1) first, levelAfter_lines (level + 1) others]

@[simp]
theorem levelAfter_lines (level : Nat) (statements : List Statement) : (lines statements).levelAfter level = level := by
  match statements with
  | [] => rfl
  | first :: others =>
    simp [lines, Directive.levelAfter, levelAfter_statement level first, levelAfter_lines level others]
end

/-! The texts of the parts, with the breaks between lines. -/

theorem written_lines_cons (level : Nat) (first : Statement) (others : List Statement) :
    (lines (first :: others)).written level =
      lineBreak level ++ ((statement first).written level ++ (lines others).written level) := by
  simp [lines, Layout.written, Directive.written, Directive.levelAfter]

theorem written_block_cons (level : Nat) (first : Statement) (others : List Statement) :
    (block (first :: others)).written level =
      (lines (first :: others)).written (level + 1) ++ lineBreak level := by
  simp [block, lines, Layout.written, Directive.written, Directive.levelAfter]

theorem written_conditional (level : Nat) (condition : Expression) (thenBody : List Statement) :
    (statement (.conditional condition thenBody [])).written level =
      "if (".toList ++ (expression condition).toList ++ ") ".toList ++
        ('\x7b' :: (block thenBody).written level ++ ['\x7d']) := by
  simp [statement, Layout.written, Directive.written, Directive.levelAfter]

theorem written_alternative (level : Nat) (condition : Expression) (thenBody : List Statement) (first : Statement)
    (others : List Statement) :
    (statement (.conditional condition thenBody (first :: others))).written level =
      "if (".toList ++ (expression condition).toList ++ ") ".toList ++
        ('\x7b' :: (block thenBody).written level ++ ['\x7d']) ++ " else ".toList ++
        ('\x7b' :: (block (first :: others)).written level ++ ['\x7d']) := by
  simp [statement, Layout.written, Directive.written, Directive.levelAfter]

theorem written_loop (level : Nat) (condition : Expression) (body : List Statement) :
    (statement (.loop condition body)).written level =
      "while (".toList ++ (expression condition).toList ++ ") ".toList ++
        ('\x7b' :: (block body).written level ++ ['\x7d']) := by
  simp [statement, Layout.written, Directive.written, Directive.levelAfter]

/-- The lines around the statements of a program. -/
def opening : String :=
  "public final class Main \x7b\n" ++ "\n" ++ "    public static void main(String[] args) \x7b"

def closing : String := "\x7d\n" ++ "\n" ++ "\x7d\n"

theorem render_program (statements : Program) :
    (program statements).render = opening ++ String.ofList ((block statements).written 1) ++ closing := by
  have before : Writer.empty.write [.text "public final class Main \x7b", .margin, .indent, .line,
      .text "public static void main(String[] args) \x7b"] = ⟨opening, 1⟩ := rfl
  have behind : String.ofList (Layout.written 1 [.text "\x7d", .dedent, .line, .margin, .text "\x7d", .margin]) =
      closing := by decide
  rw [Layout.render, program, Writer.write_append, Writer.write_append, before, Writer.write_eq ⟨opening, 1⟩,
    levelAfter_block, Writer.write_eq, ← behind]

theorem toList_render_program (statements : Program) :
    (program statements).render.toList =
      "public final class Main ".toList ++ ['\x7b'] ++ ['\n'] ++ (lineBreak 1 ++
        ("public static void main(String[] args) ".toList ++
          ('\x7b' :: (block statements).written 1 ++ ['\x7d']))) ++
        ['\n'] ++ ['\n'] ++ ['\x7d'] ++ ['\n'] := by
  have before : opening.toList = "public final class Main ".toList ++ ['\x7b'] ++ ['\n'] ++
      (lineBreak 1 ++ ("public static void main(String[] args) ".toList ++ ['\x7b'])) := by decide
  have behind : closing.toList = ['\x7d'] ++ ['\n'] ++ ['\n'] ++ ['\x7d'] ++ ['\n'] := by decide
  rw [render_program, String.toList_append, String.toList_append, String.toList_ofList, before, behind]
  simp only [List.append_assoc, List.cons_append, List.nil_append]

end Java

end PlcJava
