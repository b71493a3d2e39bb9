import Mathlib
import PlcJava.Compilation
import PlcJava.Proofs.Nesting

/-! A statement is written in the same lines wherever it stands. The level at which it starts shows
only behind the line breaks of its layout, so a program is made of the texts that its statements
give by themselves, moved to the right there and nowhere else. -/

set_option autoImplicit false

namespace PlcJava

/-- A line of a layout: how much deeper it is than the layout, and what stands on it. -/
structure Row where
  level : Nat
  text : String

namespace Row

def placed (base : Nat) (row : Row) : String := Writer.indentation (base + row.level) ++ row.text

/-- Rows one below the other. The first goes on in the line that is there already. -/
def joined (base : Nat) : List Row → String
  | [] => ""
  | first :: others => first.text ++ String.join (others.map fun row => "\n" ++ row.placed base)

end Row

/-- The text of a layout up to its first line break, and the rows behind it. A line at the margin is the
same at every level, so it breaks no row. -/
def Layout.rows (level : Nat) : Layout → String × List Row
  | [] => ("", [])
  | .text content :: others => (content ++ (rows level others).1, (rows level others).2)
  | .line :: others => ("", ⟨level, (rows level others).1⟩ :: (rows level others).2)
  | .margin :: others => ("\n" ++ (rows level others).1, (rows level others).2)
  | .indent :: others => rows (level + 1) others
  | .dedent :: others => rows (level - 1) others

/-- Open levels move the rows to the right and do nothing else. -/
theorem Layout.Nested.write_rows {layout : Layout} {level : Nat} (nested : layout.Nested level) (base : Nat)
    (output : String) :
    Writer.write ⟨output, base + level⟩ layout =
      ⟨output ++ Row.joined base (⟨level, (layout.rows level).1⟩ :: (layout.rows level).2),
        base + layout.levelAfter level⟩ := by
  induction layout generalizing level output with
  | nil => simp [rows, Row.joined]
  | cons directive others ih =>
    obtain ⟨allowed, later⟩ := nested
    rw [Writer.write_cons, Layout.levelAfter_cons]
    cases directive with
    | text content =>
      refine (ih later (output ++ content)).trans ?_
      simp [rows, Row.joined, Directive.levelAfter, String.append_assoc]
    | line =>
      refine (ih later (output ++ "\n" ++ Writer.indentation (base + level))).trans ?_
      simp [rows, Row.joined, Row.placed, Directive.levelAfter, String.append_assoc]
    | margin =>
      refine (ih later (output ++ "\n")).trans ?_
      simp [rows, Row.joined, Directive.levelAfter, String.append_assoc]
    | indent => exact ih later output
    | dedent =>
      have place : base + level - 1 = base + (level - 1) := Nat.add_sub_assoc allowed base
      refine (congrArg (fun level => Writer.write ⟨output, level⟩ others) place).trans ?_
      exact ih later output

private theorem intercalate_eq_join (separator first : String) (others : List String) :
    separator.intercalate (first :: others) = first ++ String.join (others.map (separator ++ ·)) := by
  induction others generalizing first with
  | nil => simp
  | cons second others ih => simp [ih, String.append_assoc]

namespace Row

private theorem placed_eq (base : Nat) (row : Row) : row.placed base = Writer.indentation base ++ row.placed 0 := by
  simp [placed, Writer.indentation, Nat.mul_add, ← List.replicate_append_replicate, String.append_assoc]

private theorem joined_eq_intercalate (base : Nat) (text : String) (others : List Row) :
    joined base (⟨0, text⟩ :: others) =
      ("\n" ++ Writer.indentation base).intercalate ((⟨0, text⟩ :: others : List Row).map (placed 0)) := by
  have first : placed 0 ⟨0, text⟩ = text := String.empty_append
  have broken (row : Row) : "\n" ++ row.placed base = "\n" ++ Writer.indentation base ++ row.placed 0 := by
    rw [placed_eq base, String.append_assoc]
  simp only [joined, broken, List.map_cons, first, intercalate_eq_join, List.map_map, Function.comp_def]

end Row

namespace Java

def rows (value : Statement) : List Row := ⟨0, ((statement value).rows 0).1⟩ :: ((statement value).rows 0).2

private theorem write_statement (value : Statement) (output : String) (level : Nat) :
    Writer.write ⟨output, level⟩ (statement value) = ⟨output ++ Row.joined level (rows value), level⟩ := by
  have moved := (nested_statement 0 value).write_rows level output
  rwa [levelAfter_statement] at moved

private theorem render_statement (value : Statement) : (statement value).render = Row.joined 0 (rows value) := by
  rw [Layout.render, Writer.empty, write_statement, String.empty_append]

private theorem write_lines (statements : List Statement) (output : String) (level : Nat) :
    Writer.write ⟨output, level⟩ (lines statements) =
      ⟨output ++ String.join (statements.map fun value =>
        "\n" ++ Writer.indentation level ++ Row.joined level (rows value)), level⟩ := by
  induction statements generalizing output with
  | nil => simp [lines]
  | cons first others ih =>
    rw [lines, Writer.write_append, Writer.write_append]
    have broken : Writer.write ⟨output, level⟩ [.line] = ⟨output ++ "\n" ++ Writer.indentation level, level⟩ := rfl
    rw [broken, write_statement, ih]
    simp [String.append_assoc]

private theorem write_block (first : Statement) (others : List Statement) (output : String) (level : Nat) :
    Writer.write ⟨output, level⟩ (block (first :: others)) =
      ⟨output ++ String.join ((first :: others).map fun value =>
        "\n" ++ Writer.indentation (level + 1) ++ Row.joined (level + 1) (rows value)) ++
        ("\n" ++ Writer.indentation level), level⟩ := by
  have parts : block (first :: others) = .indent :: lines (first :: others) ++ [.dedent, .line] := by
    simp [block, lines]
  rw [parts, Writer.write_append, Writer.write_cons]
  refine (congrArg (fun writer => Writer.write writer [.dedent, .line]) (write_lines _ output (level + 1))).trans ?_
  simp [Writer.write, Writer.step, String.append_assoc]

private theorem render_program_nil : (program []).render = opening ++ closing := by decide

private theorem render_program_cons (first : Statement) (others : List Statement) :
    (program (first :: others)).render =
      opening ++ String.join ((first :: others).map fun value => "\n        " ++ Row.joined 2 (rows value)) ++
        "\n    " ++ closing := by
  have outer : "\n" ++ Writer.indentation 1 = "\n    " := by decide
  have inner : "\n" ++ Writer.indentation (1 + 1) = "\n        " := by decide
  have inside := Writer.ofList_written (write_block first others "" 1)
  rw [outer, inner, String.empty_append] at inside
  rw [render_program, inside, ← String.append_assoc]

/-- A compiled program is made of the texts of its statements. Each statement has rows that do not depend on
where it stands; below a level they are moved to the right by that level behind each line break of the
layout, and what stands on them, breaks inside strings included, is left as it is. -/
theorem compile_joins_fragments :
    (∀ value : Statement, (rows value).head?.map Row.level = some 0 ∧
      (∀ writer : Writer, writer.write (statement value) =
        ⟨writer.output ++ Row.joined writer.level (rows value), writer.level⟩) ∧
      (statement value).render = Row.joined 0 (rows value)) ∧
    (program []).render = opening ++ closing ∧
    (∀ statements : Program, statements ≠ [] → (program statements).render =
      opening ++ String.join (statements.map fun value => "\n        " ++ Row.joined 2 (rows value)) ++
        "\n    " ++ closing) ∧
    (∀ value : Statement, (statement value).render = "\n".intercalate ((rows value).map (Row.placed 0))) ∧
    ∀ (source : String) (statements : Program), Program.read source = .ok statements → statements ≠ [] →
      compile source = .ok (opening ++ String.join (statements.map fun value =>
        "\n        " ++ "\n        ".intercalate ((rows value).map (Row.placed 0))) ++ "\n    " ++ closing) := by
  have whole (statements : Program) (some : statements ≠ []) : (program statements).render =
      opening ++ String.join (statements.map fun value => "\n        " ++ Row.joined 2 (rows value)) ++
        "\n    " ++ closing := by
    obtain ⟨first, others, rfl⟩ := List.exists_cons_of_ne_nil some
    exact render_program_cons first others
  have atMargin : "\n" ++ Writer.indentation 0 = "\n" := by decide
  have inMethod : "\n" ++ Writer.indentation 2 = "\n        " := by decide
  refine ⟨fun value => ⟨rfl, fun writer => write_statement value writer.output writer.level, render_statement value⟩,
    render_program_nil, whole, ?_, ?_⟩
  · intro value
    rw [render_statement, rows, Row.joined_eq_intercalate, atMargin]
  · intro source statements read some
    have moved (value : Statement) :
        Row.joined 2 (rows value) = "\n        ".intercalate ((rows value).map (Row.placed 0)) := by
      rw [rows, Row.joined_eq_intercalate, inMethod]
    rw [compile, read, Except.map, whole statements some]
    simp only [moved]

theorem compile_joins_fragments_string :
    Program.read "WHILE a DO f(\"x\n  y\"); END" =
      .ok [.loop (.reference "a") [.expression (.call "f" [.literal (.string "x\n  y")])]] ∧
    (statement (.loop (.reference "a") [.expression (.call "f" [.literal (.string "x\n  y")])])).render =
      "while (a) \x7b\n    f(\"x\n  y\");\n\x7d" ∧
    compile "WHILE a DO f(\"x\n  y\"); END" =
      .ok (opening ++ "\n        while (a) \x7b\n            f(\"x\n  y\");\n        \x7d\n    " ++ closing) := by
  have read : Program.read "WHILE a DO f(\"x\n  y\"); END" =
      .ok [.loop (.reference "a") [.expression (.call "f" [.literal (.string "x\n  y")])]] := by cbv
  obtain ⟨_, _, _, alone, inProgram⟩ := compile_joins_fragments
  refine ⟨read, (alone _).trans (by decide), (inProgram _ _ read (by simp)).trans ?_⟩
  exact congrArg Except.ok (by decide)

end Java

end PlcJava
