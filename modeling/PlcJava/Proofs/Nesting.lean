import PlcJava.Proofs.LayoutText

/-! Layouts one after the other in one writer. A layout takes back only the levels that it has
added itself, so the writer never comes below the level at which it started, and nothing of one
layout shows in the next but the text. -/

set_option autoImplicit false

namespace PlcJava

/-- A level can be taken back only if one is open. -/
def Directive.Allowed (level : Nat) : Directive → Prop
  | dedent => 0 < level
  | text _ | line | margin | indent => True

namespace Layout

/-- Every level that is taken back is open at that place, when so many are open at the start. -/
def Nested (level : Nat) : Layout → Prop
  | [] => True
  | first :: others => first.Allowed level ∧ Nested (first.levelAfter level) others

@[simp]
theorem nested_nil (level : Nat) : Nested level [] := trivial

@[simp]
theorem nested_cons (level : Nat) (first : Directive) (others : Layout) :
    Nested level (first :: others) ↔ first.Allowed level ∧ Nested (first.levelAfter level) others := Iff.rfl

@[simp]
theorem nested_append (level : Nat) (first second : Layout) :
    Nested level (first ++ second) ↔ Nested level first ∧ Nested (levelAfter level first) second := by
  induction first generalizing level with
  | nil => simp
  | cons directive others ih => simp [ih, and_assoc]

private theorem Nested.levelAfter_add {layout : Layout} {level : Nat} (nested : Nested level layout) (base : Nat) :
    levelAfter (base + level) layout = base + levelAfter level layout := by
  induction layout generalizing level with
  | nil => rfl
  | cons directive others ih =>
    obtain ⟨allowed, later⟩ := nested
    have moved : directive.levelAfter (base + level) = base + directive.levelAfter level := by
      cases directive with
      | dedent => exact Nat.add_sub_assoc allowed base
      | text _ | line | margin | indent => rfl
    rw [levelAfter_cons, moved]
    exact ih later

/-- Wherever the layout starts, a level that it takes back lies above that start. -/
theorem Nested.lt_levelAfter {before after : Layout} (nested : Nested 0 (before ++ .dedent :: after)) (base : Nat) :
    base < levelAfter base before := by
  obtain ⟨first, allowed, _⟩ := (nested_append 0 before _).mp nested
  have moved := first.levelAfter_add base
  rw [Nat.add_zero] at moved
  rw [moved]
  exact Nat.lt_add_of_pos_right allowed

end Layout

namespace Java

mutual
theorem nested_statement (level : Nat) (value : Statement) : (statement value).Nested level := by
  match value with
  | .expression _ | .declaration _ _ none | .declaration _ _ (some _) | .assignment _ _ =>
    simp [statement, Directive.Allowed]
  | .conditional _ thenBody [] =>
    simp [statement, Directive.Allowed, Directive.levelAfter, nested_block level thenBody]
  | .conditional _ thenBody (first :: others) =>
    simp [statement, Directive.Allowed, Directive.levelAfter, nested_block level thenBody,
      nested_block level (first :: others)]
  | .loop _ body => simp [statement, Directive.Allowed, Directive.levelAfter, nested_block level body]

private theorem nested_block (level : Nat) (statements : List Statement) : (block statements).Nested level := by
  match statements with
  | [] => exact Layout.nested_nil level
  | first :: others =>
    simp [block, Directive.Allowed, Directive.levelAfter, nested_statement (level + 1) first,
      nested_lines (level + 1) others]

private theorem nested_lines (level : Nat) (statements : List Statement) : (lines statements).Nested level := by
  match statements with
  | [] => exact Layout.nested_nil level
  | first :: others =>
    simp [lines, Directive.Allowed, Directive.levelAfter, nested_statement level first, nested_lines level others]
end

private theorem nested_program (level : Nat) (statements : Program) : (program statements).Nested level := by
  simp [program, Directive.Allowed, Directive.levelAfter, nested_block (level + 1) statements]

private theorem levelAfter_program (level : Nat) (statements : Program) :
    (program statements).levelAfter level = level := by
  simp [program, Directive.levelAfter]

/-- What a writer can be asked to add. -/
inductive Operation where
  | program (statements : Program)
  | statement (value : Statement)
  | expression (value : Expression)

namespace Operation

def layout : Operation → Layout
  | program statements => Java.program statements
  | statement value => Java.statement value
  | expression value => [.text (Java.expression value)]

def text : Operation → String
  | program statements => (Java.program statements).render
  | statement value => (Java.statement value).render
  | expression value => Java.expression value

private theorem render_layout (operation : Operation) : operation.layout.render = operation.text := by
  cases operation with
  | program _ | statement _ => rfl
  | expression value => exact String.empty_append

private theorem nested_layout (operation : Operation) : operation.layout.Nested 0 := by
  cases operation with
  | program statements => exact nested_program 0 statements
  | statement value => exact nested_statement 0 value
  | expression value => simp [layout, Directive.Allowed]

private theorem levelAfter_layout (operation : Operation) (level : Nat) :
    operation.layout.levelAfter level = level := by
  cases operation with
  | program statements => exact levelAfter_program level statements
  | statement value => exact levelAfter_statement level value
  | expression value => rfl

private theorem write_layout (operation : Operation) (output : String) :
    Writer.write ⟨output, 0⟩ operation.layout = ⟨output ++ operation.text, 0⟩ := by
  have alone : operation.text = String.ofList (operation.layout.written 0) := by
    rw [← Layout.toList_render, render_layout, String.ofList_toList]
  rw [Writer.write_eq, levelAfter_layout, alone]

private theorem write_layouts (operations : List Operation) (output : String) :
    Writer.write ⟨output, 0⟩ (operations.flatMap layout) = ⟨output ++ String.join (operations.map text), 0⟩ := by
  induction operations generalizing output with
  | nil => simp
  | cons operation others ih =>
    rw [List.flatMap_cons, Writer.write_append, write_layout, ih, List.map_cons, String.join_cons, String.append_assoc]

private theorem session_layouts (operations : List Operation) (output : String) :
    Writer.session ⟨output, 0⟩ (operations.map layout) =
      (List.range operations.length).map fun index =>
        output ++ String.join ((operations.take (index + 1)).map text) := by
  induction operations generalizing output with
  | nil => rfl
  | cons operation others ih =>
    rw [List.map_cons, Writer.session, write_layout, ih, List.length_cons, List.range_succ_eq_map]
    simp [String.append_assoc, Function.comp_def]

private theorem nested_layouts (operations : List Operation) : Layout.Nested 0 (operations.flatMap layout) := by
  induction operations with
  | nil => exact Layout.nested_nil 0
  | cons operation others ih =>
    rw [List.flatMap_cons, Layout.nested_append, levelAfter_layout]
    exact ⟨operation.nested_layout, ih⟩

end Operation

/-- One writer for many operations. After each of them it holds their texts, each as by itself, in order
and with nothing between; each gives back the level that it found, and no level is taken back that is
not open. -/
theorem session_appends (operations : List Operation) :
    Writer.empty.session (operations.map Operation.layout) =
      (List.range operations.length).map (fun index =>
        String.join ((operations.take (index + 1)).map Operation.text)) ∧
    (∀ count, Writer.empty.write ((operations.take count).flatMap Operation.layout) =
      ⟨String.join ((operations.take count).map Operation.text), 0⟩) ∧
    (∀ (operation : Operation) (writer : Writer), (writer.write operation.layout).level = writer.level ∧
      ∀ before after, operation.layout = before ++ .dedent :: after →
        writer.level < (writer.write before).level) ∧
    ∀ before after, operations.flatMap Operation.layout = before ++ .dedent :: after →
      0 < (Writer.empty.write before).level := by
  refine ⟨?_, ?_, ?_, ?_⟩
  · rw [Writer.empty, Operation.session_layouts]
    simp only [String.empty_append]
  · intro count
    rw [Writer.empty, Operation.write_layouts, String.empty_append]
  · intro operation writer
    constructor
    · rw [Writer.write_eq]
      exact operation.levelAfter_layout writer.level
    · intro before after split
      rw [Writer.write_eq]
      exact Layout.Nested.lt_levelAfter (split ▸ operation.nested_layout) writer.level
  · intro before after split
    rw [Writer.write_eq]
    exact Layout.Nested.lt_levelAfter (split ▸ Operation.nested_layouts operations) 0

theorem session_appends_loop :
    Writer.empty.session [Java.statement (.loop (.reference "a") [.expression (.reference "b")]),
        [.text "c"]] = ["while (a) \x7b\n    b;\n\x7d", "while (a) \x7b\n    b;\n\x7dc"] ∧
      Java.statement (.loop (.reference "a") [.expression (.reference "b")]) =
        [.text "while (", .text "a", .text ") \x7b", .indent, .line, .text "b", .text ";"] ++
          .dedent :: [.line, .text "\x7d"] ∧
      5 < (Writer.write ⟨"x", 5⟩
        [.text "while (", .text "a", .text ") \x7b", .indent, .line, .text "b", .text ";"]).level := by
  have split : Java.statement (.loop (.reference "a") [.expression (.reference "b")]) =
        [.text "while (", .text "a", .text ") \x7b", .indent, .line, .text "b", .text ";"] ++
          .dedent :: [.line, .text "\x7d"] := rfl
  obtain ⟨texts, _, restores, _⟩ := session_appends
    [.statement (.loop (.reference "a") [.expression (.reference "b")]), .expression (.reference "c")]
  have opened := (restores (.statement (.loop (.reference "a") [.expression (.reference "b")])) ⟨"x", 5⟩).2 _ _ split
  exact ⟨texts.trans (by decide), split, opened⟩

end Java

end PlcJava
