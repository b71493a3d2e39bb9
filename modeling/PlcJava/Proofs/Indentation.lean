import PlcJava.Proofs.BraceDepth
import PlcJava.Proofs.ExpressionText

/-! The indentation of the Java text. Outside strings, only blocks write braces and only the writer
breaks lines. So its level is the number of open braces, and one less before a brace that closes. -/

set_option autoImplicit false

namespace PlcJava

/-! The texts of trees. -/

private theorem isPlain_of_isWordPart {c : Char} (part : isWordPart c = true) : isPlain c = true := by
  simp only [isPlain, Bool.and_eq_true, bne_iff_ne]
  refine ⟨⟨⟨?_, ?_⟩, ?_⟩, ?_⟩
  all_goals
    rintro rfl
    cases part

private theorem DigitGroups.plain {text : List Char} (groups : DigitGroups text) : text.all isPlain = true := by
  induction groups with
  | nil => rfl
  | digit digit _ ih => simp [isPlain_of_isWordPart (isWordPart_of_isDigit digit), ih]
  | pair before after _ ih =>
    have point : isPlain '.' = true := by decide
    simp [isPlain_of_isWordPart (isWordPart_of_isDigit before), isPlain_of_isWordPart (isWordPart_of_isDigit after),
      point, ih]

/-- Only an operator could be a brace. -/
theorem Sits.token {kind : Kind} {text rest : List Char} {level : Nat} (shape : kind.Shape text)
    (other : kind ≠ .operator) : Sits level text rest := by
  cases kind with
  | identifier =>
    obtain ⟨first, others, rfl, start, parts⟩ := shape
    apply plain
    rw [List.all_cons, isPlain_of_isWordPart (isWordPart_of_isWordStart start), Bool.true_and, List.all_eq_true]
    exact fun c member => isPlain_of_isWordPart (parts c member)
  | integer => exact plain (DigitGroups.of_digits shape.2).plain
  | decimal => exact plain shape.1.plain
  | string =>
    obtain ⟨contents, rfl, noQuote⟩ := shape
    exact quoted noQuote
  | operator => exact absurd rfl other

private theorem IsName.sits {name : String} (isName : IsName name) (level : Nat) (rest : List Char) :
    Sits level name.toList rest :=
  .token isName (by decide)

/-- The text begins with a character that takes part in a token and closes no brace. -/
def Opens (text : List Char) : Prop :=
  ∃ c later, text = c :: later ∧ (isWordPart c = true ∨ c = '"' ∨ c = '(')

namespace Opens

variable {text : List Char}

private theorem append (opens : Opens text) (later : List Char) : Opens (text ++ later) := by
  obtain ⟨c, others, rfl, start⟩ := opens
  exact ⟨c, others ++ later, rfl, start⟩

private theorem indented (opens : Opens text) (level : Nat) :
    Indented level (List.replicate (4 * level) ' ' ++ text) := by
  obtain ⟨c, later, rfl, start⟩ := opens
  have visible : c ≠ ' ' ∧ c ≠ '\n' ∧ c ≠ '\x7d' := by
    refine ⟨?_, ?_, ?_⟩
    all_goals
      rintro rfl
      revert start
      decide
  exact ⟨level, c, later, rfl, visible.1, visible.2.1, by rw [if_neg visible.2.2]⟩

private theorem token {kind : Kind} (shape : kind.Shape text) (other : kind ≠ .operator) : Opens text := by
  cases kind with
  | identifier =>
    obtain ⟨first, others, rfl, start, _⟩ := shape
    exact ⟨first, others, rfl, .inl (isWordPart_of_isWordStart start)⟩
  | integer =>
    obtain ⟨c, later, rfl⟩ := List.exists_cons_of_ne_nil shape.1
    exact ⟨c, later, rfl, .inl (isWordPart_of_isDigit (shape.2 c (by simp)))⟩
  | decimal =>
    obtain ⟨c, later, rfl⟩ := List.exists_cons_of_ne_nil (List.ne_nil_of_mem shape.2)
    exact ⟨c, later, rfl, .inl (isWordPart_of_isDigit shape.1.first)⟩
  | string =>
    obtain ⟨contents, rfl, _⟩ := shape
    exact ⟨'"', contents ++ ['"'], rfl, .inr (.inl rfl)⟩
  | operator => exact absurd rfl other

end Opens

private theorem IsName.opens {name : String} (isName : IsName name) : Opens name.toList :=
  .token isName (by decide)

private theorem Literal.kind_ne_operator (value : Literal) : value.kind ≠ .operator := by
  intro same
  cases value <;> cases same

private theorem Grammar.Binds.plain {level : Nat} {literal : String} (binds : Binds level literal) :
    (" " ++ literal ++ " ").toList.all isPlain = true := by
  cases binds <;> decide

namespace Expression

private theorem Proper.opens {value : Expression} (proper : value.Proper) : Opens (Java.expression value).toList := by
  match value with
  | reference name => exact proper.1.opens
  | call name values =>
    rw [Java.expression]
    simp only [String.toList_append, List.append_assoc]
    exact proper.1.opens.append _
  | literal value =>
    rw [Java.expression]
    exact .token proper.shape_literal value.kind_ne_operator
  | group inner =>
    have text : (Java.expression (group inner)).toList = '(' :: ((Java.expression inner).toList ++ [')']) := by
      simp [Java.expression]
    exact ⟨'(', _, text, .inr (.inr rfl)⟩
  | binary operator left right =>
    have leftProper : left.Proper := proper.2.2.1
    rw [Java.expression]
    simp only [String.toList_append, List.append_assoc]
    exact leftProper.opens.append _

mutual
private theorem Proper.sits {value : Expression} (proper : value.Proper) (level : Nat) (rest : List Char) :
    Sits level (Java.expression value).toList rest := by
  match value with
  | literal value =>
    rw [Java.expression]
    exact .token proper.shape_literal value.kind_ne_operator
  | reference name => exact proper.1.sits level rest
  | group inner =>
    have innerProper : inner.Proper := proper
    have opened : Sits level ['('] ((Java.expression inner).toList ++ ([')'] ++ rest)) := .plain rfl
    have text : (Java.expression (group inner)).toList = ['('] ++ (Java.expression inner).toList ++ [')'] := by
      simp [Java.expression]
    rw [text]
    exact (opened.append (innerProper.sits level _)).append (.plain rfl)
  | binary operator left right =>
    obtain ⟨below, _, leftProper, rightProper⟩ := proper
    have binds := Grammar.binds_rank (Nat.zero_lt_of_lt below)
    have text : (Java.expression (binary operator left right)).toList =
        (Java.expression left).toList ++ (" " ++ operator ++ " ").toList ++ (Java.expression right).toList := by
      simp [Java.expression]
    rw [text]
    exact ((leftProper.sits level _).append (.plain binds.plain)).append (rightProper.sits level rest)
  | call name values =>
    obtain ⟨isName, valuesProper, _⟩ := proper
    have text : (Java.expression (call name values)).toList =
        name.toList ++ ['('] ++ (Java.arguments values).toList ++ [')'] := by
      simp [Java.expression]
    rw [text]
    exact (((isName.sits level _).append (.plain rfl)).append (valuesProper.sits level _)).append (.plain rfl)

private theorem ProperAll.sits {values : List Expression} (proper : ProperAll values) (level : Nat) (rest : List Char) :
    Sits level (Java.arguments values).toList rest := by
  match values with
  | [] => exact .plain rfl
  | [last] =>
    rw [Java.arguments]
    exact proper.1.sits level rest
  | first :: second :: others =>
    have text : (Java.arguments (first :: second :: others)).toList =
        (Java.expression first).toList ++ [',', ' '] ++ (Java.arguments (second :: others)).toList := by
      simp [Java.arguments]
    rw [text]
    exact ((proper.1.sits level _).append (.plain rfl)).append (proper.2.sits level rest)
end

end Expression

namespace Statement

private theorem Proper.opens {statement : Statement} (proper : statement.Proper) (level : Nat) :
    Opens ((Java.statement statement).written level) := by
  match statement with
  | expression value => exact proper.1.opens.append _
  | declaration _ _ none | declaration _ _ (some _) => exact proper.2.1.opens.append _
  | assignment name value => exact proper.1.opens.append _
  | conditional _ _ [] | conditional _ _ (_ :: _) => exact ⟨'i', _, rfl, .inl (by decide)⟩
  | loop _ _ => exact ⟨'w', _, rfl, .inl (by decide)⟩

private theorem sits_assigned {name : String} {value : Expression} (isName : IsName name) (proper : value.Proper)
    (level : Nat) (rest : List Char) :
    Sits level (name.toList ++ " = ".toList ++ (Java.expression value).toList ++ [';']) rest :=
  (((isName.sits level _).append (.plain rfl)).append (proper.sits level _)).append (.plain rfl)

private theorem sits_head {condition : Expression} (proper : condition.Proper) (keyword : String) (level : Nat)
    (rest : List Char) (plain : keyword.toList.all isPlain = true := by rfl) :
    Sits level (keyword.toList ++ (Java.expression condition).toList ++ ") ".toList) rest :=
  ((Sits.plain plain).append (proper.sits level _)).append (.plain rfl)

private theorem sits_block {statements : List Statement} {level : Nat} {rest : List Char}
    (inner : ∀ rest, Sits (level + 1) ((Java.lines statements).written (level + 1)) rest) :
    Sits level ('\x7b' :: (Java.block statements).written level ++ ['\x7d']) rest := by
  apply Sits.braces
  cases statements with
  | nil => exact .plain rfl
  | cons first others =>
    rw [Java.written_block_cons]
    exact (inner _).append (.closing level rest)

mutual
private theorem Proper.sits {statement : Statement} (proper : statement.Proper) (level : Nat) (rest : List Char) :
    Sits level ((Java.statement statement).written level) rest := by
  match statement with
  | expression value =>
    have text : (Java.statement (expression value)).written level = (Java.expression value).toList ++ [';'] := by
      simp [Java.statement, Layout.written, Directive.written]
    rw [text]
    exact (proper.1.sits level _).append (.plain rfl)
  | declaration name typeName none =>
    have text : (Java.statement (declaration name typeName none)).written level =
        typeName.toList ++ [' '] ++ name.toList ++ [';'] := by
      simp [Java.statement, Layout.written, Directive.written]
    rw [text]
    exact (((proper.2.1.sits level _).append (.plain rfl)).append (proper.1.sits level _)).append (.plain rfl)
  | declaration name typeName (some value) =>
    have text : (Java.statement (declaration name typeName (some value))).written level =
        typeName.toList ++ [' '] ++ (name.toList ++ " = ".toList ++ (Java.expression value).toList ++ [';']) := by
      simp [Java.statement, Layout.written, Directive.written]
    have assigned := sits_assigned proper.1 (proper.2.2 value rfl) level rest
    rw [text]
    exact ((proper.2.1.sits level _).append (.plain rfl)).append assigned
  | assignment name value =>
    have text : (Java.statement (assignment name value)).written level =
        name.toList ++ " = ".toList ++ (Java.expression value).toList ++ [';'] := by
      simp [Java.statement, Layout.written, Directive.written]
    rw [text]
    exact sits_assigned proper.1 proper.2.2 level rest
  | conditional condition thenBody [] =>
    have inner := ProperAll.sits_lines proper.2.1 (level + 1)
    rw [Java.written_conditional]
    exact (sits_head proper.1 "if (" level _).append (sits_block inner)
  | conditional condition thenBody (first :: others) =>
    have inner := ProperAll.sits_lines proper.2.1 (level + 1)
    have other := ProperAll.sits_lines proper.2.2 (level + 1)
    rw [Java.written_alternative]
    apply Sits.append _ (sits_block other)
    apply Sits.append _ (.plain rfl)
    exact (sits_head proper.1 "if (" level _).append (sits_block inner)
  | loop condition body =>
    have inner := ProperAll.sits_lines proper.2 (level + 1)
    rw [Java.written_loop]
    exact (sits_head proper.1 "while (" level _).append (sits_block inner)

private theorem ProperAll.sits_lines {stops : List String} {statements : List Statement}
    (proper : ProperAll stops statements)
    (level : Nat) (rest : List Char) : Sits level ((Java.lines statements).written level) rest := by
  match statements with
  | [] => exact .plain rfl
  | first :: others =>
    have opens := ((Proper.opens proper.1 level).append ((Java.lines others).written level)).append rest
    have here := Proper.sits proper.1 level
    have later := ProperAll.sits_lines proper.2.2 level rest
    rw [Java.written_lines_cons]
    exact (Sits.lineBreak (opens.indented level)).append ((here _).append later)
end

end Statement

/-! The whole text. -/

/-- What holds at each position of a Java text. Once a brace is open, one is open until the last. Where a
line ends and no string is open, the next line is indented or it is empty, and then it is the second
of the text or the one before the last brace. -/
structure Arranged (before rest : List Char) : Prop where
  nonneg : 0 ≤ (placeAfter before).depth
  enclosed : (placeAfter before).depth = 0 → '\x7b' ∉ before ∨ '\x7d' ∉ rest
  indented : before.count '"' % 2 = 0 → ∀ line, rest = '\n' :: line → line ≠ [] → line.head? ≠ some '\n' →
    Indented (placeAfter before).depth line
  empty : before.count '"' % 2 = 0 → ∀ later, rest = '\n' :: '\n' :: later → '\n' ∉ before ∨ later = ['\x7d', '\n']

namespace Arranged

variable {before rest : List Char}

private theorem of_steady (steady : Steady 1 before rest) : Arranged before rest := by
  have above := steady.above
  have indented : before.count '"' % 2 = 0 → ∀ line, rest = '\n' :: line → Indented (placeAfter before).depth line := by
    intro even
    apply steady.indented
    simp [quoted_placeAfter, even]
  refine ⟨by omega, fun closed => by omega, fun even line same _ _ => indented even line same, ?_⟩
  intro even later same
  exact absurd (indented even _ same) Indented.not_newline

private theorem of_plain (plain : before.all isPlain = true) {c : Char} (visible : c ≠ '\n') :
    Arranged before (c :: rest) := by
  have still : placeAfter ([] ++ before) = ⟨false, 0⟩ :=
    placeAfter_still rfl fun c member => Place.step_plain _ (List.all_eq_true.mp plain c member)
  have noBrace : '\x7b' ∉ before := fun member => absurd (List.all_eq_true.mp plain _ member) (by decide)
  rw [List.nil_append] at still
  refine ⟨by rw [still], fun _ => .inl noBrace, ?_, ?_⟩
  · intro _ line same
    exact absurd (List.cons.inj same).1 visible
  · intro _ later same
    exact absurd (List.cons.inj same).1 visible

private theorem throughout_plain {text : List Char} (plain : text.all isPlain = true) :
    Throughout Arranged [] text rest := by
  intro first c second same
  rw [same, List.all_append, List.all_cons, Bool.and_eq_true, Bool.and_eq_true] at plain
  apply of_plain plain.1
  rintro rfl
  cases plain.2.1

private theorem of_empty (above : 1 ≤ (placeAfter before).depth) (known : '\n' ∉ before ∨ rest = ['\x7d', '\n']) :
    Arranged before ('\n' :: '\n' :: rest) := by
  refine ⟨by omega, fun closed => by omega, ?_, ?_⟩
  · intro _ line same _ other
    obtain ⟨_, rfl⟩ := List.cons.inj same
    exact absurd rfl other
  · intro _ later same
    cases same
    exact known

private theorem of_last (above : 0 ≤ (placeAfter before).depth) : Arranged before ['\n'] := by
  refine ⟨above, fun _ => .inr (by decide), ?_, ?_⟩
  · intro _ line same nonempty
    exact absurd (List.cons.inj same).2.symm nonempty
  · intro _ later same
    cases same

private theorem of_end (above : 0 ≤ (placeAfter before).depth) : Arranged before [] := by
  refine ⟨above, fun _ => .inr List.not_mem_nil, ?_, ?_⟩
  · intro _ line same
    cases same
  · intro _ later same
    cases same

end Arranged

private theorem Statement.ProperAll.sits_method {program : Program} (proper : ProperAll [] program) (rest : List Char) :
    Sits 1 (lineBreak 1 ++ ("public static void main(String[] args) ".toList ++
      ('\x7b' :: (Java.block program).written 1 ++ ['\x7d']))) rest := by
  have body : Sits 1 ('\x7b' :: (Java.block program).written 1 ++ ['\x7d']) rest :=
    sits_block (ProperAll.sits_lines proper 2)
  have opens : Opens ("public static void main(String[] args) ".toList ++
      ('\x7b' :: (Java.block program).written 1 ++ ['\x7d']) ++ rest) := ⟨'p', _, rfl, .inl (by decide)⟩
  exact (Sits.lineBreak (opens.indented 1)).append ((Sits.plain rfl).append body)

private theorem Program.arranged {program : Program} (proper : Statement.ProperAll [] program) :
    placeAfter (Java.program program).render.toList = ⟨false, 0⟩ ∧
      Throughout Arranged [] (Java.program program).render.toList [] := by
  have method := proper.sits_method
  have opened : placeAfter ("public final class Main ".toList ++ ['\x7b'] ++ ['\n']) = ⟨false, (1 : Nat)⟩ := by decide
  have inside := (method ['\n', '\n', '\x7d', '\n']).arrives _ opened
  rw [Java.toList_render_program]
  generalize "public static void main(String[] args) ".toList ++
    ('\x7b' :: (Java.block program).written 1 ++ ['\x7d']) = text at *
  have ended := (placeAfter_push _ '\n').trans (congrArg (Place.step · '\n') inside)
  have parted := (placeAfter_push _ '\n').trans (congrArg (Place.step · '\n') ended)
  have closed := (placeAfter_push _ '\x7d').trans (congrArg (Place.step · '\x7d') parted)
  constructor
  · rw [placeAfter_push, closed]
    rfl
  · refine .append ?_ (.single (.of_last (by rw [List.nil_append, closed]; decide)))
    refine .append ?_ (.single (.of_steady (.visible (by rw [List.nil_append, parted]; decide))))
    refine .append ?_ (((Sits.closing 0 ['\n']).steady _ ended).imp fun _ _ => .of_steady)
    refine .append ?_ (.single (.of_empty (by rw [List.nil_append, inside]; decide) (.inr rfl)))
    refine .append ?_ (((method _).steady _ opened).imp fun _ _ => .of_steady)
    refine .append ?_ (.single (.of_empty (by decide) (.inl (by decide))))
    exact (Arranged.throughout_plain rfl).append (.single (.of_plain rfl (by decide)))

/-- Indentation follows the braces. They are balanced and enclose all but the name of the class, each
line is indented by four spaces for every brace that is open where it begins, and the empty lines are
the second and the one before the last brace. -/
theorem compile_indented {source java : String} (compiled : compile source = .ok java) :
    placeAfter java.toList = ⟨false, 0⟩ ∧
      (∀ before rest, java.toList = before ++ rest → Arranged before rest) ∧
      (∃ first later, java.toList = first ++ '\n' :: '\n' :: later ∧ first ≠ [] ∧ '\n' ∉ first) ∧
      ∃ body, java.toList = body ++ ['\n', '\n', '\x7d', '\n'] := by
  obtain ⟨program, read, rfl⟩ := compile_eq_ok.mp compiled
  obtain ⟨balanced, arranged⟩ := Program.arranged (Program.proper_of_read read)
  refine ⟨balanced, ?_, ?_, ?_⟩
  · intro before rest same
    cases rest with
    | nil =>
      rw [List.append_nil] at same
      rw [← same]
      exact .of_end (by rw [balanced])
    | cons c rest =>
      have here := arranged before c rest same
      rwa [List.nil_append, List.append_nil] at here
  · rw [Java.toList_render_program]
    exact ⟨"public final class Main \x7b".toList, _, rfl, by decide, by decide⟩
  · rw [Java.toList_render_program]
    rw [List.append_assoc, List.append_assoc, List.append_assoc]
    exact ⟨_, rfl⟩

theorem compile_indented_string :
    let java := "public final class Main \x7b\n\n    public static void main(String[] args) \x7b\n" ++
      "        if (a) \x7b\n            x = \"\x7b\n\";\n        \x7d\n    \x7d\n\n\x7d\n"
    compile "IF a THEN x = \"\x7b\n\"; END" = .ok java ∧ placeAfter java.toList = ⟨false, 0⟩ ∧
      (∀ before rest, java.toList = before ++ rest → Arranged before rest) ∧
      (∃ first later, java.toList = first ++ '\n' :: '\n' :: later ∧ first ≠ [] ∧ '\n' ∉ first) ∧
      ∃ body, java.toList = body ++ ['\n', '\n', '\x7d', '\n'] := by
  intro java
  have compiled : compile "IF a THEN x = \"\x7b\n\"; END" = .ok java := by
    unfold java
    cbv
  exact ⟨compiled, compile_indented compiled⟩

end PlcJava
