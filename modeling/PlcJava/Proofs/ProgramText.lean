import PlcJava.Proofs.ExpressionText
import PlcJava.Proofs.LayoutText

/-! The words of the Java text of statements. Where a line breaks and how far it is indented
adds no words, and since every statement ends with a sign of one character, its words are the
same whatever follows it. -/

set_option autoImplicit false

namespace PlcJava

/-- Written from the first level on, the layout adds a text with these words and comes to the
second level. -/
def Prints (layout : Layout) (words : List Word) (before after : Nat) : Prop :=
  ∃ text : String, (∀ output, Writer.write ⟨output, before⟩ layout = ⟨output ++ text, after⟩) ∧
    ∀ rest, Spells text.toList words rest

namespace Prints

variable {first second : Layout} {firstWords secondWords : List Word} {before middle after : Nat}

private theorem nil (level : Nat) : Prints [] [] level level := by
  refine ⟨"", ?_, Spells.nil⟩
  intro output
  rw [Writer.write_nil, String.append_empty]

theorem append (left : Prints first firstWords before middle) (right : Prints second secondWords middle after) :
    Prints (first ++ second) (firstWords ++ secondWords) before after := by
  obtain ⟨leftText, leftWrites, leftSpells⟩ := left
  obtain ⟨rightText, rightWrites, rightSpells⟩ := right
  refine ⟨leftText ++ rightText, ?_, ?_⟩
  · intro output
    rw [Writer.write_append, leftWrites, rightWrites, String.append_assoc]
  · intro rest
    rw [String.toList_append]
    exact (leftSpells _).append (rightSpells rest)

theorem line (level : Nat) : Prints [.line] [] level level := by
  refine ⟨"\n" ++ Writer.indentation level, ?_, ?_⟩
  · intro output
    rw [← String.append_assoc]
    rfl
  · apply Spells.blanks
    intro c member
    rw [String.toList_append] at member
    rcases List.mem_append.mp member with member | member
    · rw [List.mem_singleton.mp member]
      decide
    · rw [Writer.indentation, String.toList_ofList] at member
      rw [List.eq_of_mem_replicate member]
      decide

theorem margin (level : Nat) : Prints [.margin] [] level level :=
  ⟨"\n", fun _ => rfl, fun rest => Spells.blank (by decide) rest⟩

theorem indent (level : Nat) : Prints [.indent] [] level (level + 1) := by
  refine ⟨"", ?_, Spells.nil⟩
  intro output
  rw [String.append_empty]
  rfl

theorem dedent (level : Nat) : Prints [.dedent] [] (level + 1) level := by
  refine ⟨"", ?_, Spells.nil⟩
  intro output
  rw [String.append_empty]
  rfl

private theorem write_texts (contents : List String) (output : String) (level : Nat) :
    Writer.write ⟨output, level⟩ (contents.map .text) = ⟨output ++ String.join contents, level⟩ := by
  induction contents generalizing output with
  | nil => simp
  | cons content contents ih =>
    rw [List.map_cons, Writer.write_cons, Writer.step, ih, String.join_cons, String.append_assoc]

theorem texts {contents : List String} {words : List Word}
    (spells : ∀ rest, Spells (String.join contents).toList words rest) (level : Nat) :
    Prints (contents.map .text) words level level :=
  ⟨String.join contents, fun output => write_texts contents output level, spells⟩

theorem lex {layout : Layout} {words : List Word} {level : Nat} (prints : Prints layout words 0 level) :
    ∃ tokens, PlcJava.lex layout.render = .ok tokens ∧ tokens.map Token.word = words := by
  obtain ⟨text, writes, spells⟩ := prints
  have rendered : layout.render = text := by
    rw [Layout.render, Writer.empty, writes, String.empty_append]
  rw [rendered]
  exact (spells []).lex

end Prints

/-- The beginning of a statement, from which it can be told what statement it is. The
condition in the parentheses of `if` and `while` is the argument of a call until the brace. -/
inductive Opening where
  | declaration (typeName name : String)
  | assignment (name : String)
  | phrase (value : Expression) (ends : String)

def Opening.words : Opening → List Word
  | declaration typeName name => [Word.name typeName, .name name]
  | assignment name => [Word.name name, .sign "="]
  | phrase value ends => value.words ++ [Word.sign ends]

namespace Statement

def opening : Statement → Opening
  | expression value => .phrase value ";"
  | declaration name typeName _ => .declaration typeName name
  | assignment name _ => .assignment name
  | conditional condition _ _ => .phrase (.call "if" [condition]) "\x7b"
  | loop condition _ => .phrase (.call "while" [condition]) "\x7b"

mutual
def remainder : Statement → List Word
  | expression _ => []
  | declaration _ _ none => [Word.sign ";"]
  | declaration _ _ (some value) => [Word.sign "="] ++ value.words ++ [Word.sign ";"]
  | assignment _ value => value.words ++ [Word.sign ";"]
  | conditional _ thenBody elseBody => wordsAll thenBody ++ [Word.sign "\x7d"] ++ alternative elseBody
  | loop _ body => wordsAll body ++ [Word.sign "\x7d"]

/-- An empty second branch is not written. -/
def alternative : List Statement → List Word
  | [] => []
  | first :: others =>
    [Word.name "else"] ++ [Word.sign "\x7b"] ++ (first.opening.words ++ first.remainder ++ wordsAll others) ++
      [Word.sign "\x7d"]

def wordsAll : List Statement → List Word
  | [] => []
  | first :: others => first.opening.words ++ first.remainder ++ wordsAll others
end

def words (statement : Statement) : List Word := statement.opening.words ++ statement.remainder

theorem alternative_cons (first : Statement) (others : List Statement) :
    alternative (first :: others) =
      [Word.name "else"] ++ [Word.sign "\x7b"] ++ wordsAll (first :: others) ++ [Word.sign "\x7d"] := by
  rw [alternative, wordsAll]

theorem wordsAll_cons (first : Statement) (others : List Statement) :
    wordsAll (first :: others) = first.words ++ wordsAll others := by
  rw [wordsAll, words]

mutual
def shown : Statement → Statement
  | expression value => expression value.shown
  | declaration name typeName value => declaration name typeName (value.map Expression.shown)
  | assignment name value => assignment name value.shown
  | conditional condition thenBody elseBody =>
    conditional condition.shown (shownAll thenBody) (shownAll elseBody)
  | loop condition body => loop condition.shown (shownAll body)

def shownAll : List Statement → List Statement
  | [] => []
  | first :: others => first.shown :: shownAll others
end

private theorem spells_head {condition : Expression} (proper : condition.Proper) {keyword : String}
    (isName : IsName keyword) (rest : List Char) :
    Spells (String.join [keyword ++ " (", Java.expression condition, ") \x7b"]).toList
      ((Expression.call keyword [condition]).words ++ [Word.sign "\x7b"]) rest := by
  have text : (String.join [keyword ++ " (", Java.expression condition, ") \x7b"]).toList =
      keyword.toList ++ [' '] ++ ['('] ++ (Java.expression condition).toList ++ [')'] ++ [' '] ++ ['\x7b'] := by
    simp
  rw [text, Expression.words, Expression.wordsAll]
  apply Spells.append _ (.sign rest)
  apply Spells.spaced
  apply Spells.append _ (.sign _)
  apply Spells.append _ (proper.spells (.cons _))
  apply Spells.append _ (.sign _)
  exact .spaced (.token isName (.cons _))

theorem isName_if : IsName "if" := .of_chars rfl rfl rfl

theorem isName_while : IsName "while" := .of_chars rfl rfl rfl

theorem spells_closing (rest : List Char) :
    Spells (String.join ["\x7d"]).toList [Word.sign "\x7d"] rest := by
  have text : (String.join ["\x7d"]).toList = ['\x7d'] := by simp
  rw [text]
  exact .sign rest

private theorem spells_else (rest : List Char) :
    Spells (String.join ["\x7d", " else \x7b"]).toList
      ([Word.sign "\x7d"] ++ [Word.name "else"] ++ [Word.sign "\x7b"]) rest := by
  have text : (String.join ["\x7d", " else \x7b"]).toList =
      ['\x7d'] ++ [' '] ++ "else".toList ++ [' '] ++ ['\x7b'] := by
    simp
  have isName : IsName "else" := .of_chars rfl rfl rfl
  rw [text]
  apply Spells.append _ (.sign rest)
  apply Spells.spaced
  apply Spells.append _ (.token isName (.cons _))
  exact .spaced (.sign _)

private theorem spells_expression {value : Expression} (proper : value.Proper) (rest : List Char) :
    Spells (String.join [Java.expression value, ";"]).toList (value.words ++ [Word.sign ";"]) rest := by
  have text : (String.join [Java.expression value, ";"]).toList = (Java.expression value).toList ++ [';'] := by
    simp
  rw [text]
  exact .append (proper.spells (.cons rest)) (.sign rest)

private theorem spells_declaration {name typeName : String} (isName : IsName name) (isType : IsName typeName)
    (rest : List Char) :
    Spells (String.join [typeName, " ", name, ";"]).toList
      ([Word.name typeName] ++ [Word.name name] ++ [Word.sign ";"]) rest := by
  have text : (String.join [typeName, " ", name, ";"]).toList =
      typeName.toList ++ [' '] ++ name.toList ++ [';'] := by
    simp
  rw [text]
  apply Spells.append _ (.sign rest)
  apply Spells.append _ (.token isName (.cons _))
  exact .spaced (.token isType (.cons _))

private theorem spells_initialized {name typeName : String} {value : Expression} (isName : IsName name)
    (isType : IsName typeName) (proper : value.Proper) (rest : List Char) :
    Spells (String.join [typeName, " ", name, " = ", Java.expression value, ";"]).toList
      ([Word.name typeName] ++ value.assigned name) rest := by
  have text : (String.join [typeName, " ", name, " = ", Java.expression value, ";"]).toList =
      typeName.toList ++ [' '] ++ (name ++ " = " ++ Java.expression value ++ ";").toList := by
    simp
  rw [text]
  apply Spells.append _ (proper.spells_assigned isName rest)
  exact .spaced (.token isType (.cons _))

private theorem spells_assignment {name : String} {value : Expression} (isName : IsName name) (proper : value.Proper)
    (rest : List Char) :
    Spells (String.join [name, " = ", Java.expression value, ";"]).toList (value.assigned name) rest := by
  have text : (String.join [name, " = ", Java.expression value, ";"]).toList =
      (name ++ " = " ++ Java.expression value ++ ";").toList := by
    simp
  rw [text]
  exact proper.spells_assigned isName rest

mutual
private theorem Proper.prints {statement : Statement} (proper : statement.Proper) (level : Nat) :
    Prints (Java.statement statement) statement.words level level := by
  match statement with
  | expression value =>
    rw [Java.statement, words, opening, remainder, List.append_nil]
    exact Prints.texts (spells_expression proper.1) level
  | declaration name typeName none =>
    rw [Java.statement]
    exact Prints.texts (spells_declaration proper.1 proper.2.1) level
  | declaration name typeName (some value) =>
    rw [Java.statement]
    exact Prints.texts (spells_initialized proper.1 proper.2.1 (proper.2.2 value rfl)) level
  | assignment name value =>
    rw [Java.statement]
    exact Prints.texts (spells_assignment proper.1 proper.2.2) level
  | conditional condition thenBody [] =>
    have head := Prints.texts (spells_head proper.1 isName_if) level
    have inside := head.append (ProperAll.prints_block proper.2.1 level)
    rw [Java.statement, words, remainder, alternative, List.append_nil, ← List.append_assoc]
    exact inside.append (Prints.texts spells_closing level)
  | conditional condition thenBody (first :: others) =>
    have head := Prints.texts (spells_head proper.1 isName_if) level
    have inside := head.append (ProperAll.prints_block proper.2.1 level)
    have turn := inside.append (Prints.texts spells_else level)
    have otherwise := turn.append (ProperAll.prints_block proper.2.2 level)
    have printed : (conditional condition thenBody (first :: others)).words =
        (Expression.call "if" [condition]).words ++ [Word.sign "\x7b"] ++ wordsAll thenBody ++
          ([Word.sign "\x7d"] ++ [Word.name "else"] ++ [Word.sign "\x7b"]) ++ wordsAll (first :: others) ++
          [Word.sign "\x7d"] := by
      simp [words, opening, Opening.words, remainder, alternative_cons]
    rw [Java.statement, printed]
    · exact otherwise.append (Prints.texts spells_closing level)
    · simp
  | loop condition body =>
    have head := Prints.texts (spells_head proper.1 isName_while) level
    have inside := head.append (ProperAll.prints_block proper.2 level)
    rw [Java.statement, words, remainder, ← List.append_assoc]
    exact inside.append (Prints.texts spells_closing level)

theorem ProperAll.prints_block {stops : List String} {statements : List Statement}
    (proper : ProperAll stops statements) (level : Nat) :
    Prints (Java.block statements) (wordsAll statements) level level := by
  match statements with
  | [] => exact .nil level
  | first :: others =>
    have opens := (Prints.indent level).append (Prints.line (level + 1))
    have start := opens.append (Proper.prints proper.1 (level + 1))
    have inside := start.append (ProperAll.prints_lines proper.2.2 (level + 1))
    have printed : wordsAll (first :: others) = [] ++ [] ++ first.words ++ wordsAll others ++ ([] ++ []) := by
      simp [wordsAll_cons]
    rw [Java.block, printed]
    exact inside.append ((Prints.dedent level).append (Prints.line level))

private theorem ProperAll.prints_lines {stops : List String} {statements : List Statement}
    (proper : ProperAll stops statements) (level : Nat) :
    Prints (Java.lines statements) (wordsAll statements) level level := by
  match statements with
  | [] => exact .nil level
  | first :: others =>
    rw [Java.lines, wordsAll_cons]
    have start := (Prints.line level).append (Proper.prints proper.1 level)
    exact start.append (ProperAll.prints_lines proper.2.2 level)
end

end Statement

/-! What is shown has the same text. -/

namespace Java

mutual
private theorem statement_shown (value : Statement) : statement value.shown = statement value := by
  match value with
  | .expression value => rw [Statement.shown, statement, statement, expression_shown]
  | .declaration _ _ none => rfl
  | .declaration _ _ (some value) =>
    rw [Statement.shown, Option.map_some, statement, statement, expression_shown]
  | .assignment _ value => rw [Statement.shown, statement, statement, expression_shown]
  | .conditional condition thenBody [] =>
    rw [Statement.shown, Statement.shownAll, statement, statement, expression_shown, block_shown thenBody]
  | .conditional condition thenBody (first :: others) =>
    have elseBody := block_shown (first :: others)
    rw [Statement.shownAll] at elseBody
    rw [Statement.shown, Statement.shownAll]
    simp only [statement, expression_shown, block_shown thenBody, elseBody]
  | .loop condition body => rw [Statement.shown, statement, statement, expression_shown, block_shown body]

private theorem block_shown (statements : List Statement) :
    block (Statement.shownAll statements) = block statements := by
  match statements with
  | [] => rfl
  | first :: others => rw [Statement.shownAll, block, block, statement_shown first, lines_shown others]

private theorem lines_shown (statements : List Statement) :
    lines (Statement.shownAll statements) = lines statements := by
  match statements with
  | [] => rfl
  | first :: others => rw [Statement.shownAll, lines, lines, statement_shown first, lines_shown others]
end

theorem program_shown (statements : Program) : program (Statement.shownAll statements) = program statements := by
  rw [program, program, block_shown]

end Java

theorem Statement.ProperAll.spells_block {stops : List String} {statements : List Statement}
    (proper : ProperAll stops statements) (level : Nat) (rest : List Char) :
    Spells (String.ofList ((Java.block statements).written level)).toList (wordsAll statements) rest := by
  obtain ⟨text, writes, spells⟩ := proper.prints_block level
  have same := Writer.ofList_written (writes "")
  rw [same, String.empty_append]
  exact spells rest

end PlcJava
