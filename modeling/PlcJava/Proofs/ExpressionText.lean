import Mathlib
import PlcJava.Java.Expression
import PlcJava.Proofs.ProperTree
import PlcJava.Proofs.Spelling

/-! The Java text of an expression keeps its structure: read as PLC text, it is the expression
again. The truth values are the exception. They become the names `true` and `false`, which
are names like any others on reading. -/

set_option autoImplicit false

namespace PlcJava

open Grammar

def Literal.kind : Literal → Kind
  | boolean _ => .identifier
  | integer _ => .integer
  | decimal _ => .decimal
  | string _ => .string

/-- The languages in which expressions are written. They differ in the words for the truth values. -/
inductive Dialect where
  | java
  | plc

def Dialect.literal : Dialect → Literal → String
  | plc, .boolean true => "TRUE"
  | plc, .boolean false => "FALSE"
  | _, value => Java.literal value

namespace Expression

mutual
def words (value : Expression) (dialect : Dialect := .java) : List Word :=
  match value with
  | literal value => [⟨value.kind, dialect.literal value⟩]
  | group inner => [Word.sign "("] ++ inner.words dialect ++ [Word.sign ")"]
  | binary operator left right => left.words dialect ++ [Word.sign operator] ++ right.words dialect
  | reference name => [Word.name name]
  | call name values => [Word.name name] ++ [Word.sign "("] ++ wordsAll values dialect ++ [Word.sign ")"]

def wordsAll (values : List Expression) (dialect : Dialect := .java) : List Word :=
  match values with
  | [] => []
  | [last] => last.words dialect
  | first :: others => first.words dialect ++ [Word.sign ","] ++ wordsAll others dialect
end

mutual
/-- The expression that the Java text shows: truth values are references there. -/
def shown : Expression → Expression
  | literal (.boolean true) => reference "true"
  | literal (.boolean false) => reference "false"
  | literal value => literal value
  | group inner => group inner.shown
  | binary operator left right => binary operator left.shown right.shown
  | reference name => reference name
  | call name values => call name (shownAll values)

def shownAll : List Expression → List Expression
  | [] => []
  | first :: others => first.shown :: shownAll others
end

end Expression

/-- The expression that a text in the language is read as. -/
def Dialect.reads : Dialect → Expression → Expression
  | java, value => value.shown
  | plc, value => value

def Dialect.readsAll : Dialect → List Expression → List Expression
  | java, values => Expression.shownAll values
  | plc, values => values

namespace Dialect

variable (dialect : Dialect)

private theorem literal_eq (value : Literal) (other : value.kind ≠ .identifier) :
    dialect.literal value = Java.literal value := by
  cases dialect with
  | java => rfl
  | plc => cases value <;> first | rfl | exact absurd rfl other

private theorem reads_literal {value : Literal} (other : value.kind ≠ .identifier) :
    dialect.reads (.literal value) = .literal value := by
  cases dialect with
  | java => cases value <;> first | rfl | exact absurd rfl other
  | plc => rfl

private theorem reads_reference (name : String) : dialect.reads (.reference name) = .reference name := by
  cases dialect <;> rfl

private theorem reads_group (inner : Expression) : dialect.reads (.group inner) = .group (dialect.reads inner) := by
  cases dialect <;> rfl

private theorem reads_binary (operator : String) (left right : Expression) :
    dialect.reads (.binary operator left right) = .binary operator (dialect.reads left) (dialect.reads right) := by
  cases dialect <;> rfl

private theorem reads_call (name : String) (values : List Expression) :
    dialect.reads (.call name values) = .call name (dialect.readsAll values) := by
  cases dialect <;> rfl

private theorem readsAll_nil : dialect.readsAll [] = [] := by
  cases dialect <;> rfl

private theorem readsAll_cons (first : Expression) (others : List Expression) :
    dialect.readsAll (first :: others) = dialect.reads first :: dialect.readsAll others := by
  cases dialect <;> rfl

end Dialect

namespace Expression

variable {dialect : Dialect}

theorem wordsAll_cons_cons (first second : Expression) (others : List Expression) :
    wordsAll (first :: second :: others) dialect =
      first.words dialect ++ [Word.sign ","] ++ wordsAll (second :: others) dialect := by
  simp [wordsAll]

/-! From the text to its words. -/

theorem Proper.shape_literal {value : Literal} (proper : (literal value).Proper) (dialect : Dialect := .java) :
    value.kind.Shape (dialect.literal value).toList := by
  match value with
  | .boolean truth =>
    have isName : IsName (dialect.literal (.boolean truth)) := by
      cases dialect <;> cases truth <;> exact .of_chars rfl rfl rfl
    exact isName
  | .integer number =>
    rw [dialect.literal_eq (.integer number) nofun]
    exact Integer.shape_write proper
  | .decimal number =>
    rw [dialect.literal_eq (.decimal number) nofun]
    exact Decimal.shape_write proper
  | .string contents =>
    rw [dialect.literal_eq (.string contents) nofun]
    exact ⟨contents.toList, by simp [Java.literal], proper⟩

theorem shape_operator {level : Nat} {operator : String} (binds : Binds level operator) :
    Kind.Shape .operator operator.toList := by
  cases binds with
  | times => exact .inr (.inr ⟨'*', rfl, by decide⟩)
  | divided => exact .inr (.inr ⟨'/', rfl, by decide⟩)
  | plus => exact .inr (.inr ⟨'+', rfl, by decide⟩)
  | minus => exact .inr (.inr ⟨'-', rfl, by decide⟩)
  | equal => exact .inl rfl
  | unequal => exact .inr (.inl rfl)

mutual
theorem Proper.spells {value : Expression} (proper : value.Proper) {rest : List Char} (apart : Apart rest) :
    Spells (Java.expression value).toList value.words rest := by
  match value with
  | literal value =>
    rw [Java.expression, words]
    exact .token proper.shape_literal apart
  | reference name =>
    rw [Java.expression, words]
    exact .token proper.1 apart
  | group inner =>
    have innerProper : inner.Proper := proper
    have text : (Java.expression (group inner)).toList = ['('] ++ (Java.expression inner).toList ++ [')'] := by
      simp [Java.expression]
    rw [text, words]
    apply Spells.append _ (.sign rest)
    exact .append (.sign _) (innerProper.spells (.cons rest))
  | binary operator left right =>
    obtain ⟨below, _, leftProper, rightProper⟩ := proper
    have text : (Java.expression (binary operator left right)).toList =
        (Java.expression left).toList ++ [' '] ++ operator.toList ++ [' '] ++ (Java.expression right).toList := by
      simp [Java.expression]
    rw [text, words]
    apply Spells.append _ (rightProper.spells apart)
    apply Spells.spaced
    apply Spells.append _ (.token (shape_operator (binds_rank (by omega))) (.cons _))
    exact .spaced (leftProper.spells (.cons _))
  | call name values =>
    obtain ⟨isName, valuesProper, _⟩ := proper
    have text : (Java.expression (call name values)).toList =
        name.toList ++ ['('] ++ (Java.arguments values).toList ++ [')'] := by
      simp [Java.expression]
    rw [text, words]
    apply Spells.append _ (.sign rest)
    apply Spells.append _ (valuesProper.spells (.cons rest))
    exact .append (.token isName (.cons _)) (.sign _)

private theorem ProperAll.spells {values : List Expression} (proper : ProperAll values) {rest : List Char}
    (apart : Apart rest) : Spells (Java.arguments values).toList (wordsAll values) rest := by
  match values with
  | [] =>
    exact .nil rest
  | [last] =>
    rw [Java.arguments, wordsAll]
    exact proper.1.spells apart
  | first :: second :: others =>
    have text : (Java.arguments (first :: second :: others)).toList =
        (Java.expression first).toList ++ [','] ++ [' '] ++ (Java.arguments (second :: others)).toList := by
      simp [Java.arguments]
    rw [text, wordsAll_cons_cons]
    apply Spells.append _ (proper.2.spells apart)
    apply Spells.spaced
    exact .append (proper.1.spells (.cons _)) (.sign _)
end

/-! From the words to the expression. -/

theorem rank_le (value : Expression) : value.rank ≤ 3 := by
  cases value with
  | binary operator _ _ => exact Grammar.rank_le operator
  | _ => exact Nat.zero_le _

private theorem ne_closing {kind : Kind} {literal : String} (shape : kind.Shape literal.toList)
    (other : kind ≠ .operator) : literal ≠ ")" := by
  intro same
  subst same
  cases kind with
  | identifier =>
    obtain ⟨first, others, same, start, _⟩ := shape
    cases same
    cases start
  | integer =>
    have digit := shape.2 ')' (by decide)
    cases digit
  | decimal =>
    have point := shape.2
    revert point
    decide
  | string =>
    obtain ⟨contents, same, _⟩ := shape
    cases same
  | operator => exact other rfl

theorem Proper.leads {value : Expression} (proper : value.Proper) :
    ∃ word others, value.words dialect = word :: others ∧ (word = .sign "(" ∧ value.beginsGrouped = true ∨
      word.kind ≠ .operator ∧ word.kind.Shape word.literal.toList) := by
  match value with
  | literal value =>
    have other : value.kind ≠ .operator := by cases value <;> simp [Literal.kind]
    exact ⟨_, [], rfl, .inr ⟨other, proper.shape_literal dialect⟩⟩
  | reference name => exact ⟨.name name, [], rfl, .inr ⟨by simp [Word.name], proper.1⟩⟩
  | call name values => exact ⟨.name name, _, rfl, .inr ⟨by simp [Word.name], proper.1⟩⟩
  | group inner => exact ⟨.sign "(", _, rfl, .inl ⟨rfl, rfl⟩⟩
  | binary operator left right =>
    obtain ⟨word, others, begins, leading⟩ := Proper.leads proper.2.2.1
    refine ⟨word, others ++ [Word.sign operator] ++ right.words dialect, ?_, leading⟩
    rw [words, begins]
    rfl

private theorem of_word {tokens : List Token} {word : Word} (spelled : tokens.map Token.word = [word]) :
    ∃ token, tokens = [token] ∧ token.kind = word.kind ∧ token.literal = word.literal := by
  obtain ⟨token, same, rfl⟩ := List.map_eq_singleton_iff.mp spelled
  exact ⟨token, same, rfl, rfl⟩

private theorem Proper.head {value : Expression} (proper : value.Proper) {tokens : List Token} {others : List Word}
    (spelled : tokens.map Token.word = value.words dialect ++ others) :
    ∀ first ∈ tokens.head?, first.literal ≠ ")" ∧ (value.beginsGrouped = false → first.kind ≠ .operator) := by
  intro first head
  obtain ⟨word, _, begins, leading⟩ := proper.leads
  have same : some first.word = some word := by
    rw [← Option.mem_def.mp (Option.mem_map_of_mem Token.word head), ← List.head?_map, spelled, begins]
    rfl
  cases same
  rcases leading with ⟨opens, grouped⟩ | ⟨other, shape⟩
  · obtain ⟨_, literal⟩ := Word.mk.inj opens
    rw [literal, grouped]
    exact ⟨by decide, nofun⟩
  · exact ⟨ne_closing shape other, fun _ => other⟩

private theorem wordsAll_cons (first : Expression) (others : List Expression) :
    ∃ more, wordsAll (first :: others) dialect = first.words dialect ++ more := by
  cases others with
  | nil => exact ⟨[], by simp [wordsAll]⟩
  | cons second others => exact ⟨_, by rw [wordsAll_cons_cons, List.append_assoc]⟩

private theorem phrase_truth {value : Bool} {token : Token} (kind : token.kind = .identifier)
    (literal : token.literal = dialect.literal (.boolean value)) :
    Phrase 0 [token] (dialect.reads (.literal (.boolean value))) := by
  match dialect, value with
  | .plc, true => exact .truth kind literal
  | .plc, false => exact .falsity kind literal
  | .java, true | .java, false =>
    have phrase := Phrase.reference kind (by rw [literal]; decide) (by rw [literal]; decide)
    rwa [literal] at phrase

private theorem phrase_literal {value : Literal} {token : Token} (kind : token.kind = value.kind)
    (literal : token.literal = dialect.literal value) : Phrase 0 [token] (dialect.reads (.literal value)) := by
  by_cases truth : value.kind = .identifier
  · cases value with
    | boolean value => exact phrase_truth kind literal
    | integer | decimal | string => cases truth
  · rw [dialect.literal_eq value truth] at literal
    rw [dialect.reads_literal truth]
    match value with
    | .boolean _ => exact absurd rfl truth
    | .integer number => exact .integer kind (by rw [literal]; exact Integer.read?_write number)
    | .decimal number => exact .decimal kind (by rw [literal]; exact Decimal.read?_write number)
    | .string contents =>
      have phrase := Phrase.string kind
      have inner : Parsing.unquote token.literal = contents := by
        simp [Parsing.unquote, literal, Java.literal]
      rwa [inner] at phrase

mutual
/-- Tokens with the words of a proper expression derive what they are read as. -/
theorem Proper.phrase {value : Expression} (proper : value.Proper) {tokens : List Token}
    (spelled : tokens.map Token.word = value.words dialect) : Phrase value.rank tokens (dialect.reads value) := by
  match value with
  | literal value =>
    obtain ⟨token, rfl, kind, literal⟩ := of_word spelled
    exact phrase_literal kind literal
  | reference name =>
    obtain ⟨token, rfl, kind, rfl⟩ := of_word spelled
    rw [Dialect.reads_reference]
    exact .reference kind proper.2.1 proper.2.2
  | group inner =>
    have innerProper : inner.Proper := proper
    obtain ⟨front, back, rfl, spelledFront, spelledBack⟩ := List.map_eq_append_iff.mp spelled
    obtain ⟨first, middle, rfl, spelledFirst, spelledMiddle⟩ := List.map_eq_append_iff.mp spelledFront
    obtain ⟨opening, rfl, kind, opens⟩ := of_word spelledFirst
    obtain ⟨closing, rfl, _, closes⟩ := of_word spelledBack
    rw [Dialect.reads_group]
    exact .group kind opens ((innerProper.phrase spelledMiddle).mono (rank_le inner)) closes
  | binary operator left right =>
    obtain ⟨belowLeft, belowRight, leftProper, rightProper⟩ := proper
    obtain ⟨front, after, rfl, spelledFront, spelledRight⟩ := List.map_eq_append_iff.mp spelled
    obtain ⟨before, middle, rfl, spelledLeft, spelledSign⟩ := List.map_eq_append_iff.mp spelledFront
    obtain ⟨sign, rfl, _, rfl⟩ := of_word spelledSign
    have phrase := (leftProper.phrase spelledLeft).join (rightProper.phrase spelledRight) belowLeft belowRight
    rw [List.append_assoc, Dialect.reads_binary]
    exact phrase
  | call name values =>
    obtain ⟨_, valuesProper, plain⟩ := proper
    rw [words, List.append_assoc, List.append_assoc] at spelled
    obtain ⟨front, inner, rfl, spelledName, spelledArguments⟩ := List.map_eq_append_iff.mp spelled
    obtain ⟨callee, rfl, kind, rfl⟩ := of_word spelledName
    obtain ⟨front, others, rfl, spelledOpening, spelledOthers⟩ := List.map_eq_append_iff.mp spelledArguments
    obtain ⟨opening, rfl, _, opens⟩ := of_word spelledOpening
    rw [Dialect.reads_call]
    exact .call kind opens (valuesProper.arguments plain spelledOthers)

private theorem ProperAll.arguments {values : List Expression} (proper : ProperAll values)
    (plain : ∀ value ∈ values.tail, value.beginsGrouped = false) {tokens : List Token}
    (spelled : tokens.map Token.word = wordsAll values dialect ++ [Word.sign ")"]) :
    Arguments tokens (dialect.readsAll values) := by
  match values with
  | [] =>
    obtain ⟨token, rfl, _, literal⟩ := of_word spelled
    rw [Dialect.readsAll_nil]
    exact .close literal
  | [last] =>
    obtain ⟨inner, back, rfl, spelledLast, spelledClosing⟩ := List.map_eq_append_iff.mp spelled
    obtain ⟨closing, rfl, _, closes⟩ := of_word spelledClosing
    have phrase := (proper.1.phrase spelledLast).mono (rank_le last)
    rw [Dialect.readsAll_cons, Dialect.readsAll_nil]
    refine .last phrase ?_ closes
    intro first head
    exact (proper.1.head (spelledLast.trans (List.append_nil _).symm) first head).1
  | first :: second :: others =>
    rw [wordsAll_cons_cons, List.append_assoc, List.append_assoc] at spelled
    obtain ⟨inner, back, rfl, spelledFirst, spelledBack⟩ := List.map_eq_append_iff.mp spelled
    obtain ⟨middle, later, rfl, spelledComma, spelledLater⟩ := List.map_eq_append_iff.mp spelledBack
    obtain ⟨comma, rfl, _, separates⟩ := of_word spelledComma
    have phrase := (proper.1.phrase spelledFirst).mono (rank_le first)
    rw [Dialect.readsAll_cons]
    refine .more phrase ?_ separates ?_ (ProperAll.arguments proper.2 ?_ spelledLater)
    · intro opening head
      exact (proper.1.head (spelledFirst.trans (List.append_nil _).symm) opening head).1
    · obtain ⟨more, begins⟩ := wordsAll_cons second others
      rw [begins, List.append_assoc] at spelledLater
      intro next head
      exact (proper.2.1.head spelledLater next head).2 (plain second (List.mem_cons_self))
    · intro value member
      exact plain value (List.mem_cons_of_mem second member)
end

def assigned (value : Expression) (name : String) : List Word :=
  [Word.name name] ++ [Word.sign "="] ++ value.words ++ [Word.sign ";"]

theorem Proper.spells_assigned {value : Expression} (proper : value.Proper) {name : String}
    (isName : IsName name) (rest : List Char) :
    Spells (name ++ " = " ++ Java.expression value ++ ";").toList (value.assigned name) rest := by
  have text : (name ++ " = " ++ Java.expression value ++ ";").toList =
      name.toList ++ [' '] ++ "=".toList ++ [' '] ++ (Java.expression value).toList ++ [';'] := by
    simp
  have equals : Kind.Shape .operator "=".toList := .inr (.inr ⟨'=', rfl, by decide⟩)
  rw [text, assigned]
  apply Spells.append _ (.sign rest)
  apply Spells.append _ (proper.spells (.cons rest))
  apply Spells.spaced
  apply Spells.append _ (.token equals (.cons _))
  exact .spaced (.token isName (.cons _))

private theorem Proper.assignment {value : Expression} (proper : value.Proper) {name : String}
    (plain : name ∉ Parsing.keywords) {tokens : List Token}
    (spelled : tokens.map Token.word = value.assigned name) : Clause tokens (.assignment name value.shown) := by
  obtain ⟨front, back, rfl, spelledFront, spelledBack⟩ := List.map_eq_append_iff.mp spelled
  obtain ⟨start, inner, rfl, spelledStart, spelledInner⟩ := List.map_eq_append_iff.mp spelledFront
  obtain ⟨first, second, rfl, spelledName, spelledSign⟩ := List.map_eq_append_iff.mp spelledStart
  obtain ⟨token, rfl, kind, rfl⟩ := of_word spelledName
  obtain ⟨sign, rfl, _, equals⟩ := of_word spelledSign
  obtain ⟨semicolon, rfl, _, ends⟩ := of_word spelledBack
  exact .assignment kind plain equals ((proper.phrase spelledInner).mono (rank_le value)) ends

end Expression

namespace Java

mutual
theorem expression_shown (value : Expression) : expression value.shown = expression value := by
  match value with
  | .literal (.boolean true) | .literal (.boolean false) => rfl
  | .literal (.integer _) | .literal (.decimal _) | .literal (.string _) | .reference _ => rfl
  | .group inner => rw [Expression.shown, expression, expression, expression_shown inner]
  | .binary operator left right =>
    rw [Expression.shown, expression, expression, expression_shown left, expression_shown right]
  | .call name values => rw [Expression.shown, expression, expression, arguments_shown values]

private theorem arguments_shown (values : List Expression) :
    arguments (Expression.shownAll values) = arguments values := by
  match values with
  | [] => rfl
  | [last] => exact expression_shown last
  | first :: second :: others =>
    have later := arguments_shown (second :: others)
    rw [Expression.shownAll] at later
    rw [Expression.shownAll, Expression.shownAll]
    simp only [arguments, expression_shown first, later]
end

end Java

/-- Every expression of a program comes back from its Java text: given to a name, the text
reads as that assignment, with the truth values as names. -/
theorem Program.read_assigned_text {source : String} {program : Program} (read : Program.read source = .ok program)
    {value : Expression} (inside : value ∈ Statement.partsAll program) {name : String} (isName : IsName name)
    (plain : name ∉ Parsing.keywords) :
    Program.read (name ++ " = " ++ Java.expression value ++ ";") = .ok [.assignment name value.shown] := by
  have proper := (Program.proper_of_read read).part inside
  obtain ⟨tokens, lexed, spelled⟩ := (proper.spells_assigned isName []).lex
  have body : Body [] (tokens ++ []) [.assignment name value.shown] :=
    .cons (proper.assignment plain spelled) (by simp) .nil
  rw [List.append_nil] at body
  exact Program.read_eq_ok.mpr ⟨tokens, lexed, body⟩

theorem Program.read_assigned_text_call :
    Program.read "f((TRUE), 007 * 1.50, \"a;b\");" =
        .ok [.expression (.call "f" [.group (.literal (.boolean true)),
          .binary "*" (.literal (.integer 7)) (.literal (.decimal ⟨150, 2, by decide⟩)),
          .literal (.string "a;b")])] ∧
      Program.read "y = f((true), 7 * 1.50, \"a;b\");" =
        .ok [.assignment "y" (.call "f" [.group (.reference "true"),
          .binary "*" (.literal (.integer 7)) (.literal (.decimal ⟨150, 2, by decide⟩)),
          .literal (.string "a;b")])] := by
  have source : Program.read "f((TRUE), 007 * 1.50, \"a;b\");" =
      .ok [.expression (.call "f" [.group (.literal (.boolean true)),
        .binary "*" (.literal (.integer 7)) (.literal (.decimal ⟨150, 2, by decide⟩)),
        .literal (.string "a;b")])] := by
    cbv
  have isName : IsName "y" := .of_chars rfl rfl rfl
  have back := Program.read_assigned_text source List.mem_cons_self isName (by decide)
  exact ⟨source, back⟩

end PlcJava
