import PlcJava.Compilation
import PlcJava.Proofs.MaximalMunch
import PlcJava.Proofs.NumeralText
import PlcJava.Proofs.ProgramRecognition

/-! What the trees of a program look like when its tokens come from a text. Tokens made by hand
can give any name and any string; those of a text have the shape of their kind, and the shape
shows in the tree. -/

set_option autoImplicit false

namespace PlcJava

open Parsing (keywords)

def Token.Shaped (token : Token) : Prop := token.kind.Shape token.literal.toList

theorem Token.Shaped.of_kind {token : Token} {kind : Kind} (shaped : token.Shaped) (same : token.kind = kind) :
    kind.Shape token.literal.toList := same ▸ shaped

/-- A name that is an identifier by itself. -/
def IsName (name : String) : Prop := Kind.Shape .identifier name.toList

theorem IsName.of_chars {name : String} {first : Char} {others : List Char} (text : name.toList = first :: others)
    (start : isWordStart first = true) (parts : others.all isWordPart = true) : IsName name :=
  ⟨first, others, text, start, List.all_eq_true.mp parts⟩

theorem IsName.not_of_first {literal : String} (other : literal.toList.head?.any isWordStart = false) :
    ¬ IsName literal := by
  intro ⟨first, others, text, start, _⟩
  rw [text, List.head?_cons, Option.any_some, start] at other
  cases other

namespace Expression

def rank : Expression → Nat
  | binary operator _ _ => Grammar.rank operator
  | _ => 0

def beginsGrouped : Expression → Bool
  | group _ => true
  | binary _ left _ => left.beginsGrouped
  | _ => false

/-- The name that the expression begins with, if it begins with one. -/
def leadingName : Expression → Option String
  | reference name => some name
  | call name _ => some name
  | binary _ left _ => left.leadingName
  | _ => none

mutual
/-- Numbers have no sign and strings no quote inside, names are identifiers, operators join
operands of lower tiers, and only the first argument of a call may begin with a parenthesis. -/
def Proper : Expression → Prop
  | literal (.boolean _) => True
  | literal (.integer value) => 0 ≤ value
  | literal (.decimal value) => 0 ≤ value.unscaled
  | literal (.string contents) => '"' ∉ contents.toList
  | group inner => inner.Proper
  | binary operator left right =>
    left.rank < Grammar.rank operator ∧ right.rank < Grammar.rank operator ∧ left.Proper ∧ right.Proper
  | reference name => IsName name ∧ name ≠ "TRUE" ∧ name ≠ "FALSE"
  | call name values => IsName name ∧ ProperAll values ∧ ∀ value ∈ values.tail, value.beginsGrouped = false

def ProperAll : List Expression → Prop
  | [] => True
  | first :: others => first.Proper ∧ ProperAll others
end

mutual
def parts : Expression → List Expression
  | literal value => [literal value]
  | group inner => group inner :: inner.parts
  | binary operator left right => binary operator left right :: (left.parts ++ right.parts)
  | reference name => [reference name]
  | call name values => call name values :: partsAll values

def partsAll : List Expression → List Expression
  | [] => []
  | first :: others => first.parts ++ partsAll others
end

mutual
private theorem Proper.part {whole part : Expression} (proper : whole.Proper) (inside : part ∈ whole.parts) :
    part.Proper := by
  match whole with
  | literal value =>
    rw [List.mem_singleton.mp inside]
    exact proper
  | reference name =>
    rw [List.mem_singleton.mp inside]
    exact proper
  | group inner =>
    have innerProper : inner.Proper := proper
    rcases List.mem_cons.mp inside with rfl | inside
    · exact proper
    · exact innerProper.part inside
  | binary operator left right =>
    rcases List.mem_cons.mp inside with rfl | inside
    · exact proper
    · rcases List.mem_append.mp inside with inside | inside
      · exact Proper.part proper.2.2.1 inside
      · exact Proper.part proper.2.2.2 inside
  | call name values =>
    rcases List.mem_cons.mp inside with rfl | inside
    · exact proper
    · exact ProperAll.part proper.2.1 inside

private theorem ProperAll.part {values : List Expression} {part : Expression} (proper : ProperAll values)
    (inside : part ∈ partsAll values) : part.Proper := by
  match values with
  | [] => cases inside
  | first :: others =>
    rcases List.mem_append.mp inside with inside | inside
    · exact Proper.part proper.1 inside
    · exact ProperAll.part proper.2 inside
end

end Expression

namespace Statement

/-- The name that the statement begins with, unless a keyword introduces it. -/
def leadingName : Statement → Option String
  | expression value => value.leadingName
  | assignment name _ => some name
  | _ => none

mutual
def Proper : Statement → Prop
  | expression value => value.Proper ∧ ∀ name ∈ value.leadingName, name ∉ keywords
  | declaration name typeName value => IsName name ∧ IsName typeName ∧ ∀ inner ∈ value, inner.Proper
  | assignment name value => IsName name ∧ name ∉ keywords ∧ value.Proper
  | conditional condition thenBody elseBody =>
    condition.Proper ∧ ProperAll ["END", "ELSE"] thenBody ∧ ProperAll ["END"] elseBody
  | loop condition body => condition.Proper ∧ ProperAll ["END"] body

/-- Proper statements that do not begin with one of the given words. -/
def ProperAll (stops : List String) : List Statement → Prop
  | [] => True
  | first :: others => first.Proper ∧ (∀ name ∈ first.leadingName, name ∉ stops) ∧ ProperAll stops others
end

mutual
def parts : Statement → List Expression
  | expression value => value.parts
  | declaration _ _ none => []
  | declaration _ _ (some value) => value.parts
  | assignment _ value => value.parts
  | conditional condition thenBody elseBody => condition.parts ++ (partsAll thenBody ++ partsAll elseBody)
  | loop condition body => condition.parts ++ partsAll body

def partsAll : List Statement → List Expression
  | [] => []
  | first :: others => first.parts ++ partsAll others
end

mutual
private theorem Proper.part {statement : Statement} {part : Expression} (proper : statement.Proper)
    (inside : part ∈ statement.parts) : part.Proper := by
  match statement with
  | expression value => exact proper.1.part inside
  | declaration _ _ none => cases inside
  | declaration _ _ (some value) => exact (proper.2.2 value rfl).part inside
  | assignment _ value => exact proper.2.2.part inside
  | conditional condition thenBody elseBody =>
    rcases List.mem_append.mp inside with inside | inside
    · exact proper.1.part inside
    · rcases List.mem_append.mp inside with inside | inside
      · exact ProperAll.part proper.2.1 inside
      · exact ProperAll.part proper.2.2 inside
  | loop condition body =>
    rcases List.mem_append.mp inside with inside | inside
    · exact proper.1.part inside
    · exact ProperAll.part proper.2 inside

theorem ProperAll.part {stops : List String} {statements : List Statement} {part : Expression}
    (proper : ProperAll stops statements) (inside : part ∈ partsAll statements) : part.Proper := by
  match statements with
  | [] => cases inside
  | first :: others =>
    rcases List.mem_append.mp inside with inside | inside
    · exact Proper.part proper.1 inside
    · exact ProperAll.part proper.2.2 inside
end

end Statement

namespace Grammar

open Parsing (unquote)

private theorem unquote_proper {token : Token} (shaped : token.Shaped) (kind : token.kind = .string) :
    '"' ∉ (unquote token.literal).toList := by
  obtain ⟨contents, text, plain⟩ := shaped.of_kind kind
  simpa [unquote, text] using plain

/-- What the first token of a phrase tells about the tree. -/
structure Leads (first : Token) (value : Expression) : Prop where
  grouped : first.kind ≠ .operator → value.beginsGrouped = false
  name : ∀ name ∈ value.leadingName, first.kind = .identifier ∧ first.literal = name

private theorem mem_head?_or_tail {α : Type} {item : α} {items : List α} (member : item ∈ items) :
    item ∈ items.head? ∨ item ∈ items.tail := by
  cases member with
  | head => exact .inl rfl
  | tail _ member => exact .inr member

mutual
private theorem Phrase.proper {level : Nat} {tokens : List Token} {value : Expression}
    (phrase : Phrase level tokens value) (shaped : ∀ token ∈ tokens, token.Shaped) :
    value.Proper ∧ value.rank ≤ level ∧ ∀ first ∈ tokens.head?, Leads first value := by
  match phrase with
  | .integer kind read =>
    refine ⟨Integer.read?_nonneg ((shaped _ (by simp)).of_kind kind) read, Nat.zero_le _, ?_⟩
    intro first _
    exact ⟨fun _ => rfl, by simp [Expression.leadingName]⟩
  | .decimal kind read =>
    refine ⟨Decimal.read?_nonneg ((shaped _ (by simp)).of_kind kind) read, Nat.zero_le _, ?_⟩
    intro first _
    exact ⟨fun _ => rfl, by simp [Expression.leadingName]⟩
  | .string kind =>
    refine ⟨unquote_proper (shaped _ (by simp)) kind, Nat.zero_le _, ?_⟩
    intro first _
    exact ⟨fun _ => rfl, by simp [Expression.leadingName]⟩
  | .truth _ _ | .falsity _ _ =>
    refine ⟨trivial, Nat.zero_le _, ?_⟩
    intro first _
    exact ⟨fun _ => rfl, by simp [Expression.leadingName]⟩
  | .reference kind notTrue notFalse =>
    refine ⟨⟨(shaped _ (by simp)).of_kind kind, notTrue, notFalse⟩, Nat.zero_le _, ?_⟩
    intro first member
    cases member
    exact ⟨fun _ => rfl, by simp [Expression.leadingName, kind]⟩
  | .call kind opens inner =>
    obtain ⟨values, tail, _⟩ := inner.proper fun token member => shaped token (by simp [member])
    refine ⟨⟨(shaped _ (by simp)).of_kind kind, values, tail⟩, Nat.zero_le _, ?_⟩
    intro first member
    cases member
    exact ⟨fun _ => rfl, by simp [Expression.leadingName, kind]⟩
  | .group kind opens inner closes =>
    obtain ⟨proper, _, _⟩ := inner.proper fun token member => shaped token (by simp [member])
    refine ⟨proper, Nat.zero_le _, ?_⟩
    intro first member
    cases member
    exact ⟨fun other => absurd kind other, by simp [Expression.leadingName]⟩
  | .lift inner =>
    obtain ⟨proper, below, leads⟩ := inner.proper shaped
    exact ⟨proper, Nat.le_succ_of_le below, leads⟩
  | .binary first binds second =>
    obtain ⟨properLeft, belowLeft, leads⟩ := first.proper fun token member => shaped token (by simp [member])
    obtain ⟨properRight, belowRight, _⟩ := second.proper fun token member => shaped token (by simp [member])
    have tier := binds.rank_eq
    refine ⟨⟨by omega, by omega, properLeft, properRight⟩, Nat.le_of_eq tier, ?_⟩
    intro token member
    obtain ⟨head, tail, rfl⟩ := List.exists_cons_of_ne_nil first.ne_nil
    cases member
    exact ⟨(leads _ rfl).grouped, (leads _ rfl).name⟩

private theorem Arguments.proper {tokens : List Token} {values : List Expression} (inner : Arguments tokens values)
    (shaped : ∀ token ∈ tokens, token.Shaped) :
    Expression.ProperAll values ∧ (∀ value ∈ values.tail, value.beginsGrouped = false) ∧
      ∀ first ∈ tokens.head?, first.kind ≠ .operator → ∀ value ∈ values.head?, value.beginsGrouped = false := by
  match inner with
  | .close _ => exact ⟨trivial, by simp, by simp⟩
  | .last phrase opens closes =>
    obtain ⟨proper, _, leads⟩ := phrase.proper fun token member => shaped token (by simp [member])
    obtain ⟨head, tail, rfl⟩ := List.exists_cons_of_ne_nil phrase.ne_nil
    refine ⟨⟨proper, trivial⟩, by simp, ?_⟩
    intro first member other value found
    cases member
    cases found
    exact (leads _ rfl).grouped other
  | .more phrase opens separates follows later =>
    obtain ⟨proper, _, leads⟩ := phrase.proper fun token member => shaped token (by simp [member])
    obtain ⟨properLater, tailPlain, headPlain⟩ := later.proper fun token member => shaped token (by simp [member])
    obtain ⟨head, tail, rfl⟩ := List.exists_cons_of_ne_nil phrase.ne_nil
    obtain ⟨next, rest, rfl⟩ := List.exists_cons_of_ne_nil later.ne_nil
    refine ⟨⟨proper, properLater⟩, ?_, ?_⟩
    · intro value member
      rcases mem_head?_or_tail member with found | found
      · exact headPlain next rfl (follows next rfl) value found
      · exact tailPlain value found
    · intro first member other value found
      cases member
      cases found
      exact (leads _ rfl).grouped other
end

private theorem Phrase.leadingName_of_first {tokens : List Token} {value : Expression} (phrase : Phrase 3 tokens value)
    (shaped : ∀ token ∈ tokens, token.Shaped) {property : String → Prop}
    (begins : ∀ first ∈ tokens.head?, first.kind = .identifier → property first.literal) :
    ∀ name ∈ value.leadingName, property name := by
  intro name member
  obtain ⟨head, tail, rfl⟩ := List.exists_cons_of_ne_nil phrase.ne_nil
  obtain ⟨kind, rfl⟩ := ((phrase.proper shaped).2.2 head rfl).name name member
  exact begins head rfl kind

private theorem Clause.leadingName_of_first {tokens : List Token} {value : Statement} (clause : Clause tokens value)
    (shaped : ∀ token ∈ tokens, token.Shaped) {property : String → Prop}
    (begins : ∀ first ∈ tokens.head?, property first.literal) : ∀ name ∈ value.leadingName, property name := by
  cases clause with
  | expression inner _ _ =>
    refine inner.leadingName_of_first (fun token member => shaped token (List.mem_append_left _ member)) ?_
    intro first member _
    obtain ⟨head, tail, rfl⟩ := List.exists_cons_of_ne_nil inner.ne_nil
    exact begins first member
  | assignment =>
    intro name member
    cases member
    exact begins _ rfl
  | _ =>
    intro name member
    cases member

mutual
private theorem Clause.proper {tokens : List Token} {value : Statement} (clause : Clause tokens value)
    (shaped : ∀ token ∈ tokens, token.Shaped) : value.Proper := by
  match clause with
  | .expression inner plain _ =>
    have inside := fun token (member : token ∈ _) => shaped token (List.mem_append_left _ member)
    exact ⟨(inner.proper inside).1, inner.leadingName_of_first inside plain⟩
  | .declaration _ _ nameKind _ typeKind _ =>
    exact ⟨(shaped _ (by simp)).of_kind nameKind, (shaped _ (by simp)).of_kind typeKind, by simp⟩
  | .initialized _ _ nameKind _ typeKind _ inner _ =>
    refine ⟨(shaped _ (by simp)).of_kind nameKind, (shaped _ (by simp)).of_kind typeKind, ?_⟩
    intro value member
    cases member
    exact (inner.proper fun token member => shaped token (by simp [member])).1
  | .assignment kind plain _ inner _ =>
    refine ⟨(shaped _ (by simp)).of_kind kind, plain, ?_⟩
    exact (inner.proper fun token member => shaped token (by simp [member])).1
  | .conditional _ _ inner _ first _ =>
    refine ⟨(inner.proper fun token member => shaped token (by simp [member])).1, ?_, trivial⟩
    exact first.proper fun token member => shaped token (by simp [member])
  | .alternative _ _ inner _ first _ second _ =>
    refine ⟨(inner.proper fun token member => shaped token (by simp [member])).1, ?_, ?_⟩
    · exact first.proper fun token member => shaped token (by simp [member])
    · exact second.proper fun token member => shaped token (by simp [member])
  | .loop _ _ inner _ first _ =>
    refine ⟨(inner.proper fun token member => shaped token (by simp [member])).1, ?_⟩
    exact first.proper fun token member => shaped token (by simp [member])

private theorem Body.proper {stops : List String} {tokens : List Token} {statements : List Statement}
    (body : Body stops tokens statements) (shaped : ∀ token ∈ tokens, token.Shaped) :
    Statement.ProperAll stops statements := by
  match body with
  | .nil => exact trivial
  | .cons first begins later =>
    have inside := fun token (member : token ∈ _) => shaped token (List.mem_append_left _ member)
    refine ⟨first.proper inside, ?_, later.proper fun token member => shaped token (by simp [member])⟩
    exact first.leadingName_of_first inside begins
end

end Grammar

theorem lex_shaped {source : String} {tokens : List Token} (read : lex source = .ok tokens) :
    ∀ token ∈ tokens, token.Shaped :=
  ((Cursor.sweep_iff source.toList 0 tokens).mp read).shape

theorem Program.read_eq_parse {source : String} {tokens : List Token} (lexed : lex source = .ok tokens) :
    read source = (parse tokens).mapError .grammatical := by
  rw [read, lexed]
  rfl

theorem Program.read_eq_ok {source : String} {program : Program} :
    read source = .ok program ↔ ∃ tokens, lex source = .ok tokens ∧ Grammar.Body [] tokens program := by
  cases lexed : lex source with
  | error error =>
    have failed : read source = .error (.lexical error) := by rw [read, lexed]; rfl
    simp [failed]
  | ok tokens =>
    rw [read_eq_parse lexed, Outcome.mapError_eq_ok, Grammar.parse_eq_ok]
    constructor
    · intro result
      exact ⟨tokens, rfl, Grammar.pass_sound tokens result⟩
    · intro answer
      obtain ⟨_, same, body⟩ := answer
      cases same
      exact body.pass_result

theorem compile_eq_ok {source java : String} :
    compile source = .ok java ↔ ∃ program, Program.read source = .ok program ∧ (Java.program program).render = java := by
  rw [compile]
  cases Program.read source with
  | error error => simp [Except.map]
  | ok program => simp [Except.map]

/-- The statements of a text are proper. -/
theorem Program.proper_of_read {source : String} {program : Program} (read : Program.read source = .ok program) :
    Statement.ProperAll [] program := by
  obtain ⟨tokens, lexed, body⟩ := read_eq_ok.mp read
  exact body.proper (lex_shaped lexed)

end PlcJava
