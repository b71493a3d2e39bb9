import PlcJava.Proofs.ExpressionText
import PlcJava.Proofs.Lookahead

/-! A text for every proper program. Its tokens are written one after another with spaces
between them, so the text is read back to the words it was made of, and the grammar derives the
program from them. Proper programs are therefore all that texts can say. -/

set_option autoImplicit false

namespace PlcJava

open Grammar
open Parsing (keywords)

/-! Tokens in a text of their own. -/

namespace Token

def text : List Token → String
  | [] => ""
  | first :: others => first.literal ++ " " ++ text others

theorem spells_text {tokens : List Token} (shaped : ∀ token ∈ tokens, token.Shaped) (rest : List Char) :
    Spells (text tokens).toList (tokens.map word) rest := by
  induction tokens with
  | nil => exact .nil rest
  | cons first others ih =>
    obtain ⟨here, later⟩ := List.forall_mem_cons.mp shaped
    have cut : (text (first :: others)).toList = first.literal.toList ++ [' '] ++ (text others).toList := by
      simp [text]
    rw [cut, List.map_cons, ← List.singleton_append]
    exact .append (.spaced (.token here (.cons _))) (ih later)

private theorem shaped_sign {literal : String} {c : Char} (single : literal.toList = [c])
    (plain : isBlank c = false ∧ isWordPart c = false ∧ c ≠ '"' := by decide) : (ofSign literal).Shaped :=
  .inr (.inr ⟨c, single, plain⟩)

private theorem shaped_name {literal : String} {first : Char} {others : List Char}
    (text : literal.toList = first :: others)
    (start : isWordStart first = true := by decide) (parts : others.all isWordPart = true := by decide) :
    (ofName literal).Shaped :=
  IsName.of_chars text start parts

/-- Only an identifier has the text of a name. -/
theorem Shaped.not_isName {token : Token} (shaped : token.Shaped) (other : token.kind ≠ .identifier) :
    ¬ IsName token.literal := by
  apply IsName.not_of_first
  cases kind : token.kind with
  | identifier => exact absurd kind other
  | integer =>
    obtain ⟨nonempty, digits⟩ := shaped.of_kind kind
    obtain ⟨c, cs, text⟩ := List.exists_cons_of_ne_nil nonempty
    simp [text, isWordStart_of_isDigit (digits c (by simp [text]))]
  | decimal =>
    obtain ⟨groups, point⟩ := shaped.of_kind kind
    generalize token.literal.toList = text at *
    cases groups with
    | nil => cases point
    | digit digit _ => simp [isWordStart_of_isDigit digit]
    | pair before _ _ => simp [isWordStart_of_isDigit before]
  | string =>
    obtain ⟨contents, text, _⟩ := shaped.of_kind kind
    rw [text]
    rfl
  | operator =>
    rcases shaped.of_kind kind with text | text | ⟨c, text, _, noPart, _⟩
    · rw [text]
      rfl
    · rw [text]
      rfl
    · rw [text, List.head?_cons, Option.any_some]
      cases start : isWordStart c with
      | false => rfl
      | true => rw [isWordPart_iff.mpr (.inl start)] at noPart; cases noPart

end Token

/-- The words that may begin or end a statement with a block. -/
def reserved : List String := keywords ++ ["END", "ELSE"]

private theorem reserved_plain {literal : String} (member : literal ∈ reserved) :
    IsName literal ∧ literal ≠ "TRUE" ∧ literal ≠ "FALSE" := by
  simp only [reserved, keywords, List.mem_cons, List.cons_append, List.nil_append, List.not_mem_nil, or_false] at member
  rcases member with rfl | rfl | rfl | rfl | rfl
  all_goals exact ⟨.of_chars rfl rfl rfl, by decide, by decide⟩

/-! The tokens of an expression. -/

namespace Expression

def tokens (value : Expression) : List Token := (value.words .plc).map Word.token

mutual
private theorem Proper.shaped_words {value : Expression} (proper : value.Proper) (dialect : Dialect) :
    ∀ word ∈ value.words dialect, word.token.Shaped := by
  match value with
  | literal value =>
    rw [words, List.forall_mem_singleton]
    exact proper.shape_literal dialect
  | reference name =>
    rw [words, List.forall_mem_singleton]
    exact proper.1
  | group inner =>
    have innerProper : inner.Proper := proper
    simp only [words, List.forall_mem_append, List.forall_mem_singleton]
    exact ⟨⟨Token.shaped_sign rfl, innerProper.shaped_words dialect⟩, Token.shaped_sign rfl⟩
  | binary operator left right =>
    obtain ⟨below, _, leftProper, rightProper⟩ := proper
    simp only [words, List.forall_mem_append, List.forall_mem_singleton]
    exact ⟨⟨leftProper.shaped_words dialect, shape_operator (binds_rank (Nat.zero_lt_of_lt below))⟩,
      rightProper.shaped_words dialect⟩
  | call name values =>
    simp only [words, List.forall_mem_append, List.forall_mem_singleton]
    exact ⟨⟨⟨proper.1, Token.shaped_sign rfl⟩, ProperAll.shaped_words proper.2.1 dialect⟩, Token.shaped_sign rfl⟩

private theorem ProperAll.shaped_words {values : List Expression} (proper : ProperAll values) (dialect : Dialect) :
    ∀ word ∈ wordsAll values dialect, word.token.Shaped := by
  match values with
  | [] => exact nofun
  | [last] =>
    rw [wordsAll]
    exact proper.1.shaped_words dialect
  | first :: second :: others =>
    simp only [wordsAll_cons_cons, List.forall_mem_append, List.forall_mem_singleton]
    exact ⟨⟨proper.1.shaped_words dialect, Token.shaped_sign rfl⟩, ProperAll.shaped_words proper.2 dialect⟩
end

private theorem Proper.shaped {value : Expression} (proper : value.Proper) : ∀ token ∈ value.tokens, token.Shaped :=
  List.forall_mem_map.mpr (proper.shaped_words .plc)

private theorem Proper.derives {value : Expression} (proper : value.Proper) : Phrase 3 value.tokens value :=
  (proper.phrase (map_word_token (value.words .plc))).mono (rank_le value)

private theorem tokens_name (value : Expression) : ∀ token ∈ value.tokens.head?, token.kind = .identifier →
    token.literal ∈ value.leadingName ∨ token.literal = "TRUE" ∨ token.literal = "FALSE" := by
  match value with
  | literal (.boolean true) =>
    rintro token ⟨⟩ _
    exact .inr (.inl rfl)
  | literal (.boolean false) =>
    rintro token ⟨⟩ _
    exact .inr (.inr rfl)
  | literal (.integer _) | literal (.decimal _) | literal (.string _) | group _ =>
    rintro token ⟨⟩ ⟨⟩
  | reference _ | call _ _ =>
    rintro token ⟨⟩ _
    exact .inl rfl
  | binary operator left right =>
    intro token head kind
    have parts : (binary operator left right).tokens = left.tokens ++ .ofSign operator :: right.tokens := by
      simp [tokens, words, Word.token, Word.sign, Token.ofSign]
    rw [parts, List.head?_append] at head
    cases begins : left.tokens.head? with
    | none =>
      rw [begins] at head
      cases head
      cases kind
    | some first =>
      rw [begins] at head
      cases head
      exact tokens_name left _ begins kind

/-- An expression begins with a reserved word only when that is its leading name. -/
theorem Proper.begins {value : Expression} (proper : value.Proper) {stops : List String}
    (inside : stops ⊆ reserved) (leading : ∀ name ∈ value.leadingName, name ∉ stops) :
    ∀ token ∈ value.tokens.head?, token.literal ∉ stops := by
  intro token head member
  obtain ⟨isName, notTrue, notFalse⟩ := reserved_plain (inside member)
  by_cases kind : token.kind = .identifier
  · rcases value.tokens_name token head kind with name | same | same
    · exact leading _ name member
    · exact notTrue same
    · exact notFalse same
  · exact (proper.shaped token (List.mem_of_head? head)).not_isName kind isName

end Expression

/-! The tokens of a program. -/

namespace Statement

mutual
/-- The second branch of a conditional is written even when it is empty. -/
def tokens : Statement → List Token
  | expression value => value.tokens ++ [.ofSign ";"]
  | declaration name typeName none => [.ofName "LET", .ofName name, .ofSign ":", .ofName typeName, .ofSign ";"]
  | declaration name typeName (some value) =>
    .ofName "LET" :: .ofName name :: .ofSign ":" :: .ofName typeName :: .ofSign "=" :: value.tokens ++ [.ofSign ";"]
  | assignment name value => .ofName name :: .ofSign "=" :: value.tokens ++ [.ofSign ";"]
  | conditional condition thenBody elseBody =>
    .ofName "IF" :: condition.tokens ++ .ofName "THEN" :: tokensAll thenBody ++
      .ofName "ELSE" :: tokensAll elseBody ++ [.ofName "END"]
  | loop condition body => .ofName "WHILE" :: condition.tokens ++ .ofName "DO" :: tokensAll body ++ [.ofName "END"]

def tokensAll : List Statement → List Token
  | [] => []
  | first :: others => first.tokens ++ tokensAll others
end

mutual
private theorem Proper.shaped {statement : Statement} (proper : statement.Proper) :
    ∀ token ∈ statement.tokens, token.Shaped := by
  match statement with
  | expression value =>
    simp only [tokens, List.forall_mem_append, List.forall_mem_singleton]
    exact ⟨proper.1.shaped, Token.shaped_sign rfl⟩
  | declaration name typeName none =>
    simp only [tokens, List.forall_mem_cons]
    exact ⟨Token.shaped_name rfl, proper.1, Token.shaped_sign rfl, proper.2.1, Token.shaped_sign rfl, nofun⟩
  | declaration name typeName (some value) =>
    simp only [tokens, List.cons_append, List.forall_mem_append, List.forall_mem_cons]
    exact ⟨Token.shaped_name rfl, proper.1, Token.shaped_sign rfl, proper.2.1, Token.shaped_sign rfl,
      (proper.2.2 value rfl).shaped, Token.shaped_sign rfl, nofun⟩
  | assignment name value =>
    simp only [tokens, List.cons_append, List.forall_mem_append, List.forall_mem_cons]
    exact ⟨proper.1, Token.shaped_sign rfl, proper.2.2.shaped, Token.shaped_sign rfl, nofun⟩
  | conditional condition thenBody elseBody =>
    simp only [tokens, List.cons_append, List.append_assoc, List.forall_mem_append, List.forall_mem_cons]
    exact ⟨Token.shaped_name rfl, proper.1.shaped, Token.shaped_name rfl, ProperAll.shaped proper.2.1,
      Token.shaped_name rfl, ProperAll.shaped proper.2.2, Token.shaped_name rfl, nofun⟩
  | loop condition body =>
    simp only [tokens, List.cons_append, List.append_assoc, List.forall_mem_append, List.forall_mem_cons]
    exact ⟨Token.shaped_name rfl, proper.1.shaped, Token.shaped_name rfl, ProperAll.shaped proper.2,
      Token.shaped_name rfl, nofun⟩

private theorem ProperAll.shaped {stops : List String} {statements : List Statement}
    (proper : ProperAll stops statements) : ∀ token ∈ tokensAll statements, token.Shaped := by
  match statements with
  | [] => exact nofun
  | first :: others =>
    simp only [tokensAll, List.forall_mem_append]
    exact ⟨proper.1.shaped, ProperAll.shaped proper.2.2⟩
end

/-- A statement begins with a word that ends a block only when that is its leading name. -/
theorem Proper.begins {statement : Statement} (proper : statement.Proper) {stops : List String}
    (inside : stops ⊆ ["END", "ELSE"]) (leading : ∀ name ∈ statement.leadingName, name ∉ stops) :
    ∀ token ∈ statement.tokens.head?, token.literal ∉ stops := by
  have keyword : ∀ literal ∈ keywords, literal ∉ stops := by
    intro literal member ends
    have disjoint : ∀ literal ∈ keywords, literal ∉ ["END", "ELSE"] := by decide
    exact disjoint literal member (inside ends)
  match statement with
  | expression value =>
    rw [tokens, List.head?_append_of_ne_nil _ proper.1.derives.ne_nil]
    exact proper.1.begins (List.subset_append_of_subset_right _ inside) leading
  | assignment name value =>
    rintro token ⟨⟩
    exact leading name rfl
  | declaration _ _ none | declaration _ _ (some _) | conditional _ _ _ | loop _ _ =>
    rintro token ⟨⟩
    exact keyword _ (by decide)

mutual
private theorem Proper.derives {statement : Statement} (proper : statement.Proper) :
    Clause statement.tokens statement := by
  match statement with
  | expression value =>
    refine .expression proper.1.derives ?_ rfl
    intro first head _
    exact proper.1.begins (List.subset_append_left _ _) proper.2 first head
  | declaration name typeName none => exact .declaration rfl rfl rfl rfl rfl rfl
  | declaration name typeName (some value) =>
    exact .initialized rfl rfl rfl rfl rfl rfl (proper.2.2 value rfl).derives rfl
  | assignment name value => exact .assignment rfl proper.2.1 rfl proper.2.2.derives rfl
  | conditional condition thenBody elseBody =>
    exact .alternative rfl rfl proper.1.derives rfl (ProperAll.derives proper.2.1 (by simp)) rfl
      (ProperAll.derives proper.2.2 (by simp)) rfl
  | loop condition body =>
    exact .loop rfl rfl proper.1.derives rfl (ProperAll.derives proper.2 (by simp)) rfl

private theorem ProperAll.derives {stops : List String} {statements : List Statement}
    (proper : ProperAll stops statements)
    (inside : stops ⊆ ["END", "ELSE"]) : Body stops (tokensAll statements) statements := by
  match statements with
  | [] => exact .nil
  | first :: others =>
    exact .cons proper.1.derives (proper.1.begins inside proper.2.1) (ProperAll.derives proper.2.2 inside)
end

end Statement

namespace Program

def source (program : Program) : String := Token.text (Statement.tokensAll program)

private theorem read_source {program : Program} (proper : Statement.ProperAll [] program) :
    read (source program) = .ok program := by
  obtain ⟨tokens, lexed, same⟩ := (Token.spells_text proper.shaped []).lex
  have parsed : parse tokens = .ok program := by
    rw [parse_eq_of_words same]
    exact parse_eq_ok.mpr (proper.derives (List.nil_subset _)).pass_result
  exact (read_eq_parse lexed).trans (Outcome.mapError_eq_ok.mpr parsed)

/-- The programs that texts can say are the proper ones. -/
theorem exists_source_iff_proper (program : Program) :
    (∃ source, read source = .ok program) ↔ Statement.ProperAll [] program := by
  constructor
  · intro readable
    obtain ⟨source, read⟩ := readable
    exact proper_of_read read
  · intro proper
    exact ⟨source program, read_source proper⟩

end Program

end PlcJava
