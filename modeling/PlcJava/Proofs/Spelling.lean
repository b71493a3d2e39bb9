import PlcJava.Proofs.Sweep

/-! Texts and the words they are lexed to. A piece of text is considered with what follows it,
so that pieces can be put together: no token then reaches from one piece into the next. -/

set_option autoImplicit false

namespace PlcJava

/-- A token without its place. -/
structure Word where
  kind : Kind
  literal : String
deriving DecidableEq

def Token.word (token : Token) : Word := ⟨token.kind, token.literal⟩

/-! Tokens of no text, whose place does not matter. -/

def Token.ofName (literal : String) : Token := ⟨.identifier, literal, 0⟩

def Token.ofSign (literal : String) : Token := ⟨.operator, literal, 0⟩

namespace Word

def name (literal : String) : Word := ⟨.identifier, literal⟩

def sign (literal : String) : Word := ⟨.operator, literal⟩

def token (word : Word) : Token := ⟨word.kind, word.literal, 0⟩

end Word

theorem map_word_token (words : List Word) : (words.map Word.token).map Token.word = words := by
  rw [List.map_map]
  exact List.map_id words

/-- The piece of text gives these words, wherever it stands, when the rest follows it. -/
def Spells (text : List Char) (words : List Word) (rest : List Char) : Prop :=
  ∀ offset, ∃ tokens, tokens.map Token.word = words ∧
    Cursor.sweep ⟨offset, [], text ++ rest⟩ =
      (Cursor.sweep ⟨offset + text.length, [], rest⟩).behind tokens

/-- The next character ends any token before it. -/
def Apart (rest : List Char) : Prop :=
  ∀ next ∈ rest.head?, isWordPart next = false ∧ next ≠ '.' ∧ next ≠ '='

theorem Apart.cons {c : Char} (rest : List Char)
    (ends : isWordPart c = false ∧ c ≠ '.' ∧ c ≠ '=' := by decide) : Apart (c :: rest) := by
  intro next member
  cases member
  exact ends

theorem Munch.of_apart {kind : Kind} {text rest : List Char} (shape : kind.Shape text) (apart : Apart rest) :
    Munch kind text rest := by
  refine ⟨shape, ?_⟩
  intro next member longer
  obtain ⟨noPart, noPoint, noEquals⟩ := apart next member
  cases kind with
  | identifier =>
    rw [Kind.Extends, noPart] at longer
    cases longer
  | integer | decimal =>
    rcases longer with digit | ⟨point, _⟩
    · rw [isWordPart_of_isDigit digit] at noPart
      cases noPart
    · exact noPoint point
  | string => exact longer
  | operator => exact noEquals longer.2

namespace Spells

variable {text first second rest : List Char} {words firstWords secondWords : List Word}

theorem nil (rest : List Char) : Spells [] [] rest :=
  fun _ => ⟨[], rfl, rfl⟩

theorem append (left : Spells first firstWords (second ++ rest)) (right : Spells second secondWords rest) :
    Spells (first ++ second) (firstWords ++ secondWords) rest := by
  intro offset
  obtain ⟨firstTokens, rfl, leftSweep⟩ := left offset
  obtain ⟨secondTokens, rfl, rightSweep⟩ := right (offset + first.length)
  refine ⟨firstTokens ++ secondTokens, by simp, ?_⟩
  rw [List.append_assoc, leftSweep, rightSweep, ← Sweep.behind_append, List.length_append, Nat.add_assoc]

theorem blank {c : Char} (blank : isBlank c = true) (rest : List Char) : Spells [c] [] rest :=
  fun offset => ⟨[], rfl, Cursor.sweep_blank blank offset [] rest⟩

theorem blanks (blank : ∀ c ∈ text, isBlank c = true) (rest : List Char) : Spells text [] rest := by
  induction text with
  | nil => exact nil rest
  | cons c cs ih =>
    have first := Spells.blank (blank c (by simp)) (cs ++ rest)
    exact first.append (ih fun d member => blank d (by simp [member]))

theorem spaced (spells : Spells text words (' ' :: rest)) : Spells (text ++ [' ']) words rest := by
  have whole := spells.append (blank (by decide) rest)
  rwa [List.append_nil] at whole

private theorem munch {kind : Kind} (munch : Munch kind text rest) :
    Spells text [⟨kind, String.ofList text⟩] rest := by
  intro offset
  exact ⟨_, rfl, Cursor.sweep_token munch offset []⟩

theorem token {kind : Kind} {literal : String} (shape : kind.Shape literal.toList) (apart : Apart rest) :
    Spells literal.toList [⟨kind, literal⟩] rest := by
  have spelled := munch (Munch.of_apart shape apart)
  rwa [String.ofList_toList] at spelled

/-- A sign that is never the beginning of a longer one. -/
theorem sign {c : Char} (rest : List Char)
    (apart : isBlank c = false ∧ isWordPart c = false ∧ c ≠ '"' ∧ c ≠ '=' ∧ c ≠ '!' := by decide) :
    Spells [c] [.sign (String.ofList [c])] rest := by
  apply munch
  refine ⟨.inr (.inr ⟨c, rfl, apart.1, apart.2.1, apart.2.2.1⟩), ?_⟩
  intro next _ longer
  rcases longer.1 with same | same
  · exact apart.2.2.2.1 (List.cons.inj same).1
  · exact apart.2.2.2.2 (List.cons.inj same).1

theorem lex {source : String} (spells : Spells source.toList words []) :
    ∃ tokens, PlcJava.lex source = .ok tokens ∧ tokens.map Token.word = words := by
  obtain ⟨tokens, same, swept⟩ := spells 0
  refine ⟨tokens, ?_, same⟩
  unfold PlcJava.lex Cursor.ofString
  rw [List.append_nil] at swept
  rw [swept, Cursor.sweep_nil]
  simp [Sweep.behind, Sweep.answer]

end Spells

end PlcJava
