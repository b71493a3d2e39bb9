import PlcJava.Token

/-! One token at the head of a text. Every character is scanned into exactly one piece: a
scan splits the text, whether or not the piece it reads is a token. -/

set_option autoImplicit false

namespace PlcJava

/-- The six characters that separate tokens: space, tab, line feed, vertical tab, form feed
and carriage return. -/
def isBlank (c : Char) : Bool :=
  c == ' ' || c == '\t' || c == '\n' || c == '\x0b' || c == '\x0c' || c == '\r'

def isWordStart (c : Char) : Bool := c.isAlpha || c == '_'

def isWordPart (c : Char) : Bool := c.isAlphanum || c == '_'

/-- Why a piece of text is no token. -/
inductive LexFault where
  | danglingPoint
  | openString
deriving DecidableEq

def LexFault.message : LexFault → String
  | .danglingPoint => "decimal point must be followed by a digit"
  | .openString => "unterminated string literal"

/-- A piece of text with what follows it, and what the piece is. -/
structure Lexeme where
  sort : Except LexFault Kind
  text : List Char
  rest : List Char

namespace Lexeme

def extend (before : List Char) (lexeme : Lexeme) : Lexeme :=
  { lexeme with text := before ++ lexeme.text }

def identifier (cs : List Char) : Lexeme :=
  ⟨.ok .identifier, cs.takeWhile isWordPart, cs.dropWhile isWordPart⟩

/-- Digits, where each digit may be followed by a point and one more digit. The digit after a
point is not itself followed by a point: `1.2.3` ends after `1.2`, while `1.23.4` is one
piece. A point with no digit after it spoils the whole number and is part of it. -/
def number (kind : Kind) : List Char → Lexeme
  | [] => ⟨.ok kind, [], []⟩
  | c :: cs =>
    if c.isDigit then
      match cs with
      | '.' :: d :: tail =>
        if d.isDigit then (number .decimal tail).extend [c, '.', d]
        else ⟨.error .danglingPoint, [c, '.'], d :: tail⟩
      | ['.'] => ⟨.error .danglingPoint, [c, '.'], []⟩
      | cs => (number kind cs).extend [c]
    else ⟨.ok kind, [], c :: cs⟩

/-- A string after its opening quote. Nothing is escaped, so the next quote closes it. -/
def string (cs : List Char) : Lexeme :=
  match cs.dropWhile (· ≠ '"') with
  | [] => ⟨.error .openString, '"' :: cs, []⟩
  | quote :: rest => ⟨.ok .string, '"' :: cs.takeWhile (· ≠ '"') ++ [quote], rest⟩

/-- Two characters for `==` and `!=`, one character otherwise. -/
def operator (c : Char) (cs : List Char) : Lexeme :=
  match cs with
  | '=' :: rest =>
    if c = '=' ∨ c = '!' then ⟨.ok .operator, [c, '='], rest⟩ else ⟨.ok .operator, [c], '=' :: rest⟩
  | rest => ⟨.ok .operator, [c], rest⟩

/-- The piece that starts with `c`, which is no blank. -/
def scan (c : Char) (cs : List Char) : Lexeme :=
  if isWordStart c then identifier (c :: cs)
  else if c.isDigit then number .integer (c :: cs)
  else if c = '"' then string cs
  else operator c cs

@[simp]
theorem text_extend (before : List Char) (lexeme : Lexeme) :
    (lexeme.extend before).text = before ++ lexeme.text := rfl

@[simp]
theorem rest_extend (before : List Char) (lexeme : Lexeme) :
    (lexeme.extend before).rest = lexeme.rest := rfl

@[simp]
theorem sort_extend (before : List Char) (lexeme : Lexeme) :
    (lexeme.extend before).sort = lexeme.sort := rfl

theorem identifier_text_append (cs : List Char) :
    (identifier cs).text ++ (identifier cs).rest = cs := by
  simp [identifier]

theorem number_text_append (kind : Kind) (cs : List Char) :
    (number kind cs).text ++ (number kind cs).rest = cs := by
  fun_induction number kind cs <;> simp_all

theorem string_text_append (cs : List Char) :
    (string cs).text ++ (string cs).rest = '"' :: cs := by
  have split := List.takeWhile_append_dropWhile (p := (· ≠ '"')) (l := cs)
  unfold string
  split
  · simp
  next quote rest found =>
    rw [found] at split
    simpa using split

theorem operator_text_append (c : Char) (cs : List Char) :
    (operator c cs).text ++ (operator c cs).rest = c :: cs := by
  unfold operator
  split
  · split <;> rfl
  · rfl

/-- A scan loses nothing. -/
theorem scan_text_append (c : Char) (cs : List Char) :
    (scan c cs).text ++ (scan c cs).rest = c :: cs := by
  unfold scan
  split
  · exact identifier_text_append _
  · split
    · exact number_text_append _ _
    · split
      next quote => subst quote; exact string_text_append _
      · exact operator_text_append _ _

theorem scan_text_ne_nil (c : Char) (cs : List Char) : (scan c cs).text ≠ [] := by
  unfold scan
  split
  next start =>
    have part : isWordPart c = true := by
      simp only [isWordStart, isWordPart, Char.isAlphanum, Bool.or_eq_true] at start ⊢
      exact start.imp_left .inl
    simp [identifier, part]
  · split
    next digit =>
      unfold number
      simp only [digit, if_true]
      split
      · split <;> simp
      · simp
      · simp
    · split
      · unfold string
        split <;> simp
      · unfold operator
        split
        · split <;> simp
        · simp

theorem scan_rest_shorter (c : Char) (cs : List Char) : (scan c cs).rest.length < (c :: cs).length := by
  have whole := congrArg List.length (scan_text_append c cs)
  have nonempty := List.length_pos_iff.mpr (scan_text_ne_nil c cs)
  rw [List.length_append] at whole
  omega

end Lexeme

end PlcJava
