import PlcJava.Proofs.ProgramSource
import PlcJava.Proofs.ProgramText

/-! The numbers and strings of a program, from its text to the Java text. Between the two they keep
their order, and all that changes is how a number is written. -/

set_option autoImplicit false

namespace PlcJava

/-- Numbers and strings stand for themselves. -/
def Kind.isConstant : Kind → Bool
  | .integer | .decimal | .string => true
  | .identifier | .operator => false

def Kind.isNumber : Kind → Bool
  | .integer | .decimal => true
  | .identifier | .operator | .string => false

/-- The word with a number written in its canonical way. Not every word of digits and points is a
number. -/
def Word.canonical? (word : Word) : Option Word :=
  match word.kind with
  | .integer => (Integer.read? word.literal).map fun value => ⟨.integer, Integer.write value⟩
  | .decimal => (Decimal.read? word.literal).map fun value => ⟨.decimal, value.write⟩
  | .identifier | .string | .operator => some word

def constants (words : List Word) : List Word := words.filter (·.kind.isConstant)

private theorem constants_append (first second : List Word) :
    constants (first ++ second) = constants first ++ constants second :=
  List.filter_append first second

private theorem constants_of_plain {words : List Word} (plain : words.all (!·.kind.isConstant) = true) :
    constants words = [] := by
  rw [constants, List.filter_eq_nil_iff]
  intro word member
  simpa using List.all_eq_true.mp plain word member

/-- The numbers and strings among the tokens are, one by one, those among the words. -/
def Keeps (tokens : List Token) (words : List Word) : Prop :=
  (constants (tokens.map Token.word)).map Word.canonical? = (constants words).map some

namespace Keeps

variable {token : Token} {first second : List Token} {words firstWords secondWords : List Word}

private theorem append (left : Keeps first firstWords) (right : Keeps second secondWords) :
    Keeps (first ++ second) (firstWords ++ secondWords) := by
  rw [Keeps, List.map_append, constants_append, constants_append, List.map_append, List.map_append]
  exact congrArg₂ _ left right

private theorem nil (words : List Word) (plain : words.all (!·.kind.isConstant) = true := by rfl) : Keeps [] words := by
  rw [Keeps, constants_of_plain plain]
  rfl

private theorem congr (keeps : Keeps first firstWords) (same : constants firstWords = constants secondWords) :
    Keeps first secondWords := by
  rw [Keeps, ← same]
  exact keeps

private theorem constant {word : Word} (canonical : token.word.canonical? = some word)
    (before : token.kind.isConstant = true) (after : word.kind.isConstant = true) : Keeps [token] [word] := by
  have both : constants [token.word] = [token.word] ∧ constants [word] = [word] := by
    simp [constants, Token.word, before, after]
  rw [Keeps, List.map_singleton, both.1, both.2, List.map_singleton, canonical]
  rfl

private theorem plain (other : token.kind.isConstant = false)
    (plain : words.all (!·.kind.isConstant) = true := by rfl) : Keeps [token] words := by
  have none : constants ([token].map Token.word) = [] := by simp [constants, Token.word, other]
  rw [Keeps, none, constants_of_plain plain]
  rfl

private theorem identifier (kind : token.kind = .identifier) (words : List Word)
    (none : words.all (!·.kind.isConstant) = true := by rfl) : Keeps [token] words :=
  plain (by rw [kind]; rfl) none

/-- A number begins with a digit and a string with a quote, so marks and keywords are neither. -/
theorem mark {literal : String} (shaped : token.Shaped) (same : token.literal = literal) (words : List Word)
    (begins : literal.toList.head?.any (fun c => !c.isDigit && c != '"') = true := by decide)
    (none : words.all (!·.kind.isConstant) = true := by rfl) : Keeps [token] words := by
  apply plain _ none
  subst same
  cases kind : token.kind with
  | identifier | operator => rfl
  | integer =>
    obtain ⟨nonempty, digits⟩ := shaped.of_kind kind
    obtain ⟨c, cs, text⟩ := List.exists_cons_of_ne_nil nonempty
    simp [text, digits c (by simp [text])] at begins
  | decimal =>
    obtain ⟨groups, point⟩ := shaped.of_kind kind
    obtain ⟨c, cs, text⟩ := List.exists_cons_of_ne_nil (List.ne_nil_of_mem point)
    rw [text] at groups
    simp [text, groups.first] at begins
  | string =>
    obtain ⟨contents, text, _⟩ := shaped.of_kind kind
    simp [text] at begins

end Keeps

/-! The words of the trees, up to names and signs. -/

private theorem Expression.constants_wordsAll_cons (first : Expression) (others : List Expression) (rest : List Word) :
    constants (wordsAll (first :: others) ++ rest) = constants first.words ++ constants (wordsAll others ++ rest) := by
  cases others with
  | nil => simp [wordsAll, constants_append]
  | cons second others =>
    rw [wordsAll_cons_cons]
    simp [constants, Word.sign, Kind.isConstant]

/-- Whether the second branch is written at all makes no difference here. -/
theorem Statement.constants_alternative (body : List Statement) :
    constants (alternative body) = constants (wordsAll body) := by
  cases body with
  | nil => rfl
  | cons first others =>
    rw [alternative_cons]
    simp [constants, Word.sign, Word.name, Kind.isConstant]

namespace Grammar

private theorem string_word {token : Token} (shaped : token.Shaped) (kind : token.kind = .string) :
    token.word = ⟨.string, "\"" ++ Parsing.unquote token.literal ++ "\""⟩ := by
  obtain ⟨contents, text, _⟩ := shaped.of_kind kind
  have literal : token.literal = "\"" ++ Parsing.unquote token.literal ++ "\"" := by
    apply String.toList_inj.mp
    simp [Parsing.unquote, text]
  rw [Token.word, kind]
  exact congrArg (Word.mk .string) literal

private theorem Binds.begins {level : Nat} {literal : String} (binds : Binds level literal) :
    literal.toList.head?.any (fun c => !c.isDigit && c != '"') = true := by
  cases binds <;> decide

mutual
private theorem Phrase.keeps {level : Nat} {tokens : List Token} {value : Expression}
    (phrase : Phrase level tokens value) (shaped : ∀ token ∈ tokens, token.Shaped) : Keeps tokens value.words := by
  match phrase with
  | .integer kind read =>
    refine .constant ?_ (by rw [kind]; rfl) rfl
    simp [Word.canonical?, Token.word, kind, read, Literal.kind, Dialect.literal, Java.literal]
  | .decimal kind read =>
    refine .constant ?_ (by rw [kind]; rfl) rfl
    simp [Word.canonical?, Token.word, kind, read, Literal.kind, Dialect.literal, Java.literal]
  | .string kind =>
    refine .constant ?_ (by rw [kind]; rfl) rfl
    rw [string_word (shaped _ (by simp)) kind]
    rfl
  | .truth kind _ | .falsity kind _ | .reference kind _ _ => exact .identifier kind _
  | .call kind opens inner =>
    have values := inner.keeps fun token member => shaped token (by simp [member])
    rw [Expression.words, List.append_assoc, List.append_assoc]
    exact (Keeps.identifier kind _).append ((Keeps.mark (shaped _ (by simp)) opens _).append values)
  | .group _ opens inner closes =>
    have value := inner.keeps fun token member => shaped token (by simp [member])
    have opened := (Keeps.mark (shaped _ (by simp)) opens [Word.sign "("]).append value
    exact opened.append (.mark (shaped _ (by simp)) closes [Word.sign ")"])
  | .lift inner => exact inner.keeps shaped
  | .binary first binds second =>
    have left := first.keeps fun token member => shaped token (by simp [member])
    have right := second.keeps fun token member => shaped token (by simp [member])
    rw [Expression.words, List.append_assoc]
    exact left.append ((Keeps.mark (shaped _ (by simp)) rfl _ binds.begins).append right)

private theorem Arguments.keeps {tokens : List Token} {values : List Expression} (inner : Arguments tokens values)
    (shaped : ∀ token ∈ tokens, token.Shaped) : Keeps tokens (Expression.wordsAll values ++ [Word.sign ")"]) := by
  match inner with
  | .close closes => exact .mark (shaped _ (by simp)) closes [Word.sign ")"]
  | .last phrase _ closes =>
    have value := phrase.keeps fun token member => shaped token (by simp [member])
    exact value.append (.mark (shaped _ (by simp)) closes [Word.sign ")"])
  | .more phrase _ separates _ later =>
    have value := phrase.keeps fun token member => shaped token (by simp [member])
    have others := later.keeps fun token member => shaped token (by simp [member])
    have comma := Keeps.mark (shaped _ (by simp)) separates []
    refine (value.append (comma.append others)).congr ?_
    rw [Expression.constants_wordsAll_cons, constants_append, List.nil_append]
end

private theorem Phrase.keeps_head {level : Nat} {tokens : List Token} {value : Expression} {keyword opening : Token}
    {literal : String} (phrase : Phrase level tokens value) (shaped : ∀ token ∈ tokens, token.Shaped)
    (kind : keyword.kind = .identifier) (opens : opening.Shaped) (same : opening.literal = literal) (name : String)
    (begins : literal.toList.head?.any (fun c => !c.isDigit && c != '"') = true := by decide) :
    Keeps (keyword :: tokens ++ [opening]) ((Expression.call name [value]).words ++ [Word.sign "\x7b"]) := by
  have head := (Keeps.identifier kind [Word.name name, Word.sign "("]).append (phrase.keeps shaped)
  have closed := Keeps.mark opens same [Word.sign ")", Word.sign "\x7b"] begins
  have words : (Expression.call name [value]).words ++ [Word.sign "\x7b"] =
      [Word.name name, Word.sign "("] ++ value.words ++ [Word.sign ")", Word.sign "\x7b"] := by
    simp [Expression.words, Expression.wordsAll]
  rw [words]
  exact head.append closed

mutual
private theorem Clause.keeps {tokens : List Token} {statement : Statement} (clause : Clause tokens statement)
    (shaped : ∀ token ∈ tokens, token.Shaped) : Keeps tokens statement.words := by
  match clause with
  | .expression inner _ ends =>
    have value := inner.keeps fun token member => shaped token (by simp [member])
    rw [Statement.words, Statement.remainder, List.append_nil]
    exact value.append (.mark (shaped _ (by simp)) ends _)
  | .declaration introduced _ name separates type ends =>
    exact (Keeps.identifier introduced []).append ((Keeps.identifier name []).append
      ((Keeps.mark (shaped _ (by simp)) separates []).append ((Keeps.identifier type []).append
        (.mark (shaped _ (by simp)) ends _))))
  | .initialized introduced _ name separates type equals inner ends =>
    have value := inner.keeps fun token member => shaped token (by simp [member])
    exact (Keeps.identifier introduced []).append ((Keeps.identifier name []).append
      ((Keeps.mark (shaped _ (by simp)) separates []).append ((Keeps.identifier type [Word.name _, Word.name _]).append
        ((Keeps.mark (shaped _ (by simp)) equals [Word.sign "="]).append
          (value.append (.mark (shaped _ (by simp)) ends [Word.sign ";"]))))))
  | .assignment kind _ equals inner ends =>
    have value := inner.keeps fun token member => shaped token (by simp [member])
    exact (Keeps.identifier kind [Word.name _]).append ((Keeps.mark (shaped _ (by simp)) equals [Word.sign "="]).append
      (value.append (.mark (shaped _ (by simp)) ends [Word.sign ";"])))
  | .conditional kind _ inner begins first ends =>
    have head := inner.keeps_head (fun token member => shaped token (by simp [member])) kind
      (shaped _ (by simp)) begins "if"
    have body := first.keeps fun token member => shaped token (by simp [member])
    have whole := head.append (body.append (.mark (shaped _ (by simp)) ends [Word.sign "\x7d"]))
    simpa [Statement.words, Statement.opening, Opening.words, Statement.remainder, Statement.alternative] using whole
  | .alternative kind _ inner begins first turns second ends =>
    have head := inner.keeps_head (fun token member => shaped token (by simp [member])) kind
      (shaped _ (by simp)) begins "if"
    have body := first.keeps fun token member => shaped token (by simp [member])
    have turn := Keeps.mark (shaped _ (by simp)) turns [Word.sign "\x7d"]
    have other := (second.keeps fun token member => shaped token (by simp [member])).congr
      (Statement.constants_alternative _).symm
    have whole := head.append (body.append (turn.append (other.append (.mark (shaped _ (by simp)) ends []))))
    simpa [Statement.words, Statement.opening, Opening.words, Statement.remainder] using whole
  | .loop kind _ inner begins first ends =>
    have head := inner.keeps_head (fun token member => shaped token (by simp [member])) kind
      (shaped _ (by simp)) begins "while"
    have body := first.keeps fun token member => shaped token (by simp [member])
    have whole := head.append (body.append (.mark (shaped _ (by simp)) ends [Word.sign "\x7d"]))
    simpa [Statement.words, Statement.opening, Opening.words, Statement.remainder] using whole

private theorem Body.keeps {stops : List String} {tokens : List Token} {statements : List Statement}
    (body : Body stops tokens statements) (shaped : ∀ token ∈ tokens, token.Shaped) :
    Keeps tokens (Statement.wordsAll statements) := by
  match body with
  | .nil => exact .nil []
  | .cons first _ later =>
    have statement := first.keeps fun token member => shaped token (by simp [member])
    have others := later.keeps fun token member => shaped token (by simp [member])
    rw [Statement.wordsAll_cons]
    exact statement.append others
end

end Grammar

/-! The words of the whole text. -/

/-- Whether a text is a name, by its characters. -/
def isWord (text : String) : Bool := text.toList.head?.any isWordStart && text.toList.tail.all isWordPart

private theorem IsName.of_isWord {name : String} (word : isWord name = true) : IsName name := by
  obtain ⟨start, parts⟩ := Bool.and_eq_true_iff.mp word
  cases text : name.toList with
  | nil => simp [text] at start
  | cons first others =>
    rw [text] at start parts
    exact .of_chars text start parts

private theorem Spells.name {name : String} {rest : List Char} (apart : Apart rest)
    (word : isWord name = true := by decide) : Spells name.toList [Word.name name] rest :=
  .token (IsName.of_isWord word) apart

private theorem Spells.names (names : List String) (rest : List Char) (words : names.all isWord = true := by decide) :
    Spells (Token.text (names.map Token.ofName)).toList (names.map Word.name) rest := by
  have shaped : ∀ token ∈ names.map Token.ofName, token.Shaped := by
    intro token member
    obtain ⟨name, among, rfl⟩ := List.mem_map.mp member
    exact IsName.of_isWord (List.all_eq_true.mp words name among)
  have spelled := Token.spells_text shaped rest
  rwa [List.map_map] at spelled

namespace Program

def classWords : List Word :=
  ["public", "final", "class", "Main"].map Word.name ++ [Word.sign "\x7b"]

def methodWords : List Word :=
  ["public", "static", "void"].map Word.name ++ [Word.name "main"] ++ [Word.sign "("] ++ [Word.name "String"] ++
    [Word.sign "["] ++ [Word.sign "]"] ++ [Word.name "args"] ++ [Word.sign ")"] ++ [Word.sign "\x7b"]

private theorem spells_class (rest : List Char) :
    Spells (String.join ["public final class Main \x7b"]).toList classWords rest := by
  have text : (String.join ["public final class Main \x7b"]).toList =
      (Token.text (["public", "final", "class", "Main"].map Token.ofName)).toList ++ ['\x7b'] := by decide
  rw [text]
  apply Spells.append _ (.sign rest)
  exact .names _ _

private theorem spells_method (rest : List Char) :
    Spells (String.join ["public static void main(String[] args) \x7b"]).toList methodWords rest := by
  have text : (String.join ["public static void main(String[] args) \x7b"]).toList =
      (Token.text (["public", "static", "void"].map Token.ofName)).toList ++ "main".toList ++ ['('] ++
        "String".toList ++ ['['] ++ [']'] ++ [' '] ++ "args".toList ++ [')'] ++ [' '] ++ ['\x7b'] := by decide
  rw [text]
  apply Spells.append _ (.sign rest)
  apply Spells.spaced
  apply Spells.append _ (.sign _)
  apply Spells.append _ (.name (.cons _))
  apply Spells.spaced
  apply Spells.append _ (.sign _)
  apply Spells.append _ (.sign _)
  apply Spells.append _ (.name (.cons _))
  apply Spells.append _ (.sign _)
  apply Spells.append _ (.name (.cons _))
  exact .names _ _

def words (program : Program) : List Word :=
  classWords ++ methodWords ++ Statement.wordsAll program ++ [Word.sign "\x7d"] ++ [Word.sign "\x7d"]

private theorem prints {program : Program} (proper : Statement.ProperAll [] program) :
    Prints (Java.program program) program.words 0 0 := by
  have head := ((Prints.texts spells_class 0).append (.margin 0)).append ((Prints.indent 0).append (.line 1))
  have opened := (head.append (Prints.texts spells_method 1)).append (proper.prints_block 1)
  have closed := (opened.append (Prints.texts Statement.spells_closing 1)).append
    ((Prints.dedent 0).append ((Prints.line 0).append (.margin 0)))
  have whole := (closed.append (Prints.texts Statement.spells_closing 0)).append (.margin 0)
  simpa [Java.program, words] using whole

private theorem keeps {source : String} {program : Program} {tokens : List Token} (lexed : lex source = .ok tokens)
    (body : Grammar.Body [] tokens program) : Keeps tokens program.words := by
  have head := Keeps.nil (classWords ++ methodWords)
  have inside := head.append (body.keeps (lex_shaped lexed))
  have whole := (inside.append (Keeps.nil [Word.sign "\x7d"])).append (Keeps.nil [Word.sign "\x7d"])
  simpa only [words, List.nil_append, List.append_nil] using whole

end Program

/-! The tokens of one kind or several. -/

private theorem Word.canonical?_kind {word other : Word} (canonical : word.canonical? = some other) :
    other.kind = word.kind := by
  obtain ⟨kind, literal⟩ := word
  cases kind with
  | integer | decimal =>
    obtain ⟨value, _, rfl⟩ := Option.map_eq_some_iff.mp canonical
    rfl
  | identifier | string | operator =>
    cases canonical
    rfl

private theorem map_canonical?_filter {words others : List Word} (same : words.map Word.canonical? = others.map some)
    (chosen : Kind → Bool) :
    (words.filter (chosen ·.kind)).map Word.canonical? = (others.filter (chosen ·.kind)).map some := by
  induction words generalizing others with
  | nil =>
    rw [List.map_eq_nil_iff.mp same.symm]
    rfl
  | cons word words ih =>
    obtain ⟨other, others, rfl, canonical, later⟩ := List.map_eq_cons_iff.mp same.symm
    rw [List.filter_cons, List.filter_cons, Word.canonical?_kind canonical.symm]
    split
    · rw [List.map_cons, List.map_cons, ih later.symm, canonical]
    · exact ih later.symm

private theorem constants_filter (tokens : List Token) {chosen : Kind → Bool}
    (among : ∀ kind, chosen kind = true → kind.isConstant = true) :
    (constants (tokens.map Token.word)).filter (chosen ·.kind) = (tokens.filter (chosen ·.kind)).map Token.word := by
  rw [constants, List.filter_filter, List.filter_map]
  congr 2
  funext token
  cases selected : chosen token.kind with
  | false => simp [Token.word, selected]
  | true => simp [Token.word, selected, among token.kind selected]

private theorem Keeps.filter {tokens others : List Token} (keeps : Keeps tokens (others.map Token.word))
    {chosen : Kind → Bool} (among : ∀ kind, chosen kind = true → kind.isConstant = true) :
    (tokens.filter (chosen ·.kind)).map (·.word.canonical?) = (others.filter (chosen ·.kind)).map (some ·.word) := by
  have same := map_canonical?_filter keeps chosen
  rw [constants_filter tokens among, constants_filter others among, List.map_map, List.map_map] at same
  exact same

private theorem Keeps.strings {tokens others : List Token} (keeps : Keeps tokens (others.map Token.word)) :
    (others.filter (·.kind = .string)).map Token.literal = (tokens.filter (·.kind = .string)).map Token.literal := by
  have among : ∀ kind : Kind, decide (kind = .string) = true → kind.isConstant = true := by
    intro kind string
    rw [of_decide_eq_true string]
    rfl
  have unchanged : ∀ token ∈ tokens.filter (·.kind = .string), token.word.canonical? = some token.word := by
    intro token member
    have kind : token.kind = .string := of_decide_eq_true (List.mem_filter.mp member).2
    simp [Word.canonical?, Token.word, kind]
  have same := keeps.filter among
  rw [List.map_congr_left unchanged] at same
  have literals := congrArg (List.map (Option.elim · "" Word.literal)) same
  rw [List.map_map, List.map_map] at literals
  exact literals.symm

/-- The literals of a program stand in its Java text in the same order and in the same number: the
strings as they are, each number in its canonical way. -/
theorem compile_keeps_literals {source java : String} (compiled : compile source = .ok java) :
    ∃ tokens others, lex source = .ok tokens ∧ lex java = .ok others ∧
      (others.filter (·.kind = .string)).map Token.literal = (tokens.filter (·.kind = .string)).map Token.literal ∧
      (others.filter (·.kind.isNumber)).map (some ·.word) =
        (tokens.filter (·.kind.isNumber)).map (·.word.canonical?) ∧
      (others.filter (·.kind.isConstant)).map (some ·.word) =
        (tokens.filter (·.kind.isConstant)).map (·.word.canonical?) := by
  obtain ⟨program, read, rfl⟩ := compile_eq_ok.mp compiled
  obtain ⟨tokens, lexed, body⟩ := Program.read_eq_ok.mp read
  obtain ⟨others, relexed, words⟩ := (Program.prints (Program.proper_of_read read)).lex
  have keeps := Program.keeps lexed body
  rw [← words] at keeps
  have numbers : ∀ kind : Kind, kind.isNumber = true → kind.isConstant = true := by
    intro kind number
    cases kind with
    | integer | decimal => rfl
    | identifier | string | operator => cases number
  refine ⟨tokens, others, lexed, relexed, keeps.strings, ?_, ?_⟩
  · exact (keeps.filter numbers).symm
  · exact (keeps.filter fun _ constant => constant).symm

theorem compile_keeps_literals_call :
    let java := "public final class Main \x7b\n\n    public static void main(String[] args) \x7b\n" ++
      "        x = f(7, \"\x7b\", 1.50);\n    \x7d\n\n\x7d\n"
    compile "x = f(007, \"\x7b\", 01.50);" = .ok java ∧
      ∃ tokens others, lex "x = f(007, \"\x7b\", 01.50);" = .ok tokens ∧ lex java = .ok others ∧
        (others.filter (·.kind = .string)).map Token.literal = ["\"\x7b\""] ∧
        (others.filter (·.kind.isNumber)).map (some ·.word) =
          [some ⟨.integer, "7"⟩, some ⟨.decimal, "1.50"⟩] := by
  intro java
  have compiled : compile "x = f(007, \"\x7b\", 01.50);" = .ok java := by
    unfold java
    cbv
  have known : lex "x = f(007, \"\x7b\", 01.50);" = .ok [⟨.identifier, "x", 0⟩, ⟨.operator, "=", 2⟩,
      ⟨.identifier, "f", 4⟩, ⟨.operator, "(", 5⟩, ⟨.integer, "007", 6⟩, ⟨.operator, ",", 9⟩, ⟨.string, "\"\x7b\"", 11⟩,
      ⟨.operator, ",", 14⟩, ⟨.decimal, "01.50", 16⟩, ⟨.operator, ")", 21⟩, ⟨.operator, ";", 22⟩] := by
    cbv
  obtain ⟨tokens, others, lexed, relexed, strings, numbers, _⟩ := compile_keeps_literals compiled
  obtain rfl := Except.ok.inj (lexed.symm.trans known)
  refine ⟨compiled, _, others, lexed, relexed, strings.trans (by decide), numbers.trans ?_⟩
  cbv

end PlcJava
