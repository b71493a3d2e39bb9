import PlcJava.Proofs.ProgramText

/-! The Java text of a program determines the program. No name is reserved in it, a call may
be named `if` and a type `else`, so a statement is told from its first words together: two
names declare, a name and `=` assign, and the end of a phrase tells a call from a condition. -/

set_option autoImplicit false

namespace PlcJava

open Grammar

namespace Expression

private theorem Proper.phrase_words {value : Expression} (proper : value.Proper) :
    Phrase 3 (value.words.map Word.token) value.shown :=
  (proper.phrase (map_word_token value.words)).mono (rank_le value)

/-- Read back, the words of an expression end where they were put together. -/
theorem Proper.words_append_inj {first second : Expression} (firstProper : first.Proper)
    (secondProper : second.Proper) {ends closes : String} {rest others : List Word}
    (apartEnds : ends ≠ "(" ∧ Grammar.rank ends = 0) (apartCloses : closes ≠ "(" ∧ Grammar.rank closes = 0)
    (same : first.words ++ .sign ends :: rest = second.words ++ .sign closes :: others) :
    first.shown = second.shown ∧ ends = closes ∧ rest = others := by
  have closedLeft : Closed 3 ((Word.sign ends :: rest).map Word.token) := .of_literal rfl _ apartEnds
  have closedRight : Closed 3 ((Word.sign closes :: others).map Word.token) := .of_literal rfl _ apartCloses
  have left := firstProper.phrase_words.complete closedLeft
  have right := secondProper.phrase_words.complete closedRight
  rw [← List.map_append] at left right
  rw [same, right] at left
  obtain ⟨values, tails⟩ := Prod.mk.inj (Except.ok.inj left)
  have words := congrArg (List.map Token.word) tails
  rw [map_word_token, map_word_token] at words
  obtain ⟨signs, behind⟩ := List.cons.inj words
  exact ⟨values.symm, (Word.mk.inj signs).2.symm, behind.symm⟩

/-- Behind a name that begins an expression stands a parenthesis, an operator or the end. -/
theorem Proper.second {value : Expression} (proper : value.Proper) (property : String → Prop)
    (opens : property "(") (binds : ∀ tier sign, Binds tier sign → property sign) {ends name : String}
    (closes : property ends) {next : Word} {rest others : List Word}
    (same : value.words ++ .sign ends :: rest = .name name :: next :: others) : property next.literal := by
  have tokens := congrArg (List.map Word.token) same
  rw [List.map_append] at tokens
  refine proper.phrase_words.second (fun token => property token.literal) ?_ ?_ ?_ tokens rfl
  · intro token literal
    rw [literal]
    exact opens
  · intro token tier joins
    exact binds tier _ joins
  · intro token head
    cases head
    exact closes

end Expression

namespace Opening

def Proper : Opening → Prop
  | declaration typeName name => IsName typeName ∧ IsName name
  | assignment name => IsName name
  | phrase value ends => value.Proper ∧ (ends = ";" ∨ ends = "\x7b")

def shown : Opening → Opening
  | phrase value ends => phrase value.shown ends
  | other => other

private theorem second_of_phrase {value : Expression} {ends name : String} (proper : (phrase value ends).Proper)
    {next : Word} {rest others : List Word}
    (same : (phrase value ends).words ++ rest = .name name :: next :: others) :
    next.literal ≠ "=" ∧ ¬ IsName next.literal := by
  obtain ⟨valueProper, closes⟩ := proper
  rw [words, List.append_assoc] at same
  refine valueProper.second (fun literal => literal ≠ "=" ∧ ¬ IsName literal) ?_ ?_ ?_ same
  · exact ⟨by decide, IsName.not_of_first rfl⟩
  · intro tier sign binds
    cases binds with
    | _ => exact ⟨by decide, IsName.not_of_first rfl⟩
  · rcases closes with rfl | rfl
    · exact ⟨by decide, IsName.not_of_first rfl⟩
    · exact ⟨by decide, IsName.not_of_first rfl⟩

private theorem apart_of_phrase {value : Expression} {ends : String} (proper : (phrase value ends).Proper) :
    ends ≠ "(" ∧ Grammar.rank ends = 0 := by
  rcases proper.2 with rfl | rfl <;> decide

private theorem words_append_inj {first second : Opening} (firstProper : first.Proper) (secondProper : second.Proper)
    {rest others : List Word} (same : first.words ++ rest = second.words ++ others) :
    first.shown = second.shown ∧ rest = others := by
  cases first with
  | declaration typeName name =>
    cases second with
    | declaration =>
      cases same
      exact ⟨rfl, rfl⟩
    | assignment => cases same
    | phrase => exact absurd firstProper.2 (second_of_phrase secondProper same.symm).2
  | assignment name =>
    cases second with
    | declaration => cases same
    | assignment =>
      cases same
      exact ⟨rfl, rfl⟩
    | phrase => exact absurd rfl (second_of_phrase secondProper same.symm).1
  | phrase value ends =>
    cases second with
    | declaration => exact absurd secondProper.2 (second_of_phrase firstProper same).2
    | assignment => exact absurd rfl (second_of_phrase firstProper same).1
    | phrase =>
      rw [words, words, List.append_assoc, List.append_assoc] at same
      obtain ⟨values, rfl, behind⟩ := firstProper.1.words_append_inj secondProper.1
        (apart_of_phrase firstProper) (apart_of_phrase secondProper) same
      exact ⟨by rw [shown, shown, values], behind⟩

end Opening

namespace Statement

private theorem opening_proper {statement : Statement} (proper : statement.Proper) : statement.opening.Proper := by
  cases statement with
  | expression value => exact ⟨proper.1, .inl rfl⟩
  | declaration name typeName value => exact ⟨proper.2.1, proper.1⟩
  | assignment name value => exact proper.1
  | conditional condition _ _ => exact ⟨⟨isName_if, ⟨proper.1, trivial⟩, by simp⟩, .inr rfl⟩
  | loop condition _ => exact ⟨⟨isName_while, ⟨proper.1, trivial⟩, by simp⟩, .inr rfl⟩

/-- A conditional goes on with these words. -/
def Continues (rest : List Word) : Prop := ∃ others, rest = .name "else" :: .sign "\x7b" :: others

/-- No statement begins like the second branch of a conditional. -/
theorem Proper.not_continues {statement : Statement} (proper : statement.Proper) (rest : List Word) :
    ¬ Continues (statement.words ++ rest) := by
  intro ⟨others, same⟩
  cases statement with
  | expression value =>
    rw [words, opening, remainder, Opening.words, List.append_nil, List.append_assoc] at same
    have other := proper.1.second (· ≠ "\x7b") (by decide) ?_ (by decide) same
    · exact other rfl
    · intro tier sign binds
      cases binds <;> decide
  | declaration => cases same
  | assignment | conditional | loop =>
    simp [words, opening, Opening.words, Expression.words, Word.name, Word.sign] at same

private theorem ProperAll.not_continues {stops : List String} {statements : List Statement}
    (proper : ProperAll stops statements) (rest : List Word) :
    ¬ Continues (wordsAll statements ++ .sign "\x7d" :: rest) := by
  cases statements with
  | nil =>
    intro ⟨others, same⟩
    cases same
  | cons first others =>
    rw [wordsAll_cons, List.append_assoc]
    exact Proper.not_continues proper.1 _

private theorem Proper.not_closing {statement : Statement} (proper : statement.Proper) (rest others : List Word) :
    statement.words ++ rest ≠ .sign "\x7d" :: others := by
  intro same
  cases statement with
  | expression value =>
    obtain ⟨word, tail, begins, leading⟩ := proper.1.leads
    rw [words, opening, remainder, Opening.words, begins] at same
    cases same
    rcases leading with ⟨opens, _⟩ | ⟨other, _⟩
    · exact absurd opens (by decide)
    · exact other rfl
  | declaration | assignment | conditional | loop => cases same

private theorem semicolon_append_inj {first second : Expression} (firstProper : first.Proper)
    (secondProper : second.Proper) {rest others : List Word}
    (same : first.words ++ [Word.sign ";"] ++ rest = second.words ++ [Word.sign ";"] ++ others) :
    first.shown = second.shown ∧ rest = others := by
  rw [List.append_assoc, List.append_assoc] at same
  obtain ⟨values, _, behind⟩ := firstProper.words_append_inj secondProper (by decide) (by decide) same
  exact ⟨values, behind⟩

/-- Whether a declaration gives a value shows in the word behind the name. -/
theorem initializer_append_inj {name typeName : String} {first second : Option Expression}
    (firstProper : ∀ value ∈ first, value.Proper) (secondProper : ∀ value ∈ second, value.Proper)
    {rest others : List Word}
    (same : (declaration name typeName first).remainder ++ rest =
      (declaration name typeName second).remainder ++ others) :
    first.map Expression.shown = second.map Expression.shown ∧ rest = others := by
  match first, second with
  | none, none => exact ⟨rfl, (List.cons.inj same).2⟩
  | none, some value => simp [remainder, Word.sign] at same
  | some value, none => simp [remainder, Word.sign] at same
  | some value, some value' =>
    obtain ⟨values, behind⟩ :=
      semicolon_append_inj (firstProper value rfl) (secondProper value' rfl) (List.cons.inj same).2
    exact ⟨by rw [Option.map_some, Option.map_some, values], behind⟩

private theorem condition_of_opening {keyword : String} {first second : Expression}
    (same : Opening.shown (.phrase (.call keyword [first]) "\x7b") =
      Opening.shown (.phrase (.call keyword [second]) "\x7b")) : first.shown = second.shown := by
  simpa [Opening.shown, Expression.shown, Expression.shownAll] using same

/-- Whether there is a second branch shows in the words behind the first. -/
theorem alternative_append_inj {first second : List Statement} {rest others : List Word}
    (ends : ¬ Continues rest) (closes : ¬ Continues others)
    (bodies : ∀ {rest others}, wordsAll first ++ .sign "\x7d" :: rest = wordsAll second ++ .sign "\x7d" :: others →
      shownAll first = shownAll second ∧ rest = others)
    (same : alternative first ++ rest = alternative second ++ others) :
    shownAll first = shownAll second ∧ rest = others := by
  match first, second with
  | [], [] => exact ⟨rfl, same⟩
  | [], head :: tail => exact absurd ⟨_, same⟩ ends
  | head :: tail, [] => exact absurd ⟨_, same.symm⟩ closes
  | head :: tail, head' :: tail' =>
    simp only [alternative_cons, List.append_assoc] at same
    apply bodies
    exact List.append_cancel_left (List.append_cancel_left same)

mutual
/-- The words of a statement end where it ends, unless a second branch could still follow. -/
theorem Proper.words_append_inj {first second : Statement} (firstProper : first.Proper)
    (secondProper : second.Proper) {rest others : List Word} (ends : ¬ Continues rest)
    (closes : ¬ Continues others) (same : first.words ++ rest = second.words ++ others) :
    first.shown = second.shown ∧ rest = others := by
  rw [words, words, List.append_assoc, List.append_assoc] at same
  obtain ⟨openings, remainders⟩ :=
    Opening.words_append_inj (opening_proper firstProper) (opening_proper secondProper) same
  -- The openings already tell statements of different forms apart. What remains is to compare
  -- two of the same form behind their openings.
  match first with
  | expression value =>
    match second with
    | expression value' =>
      have values := (Opening.phrase.inj openings).1
      exact ⟨by rw [shown, shown, values], remainders⟩
    | declaration .. | assignment .. | conditional .. | loop .. =>
      simp [opening, Opening.shown] at openings
  | declaration name typeName value =>
    match second with
    | declaration name' typeName' value' =>
      obtain ⟨rfl, rfl⟩ := Opening.declaration.inj openings
      obtain ⟨values, behind⟩ := initializer_append_inj firstProper.2.2 secondProper.2.2 remainders
      exact ⟨by rw [shown, shown, values], behind⟩
    | expression .. | assignment .. | conditional .. | loop .. =>
      simp [opening, Opening.shown] at openings
  | assignment name value =>
    match second with
    | assignment name' value' =>
      obtain rfl := Opening.assignment.inj openings
      obtain ⟨values, behind⟩ := semicolon_append_inj firstProper.2.2 secondProper.2.2 remainders
      exact ⟨by rw [shown, shown, values], behind⟩
    | expression .. | declaration .. | conditional .. | loop .. =>
      simp [opening, Opening.shown] at openings
  | conditional condition thenBody elseBody =>
    match second with
    | conditional condition' thenBody' elseBody' =>
      have conditions := condition_of_opening openings
      simp only [remainder, List.append_assoc] at remainders
      obtain ⟨thenBodies, later⟩ := ProperAll.words_append_inj firstProper.2.1 secondProper.2.1 remainders
      obtain ⟨elseBodies, behind⟩ := alternative_append_inj ends closes
        (ProperAll.words_append_inj firstProper.2.2 secondProper.2.2) later
      exact ⟨by rw [shown, shown, conditions, thenBodies, elseBodies], behind⟩
    | expression .. | declaration .. | assignment .. | loop .. =>
      simp [opening, Opening.shown, Expression.shown] at openings
  | loop condition body =>
    match second with
    | loop condition' body' =>
      have conditions := condition_of_opening openings
      rw [remainder, remainder, List.append_assoc, List.append_assoc] at remainders
      obtain ⟨bodies, behind⟩ := ProperAll.words_append_inj firstProper.2 secondProper.2 remainders
      exact ⟨by rw [shown, shown, conditions, bodies], behind⟩
    | expression .. | declaration .. | assignment .. | conditional .. =>
      simp [opening, Opening.shown, Expression.shown] at openings

private theorem ProperAll.words_append_inj {stops stops' : List String} {first second : List Statement}
    (firstProper : ProperAll stops first) (secondProper : ProperAll stops' second) {rest others : List Word}
    (same : wordsAll first ++ .sign "\x7d" :: rest = wordsAll second ++ .sign "\x7d" :: others) :
    shownAll first = shownAll second ∧ rest = others := by
  match first, second with
  | [], [] => exact ⟨rfl, (List.cons.inj same).2⟩
  | [], head :: tail =>
    rw [wordsAll_cons, List.append_assoc] at same
    exact absurd same.symm (Proper.not_closing secondProper.1 _ _)
  | head :: tail, [] =>
    rw [wordsAll_cons, List.append_assoc] at same
    exact absurd same (Proper.not_closing firstProper.1 _ _)
  | head :: tail, head' :: tail' =>
    rw [wordsAll_cons, wordsAll_cons, List.append_assoc, List.append_assoc] at same
    obtain ⟨heads, later⟩ := Proper.words_append_inj firstProper.1 secondProper.1
      (ProperAll.not_continues firstProper.2.2 rest) (ProperAll.not_continues secondProper.2.2 others) same
    obtain ⟨tails, behind⟩ := ProperAll.words_append_inj firstProper.2.2 secondProper.2.2 later
    exact ⟨by rw [shownAll, shownAll, heads, tails], behind⟩
end

end Statement

/-- Proper programs with the same Java text show the same statements. -/
theorem Program.shown_of_render {first second : Program} (firstProper : Statement.ProperAll [] first)
    (secondProper : Statement.ProperAll [] second)
    (same : (Java.program first).render = (Java.program second).render) :
    Statement.shownAll first = Statement.shownAll second := by
  rw [Java.render_program, Java.render_program, String.append_left_inj, String.append_right_inj] at same
  obtain ⟨tokens, lexed, firstWords⟩ := (firstProper.spells_block 1 []).lex
  obtain ⟨others, lexedAgain, secondWords⟩ := (secondProper.spells_block 1 []).lex
  rw [← same, lexed] at lexedAgain
  cases lexedAgain
  have words := firstWords.symm.trans secondWords
  exact (firstProper.words_append_inj secondProper (congrArg (· ++ [Word.sign "\x7d"]) words)).1

/-- Two texts compile to the same Java text exactly when their programs differ at most in
truth values that the one writes as literals and the other as names. -/
theorem compile_eq_iff_shown {first second : String} {firstProgram secondProgram : Program}
    (firstRead : Program.read first = .ok firstProgram) (secondRead : Program.read second = .ok secondProgram) :
    compile first = compile second ↔
      Statement.shownAll firstProgram = Statement.shownAll secondProgram := by
  unfold compile
  rw [firstRead, secondRead]
  constructor
  · intro same
    exact Program.shown_of_render (Program.proper_of_read firstRead) (Program.proper_of_read secondRead)
      (Except.ok.inj same)
  · intro same
    simp only [Except.map]
    rw [← Java.program_shown firstProgram, same, Java.program_shown]

theorem compile_eq_iff_shown_if :
    Program.read "x = TRUE;" = .ok [.assignment "x" (.literal (.boolean true))] ∧
      Program.read "x=true;" = .ok [.assignment "x" (.reference "true")] ∧
      compile "x = TRUE;" = compile "x=true;" ∧ compile "if(a);" ≠ compile "IF a THEN END" := by
  have literal : Program.read "x = TRUE;" = .ok [.assignment "x" (.literal (.boolean true))] := by cbv
  have name : Program.read "x=true;" = .ok [.assignment "x" (.reference "true")] := by cbv
  have call : Program.read "if(a);" = .ok [.expression (.call "if" [.reference "a"])] := by cbv
  have branch : Program.read "IF a THEN END" = .ok [.conditional (.reference "a") [] []] := by cbv
  refine ⟨literal, name, (compile_eq_iff_shown literal name).mpr rfl, ?_⟩
  intro same
  cases (compile_eq_iff_shown call branch).mp same

end PlcJava
