import PlcJava.Proofs.ExpressionRecognition

/-! The parser accepts the programs of the grammar and no others. The order in which it tries
its rules does not show: a statement begins in a way that fits one rule only. -/

set_option autoImplicit false

namespace PlcJava.Grammar

open Parsing

/-- What the bodies of a conditional are made of, behind its `THEN`. -/
inductive Branches : List Token → List Statement → List Statement → Prop where
  | single {inside : List Token} {endWord : Token} {thenBody : List Statement}
      (first : Body ["END", "ELSE"] inside thenBody) (ends : endWord.literal = "END") :
      Branches (inside ++ [endWord]) thenBody []
  | double {inside others : List Token} {elseWord endWord : Token} {thenBody elseBody : List Statement}
      (first : Body ["END", "ELSE"] inside thenBody) (turns : elseWord.literal = "ELSE")
      (second : Body ["END"] others elseBody) (ends : endWord.literal = "END") :
      Branches (inside ++ elseWord :: others ++ [endWord]) thenBody elseBody

theorem Branches.cons {tokens others : List Token} {first : Statement} {thenBody elseBody : List Statement}
    (clause : Clause tokens first) (begins : ∀ token ∈ tokens.head?, token.literal ∉ ["END", "ELSE"])
    (later : Branches others thenBody elseBody) : Branches (tokens ++ others) (first :: thenBody) elseBody := by
  cases later with
  | single body ends =>
    rw [← List.append_assoc]
    exact .single (.cons clause begins body) ends
  | double body turns second ends =>
    rw [← List.append_assoc, ← List.append_assoc]
    exact .double (.cons clause begins body) turns second ends

theorem Branches.clause {keyword thenWord : Token} {tokens inside : List Token} {value : Expression}
    {thenBody elseBody : List Statement} (kind : keyword.kind = .identifier)
    (introduces : keyword.literal = "IF") (inner : Phrase 3 tokens value)
    (begins : thenWord.literal = "THEN") (bodies : Branches inside thenBody elseBody) :
    Clause (keyword :: tokens ++ thenWord :: inside) (.conditional value thenBody elseBody) := by
  cases bodies with
  | single first ends =>
    have clause := Clause.conditional kind introduces inner begins first ends
    simpa only [List.append_assoc, List.cons_append] using clause
  | double first turns second ends =>
    have clause := Clause.alternative kind introduces inner begins first turns second ends
    simpa only [List.append_assoc, List.cons_append] using clause

theorem condition_sound {keyword : String} {tokens : List Token} {value : Expression} {rest : List Token}
    (read : (condition keyword tokens).outcome = .ok (value, rest)) :
    ∃ used closing, tokens = used ++ closing :: rest ∧ Phrase 3 used value ∧ closing.literal = keyword := by
  obtain ⟨_, closing, _, found, literal, same⟩ := condition_eq_ok.mp read
  cases same
  obtain ⟨used, split, phrase⟩ := tier_sound 3 tokens found
  exact ⟨used, closing, split, phrase, literal⟩

private theorem expressionStatement_sound {tokens : List Token} {statement : Statement} {rest : List Token}
    (plain : ∀ first ∈ tokens.head?, first.kind = .identifier → first.literal ∉ keywords)
    (read : (expressionStatement tokens).reading.outcome = .ok (statement, rest)) :
    ∃ used, tokens = used ++ rest ∧ Clause used statement := by
  obtain ⟨_, semicolon, _, found, ends, same⟩ := expressionStatement_eq_ok.mp read
  cases same
  obtain ⟨used, split, phrase⟩ := tier_sound 3 tokens found
  obtain ⟨first, tail, rfl⟩ := List.exists_cons_of_ne_nil phrase.ne_nil
  subst split
  exact ⟨first :: tail ++ [semicolon], by simp, .expression phrase plain ends⟩

private theorem assignment_sound {name sign : Token} {tokens : List Token} {statement : Statement} {rest : List Token}
    (kind : name.kind = .identifier) (plain : name.literal ∉ keywords) (equals : sign.literal = "=")
    (read : (assignment name sign tokens).reading.outcome = .ok (statement, rest)) :
    ∃ used, name :: sign :: tokens = used ++ rest ∧ Clause used statement := by
  obtain ⟨_, semicolon, _, found, ends, same⟩ := assignment_eq_ok.mp read
  cases same
  obtain ⟨used, split, phrase⟩ := tier_sound 3 tokens found
  exact ⟨name :: sign :: used ++ [semicolon], by simp [split], .assignment kind plain equals phrase ends⟩

private theorem declaration_sound {keyword : Token} {tokens : List Token} {statement : Statement} {rest : List Token}
    (kind : keyword.kind = .identifier) (introduces : keyword.literal = "LET")
    (read : (declaration tokens).reading.outcome = .ok (statement, rest)) :
    ∃ used, keyword :: tokens = used ++ rest ∧ Clause used statement := by
  obtain ⟨name, colon, typeName, left, _, _, rfl, nameKind, separates, typeKind, found, same⟩ :=
    declaration_eq_ok.mp read
  cases same
  rcases initializer_eq_ok.mp found with ⟨semicolon, _, rfl, ends, same⟩ |
    ⟨sign, behind, _, semicolon, _, rfl, equals, found, ends, same⟩
  · cases same
    exact ⟨[keyword, name, colon, typeName, semicolon], rfl,
      .declaration kind introduces nameKind separates typeKind ends⟩
  · cases same
    obtain ⟨used, split, phrase⟩ := tier_sound 3 behind found
    exact ⟨keyword :: name :: colon :: typeName :: sign :: used ++ [semicolon], by simp [split],
      .initialized kind introduces nameKind separates typeKind equals phrase ends⟩

mutual
theorem statement_sound (tokens : List Token) {value : Statement} {rest : List Token}
    (read : (statement tokens).reading.outcome = .ok (value, rest)) :
    ∃ used, tokens = used ++ rest ∧ Clause used value := by
  match tokens with
  | [] =>
    rw [statement_expression (by simp) (by simp)] at read
    exact expressionStatement_sound (by simp) read
  | token :: tail =>
    cases dispatch token tail with
    | conditional kind isIf =>
      rw [statement_conditional tail kind isIf, conditional_outcome] at read
      obtain ⟨value, behind, found, read⟩ := Outcome.bind_eq_ok.mp read
      have shorter := Reading.shorter_of_outcome found
      obtain ⟨⟨thenBody, elseBody⟩, _, readBodies, same⟩ := Outcome.map_eq_ok.mp read
      cases same
      obtain ⟨used, thenWord, split, phrase, begins⟩ := condition_sound found
      obtain ⟨inside, rfl, bodies⟩ := branches_sound behind readBodies
      exact ⟨token :: used ++ thenWord :: inside, by simp [split], bodies.clause kind isIf phrase begins⟩
    | loop kind isWhile =>
      rw [statement_loop tail kind isWhile, loop_outcome] at read
      obtain ⟨value, behind, found, read⟩ := Outcome.bind_eq_ok.mp read
      have shorter := Reading.shorter_of_outcome found
      obtain ⟨body, _, readBody, same⟩ := Outcome.map_eq_ok.mp read
      cases same
      obtain ⟨used, doWord, split, phrase, begins⟩ := condition_sound found
      obtain ⟨inside, endWord, rfl, statements, ends⟩ := block_sound behind readBody
      exact ⟨token :: used ++ doWord :: inside ++ [endWord], by simp [split],
        .loop kind isWhile phrase begins statements ends⟩
    | declaration kind isLet =>
      rw [statement_declaration tail kind isLet] at read
      exact declaration_sound kind isLet read
    | assignment kind plain split equals =>
      rw [split, statement_assignment _ kind plain equals] at read
      rw [split]
      exact assignment_sound kind plain equals read
    | expression plain unassigned =>
      rw [statement_expression plain unassigned] at read
      exact expressionStatement_sound plain read
termination_by 2 * tokens.length
decreasing_by all_goals simp only [List.length_cons]; omega

private theorem branches_sound (tokens : List Token) {thenBody elseBody : List Statement} {rest : List Token}
    (read : (branches tokens).reading.outcome = .ok ((thenBody, elseBody), rest)) :
    ∃ used, tokens = used ++ rest ∧ Branches used thenBody elseBody := by
  match tokens with
  | [] =>
    rw [branches_nil] at read
    cases read
  | token :: tail =>
    by_cases isEnd : token.literal = "END"
    · rw [branches_end tail isEnd] at read
      cases read
      exact ⟨[token], rfl, .single .nil isEnd⟩
    · by_cases isElse : token.literal = "ELSE"
      · rw [branches_else tail isElse] at read
        obtain ⟨body, _, readBody, same⟩ := Outcome.map_eq_ok.mp read
        cases same
        obtain ⟨inside, endWord, rfl, statements, ends⟩ := block_sound tail readBody
        exact ⟨token :: inside ++ [endWord], by simp, .double .nil isElse statements ends⟩
      · rw [branches_cons tail isEnd isElse] at read
        obtain ⟨first, behind, found, read⟩ := Outcome.bind_eq_ok.mp read
        have shorter := Reading.shorter_of_outcome found
        obtain ⟨⟨thenBody, elseBody⟩, _, readBodies, same⟩ := Outcome.map_eq_ok.mp read
        cases same
        obtain ⟨used, split, clause⟩ := statement_sound (token :: tail) found
        obtain ⟨inside, rfl, bodies⟩ := branches_sound behind readBodies
        have begins : ∀ first ∈ used.head?, first.literal ∉ ["END", "ELSE"] :=
          begins_of_split split (by simp [isEnd, isElse])
        exact ⟨used ++ inside, by simp [split], bodies.cons clause begins⟩
termination_by 2 * tokens.length + 1
decreasing_by all_goals simp only [List.length_cons] at *; omega

private theorem block_sound (tokens : List Token) {body : List Statement} {rest : List Token}
    (read : (block tokens).reading.outcome = .ok (body, rest)) :
    ∃ inside endWord, tokens = inside ++ endWord :: rest ∧ Body ["END"] inside body ∧
      endWord.literal = "END" := by
  match tokens with
  | [] =>
    rw [block_nil] at read
    cases read
  | token :: tail =>
    by_cases isEnd : token.literal = "END"
    · rw [block_end tail isEnd] at read
      cases read
      exact ⟨[], token, rfl, .nil, isEnd⟩
    · rw [block_cons tail isEnd] at read
      obtain ⟨first, behind, found, read⟩ := Outcome.bind_eq_ok.mp read
      have shorter := Reading.shorter_of_outcome found
      obtain ⟨later, _, readLater, same⟩ := Outcome.map_eq_ok.mp read
      cases same
      obtain ⟨used, split, clause⟩ := statement_sound (token :: tail) found
      obtain ⟨inside, endWord, rfl, statements, ends⟩ := block_sound behind readLater
      have begins : ∀ first ∈ used.head?, first.literal ∉ ["END"] := begins_of_split split (by simp [isEnd])
      exact ⟨used ++ inside, endWord, by simp [split], .cons clause begins statements, ends⟩
termination_by 2 * tokens.length + 1
decreasing_by all_goals simp only [List.length_cons] at *; omega
end

/-- Every rule but that for expressions is chosen by the first two tokens. The first two tokens
of an expression choose no other rule. -/
theorem Phrase.statement_outcome {tokens : List Token} {value : Expression} (phrase : Phrase 3 tokens value)
    (plain : ∀ first ∈ tokens.head?, first.kind = .identifier → first.literal ∉ keywords)
    {semicolon : Token} (ends : semicolon.literal = ";") (rest : List Token) :
    (statement (tokens ++ semicolon :: rest)).reading.outcome = .ok (.expression value, rest) := by
  rw [statement_expression]
  · apply expressionStatement_eq_ok.mpr
    exact ⟨value, semicolon, rest, phrase.complete (.of_literal ends _), ends, rfl⟩
  · obtain ⟨first, tail, rfl, holds⟩ := phrase.begins plain
    intro token member
    cases member
    exact holds
  · intro first sign behind split kind
    refine phrase.second (fun token => token.literal ≠ "=") ?_ ?_ ?_ split kind
    · intro token opens equals
      simp [opens] at equals
    · intro token tier binds equals
      exact not_binds (by rw [equals]; decide) binds
    · intro next member equals
      cases member
      simp [ends] at equals

theorem Phrase.condition_outcome {tokens : List Token} {value : Expression} (phrase : Phrase 3 tokens value)
    {closing : Token} {keyword : String} (closes : closing.literal = keyword)
    (apart : keyword ≠ "(" ∧ rank keyword = 0) (rest : List Token) :
    (condition keyword (tokens ++ closing :: rest)).outcome = .ok (value, rest) :=
  condition_eq_ok.mpr ⟨value, closing, rest, phrase.complete (.of_literal closes rest apart), closes, rfl⟩

mutual
theorem Clause.complete {tokens : List Token} {value : Statement} (clause : Clause tokens value)
    (rest : List Token) : (statement (tokens ++ rest)).reading.outcome = .ok (value, rest) := by
  match clause with
  | .expression inner plain ends =>
    rw [List.append_assoc]
    exact inner.statement_outcome plain ends rest
  | .declaration kind introduces nameKind separates typeKind ends =>
    refine (statement_declaration _ kind introduces).trans ?_
    apply declaration_eq_ok.mpr
    refine ⟨_, _, _, _, none, rest, rfl, nameKind, separates, typeKind, ?_, rfl⟩
    exact initializer_eq_ok.mpr (.inl ⟨_, rest, rfl, ends, rfl⟩)
  | .initialized kind introduces nameKind separates typeKind equals inner ends =>
    rw [List.append_assoc]
    refine (statement_declaration _ kind introduces).trans ?_
    apply declaration_eq_ok.mpr
    refine ⟨_, _, _, _, some _, rest, rfl, nameKind, separates, typeKind, ?_, rfl⟩
    apply initializer_eq_ok.mpr
    exact .inr ⟨_, _, _, _, rest, rfl, equals, inner.complete (.of_literal ends _), ends, rfl⟩
  | .assignment kind plain equals inner ends =>
    rw [List.append_assoc]
    refine (statement_assignment _ kind plain equals).trans ?_
    apply assignment_eq_ok.mpr
    exact ⟨_, _, rest, inner.complete (.of_literal ends _), ends, rfl⟩
  | .conditional kind introduces inner begins first ends =>
    rw [List.append_assoc, List.append_assoc]
    refine (statement_conditional _ kind introduces).trans ?_
    rw [conditional_outcome]
    apply Outcome.bind_eq_ok.mpr
    refine ⟨_, _, inner.condition_outcome begins (by decide) _, ?_⟩
    apply Outcome.map_eq_ok.mpr
    exact ⟨(_, []), rest, first.branches (by simp) (by simp) (branches_end rest ends), rfl⟩
  | .alternative kind introduces inner begins first turns second ends =>
    rw [List.append_assoc, List.append_assoc, List.append_assoc]
    refine (statement_conditional _ kind introduces).trans ?_
    rw [conditional_outcome]
    apply Outcome.bind_eq_ok.mpr
    refine ⟨_, _, inner.condition_outcome begins (by decide) _, ?_⟩
    have turned := (branches_else _ turns).trans
      (Outcome.map_eq_ok.mpr ⟨_, rest, second.block (by simp) ends rest, rfl⟩)
    apply Outcome.map_eq_ok.mpr
    exact ⟨(_, _), rest, first.branches (by simp) (by simp) turned, rfl⟩
  | .loop kind introduces inner begins first ends =>
    rw [List.append_assoc, List.append_assoc]
    refine (statement_loop _ kind introduces).trans ?_
    rw [loop_outcome]
    apply Outcome.bind_eq_ok.mpr
    refine ⟨_, _, inner.condition_outcome begins (by decide) _, ?_⟩
    apply Outcome.map_eq_ok.mpr
    exact ⟨_, rest, first.block (by simp) ends rest, rfl⟩

private theorem Body.block {stops : List String} {tokens : List Token} {statements : List Statement}
    (body : Body stops tokens statements) (stop : "END" ∈ stops) {endWord : Token}
    (ends : endWord.literal = "END") (rest : List Token) :
    (block (tokens ++ endWord :: rest)).reading.outcome = .ok (statements, rest) := by
  match body with
  | .nil => exact block_end rest ends
  | .cons first begins later =>
    obtain ⟨token, tail, rfl⟩ := List.exists_cons_of_ne_nil first.ne_nil
    have other : token.literal ≠ "END" := fun same => begins token rfl (same ▸ stop)
    rw [List.append_assoc, List.cons_append, block_cons _ other]
    apply Outcome.bind_eq_ok.mpr
    refine ⟨_, _, first.complete _, ?_⟩
    exact Outcome.map_eq_ok.mpr ⟨_, rest, later.block stop ends rest, rfl⟩

private theorem Body.branches {stops : List String} {tokens : List Token} {statements elseBody : List Statement}
    (body : Body stops tokens statements) (stop : "END" ∈ stops) (turn : "ELSE" ∈ stops)
    {left rest : List Token} (ends : (Parsing.branches left).reading.outcome = .ok (([], elseBody), rest)) :
    (Parsing.branches (tokens ++ left)).reading.outcome = .ok ((statements, elseBody), rest) := by
  match body with
  | .nil => exact ends
  | .cons first begins later =>
    obtain ⟨token, tail, rfl⟩ := List.exists_cons_of_ne_nil first.ne_nil
    have notEnd : token.literal ≠ "END" := fun same => begins token rfl (same ▸ stop)
    have notElse : token.literal ≠ "ELSE" := fun same => begins token rfl (same ▸ turn)
    rw [List.append_assoc, List.cons_append, branches_cons _ notEnd notElse]
    apply Outcome.bind_eq_ok.mpr
    refine ⟨_, _, first.complete _, ?_⟩
    exact Outcome.map_eq_ok.mpr ⟨(_, elseBody), rest, later.branches stop turn ends, rfl⟩
end

private theorem pass_result (token : Token) (tail : List Token) :
    (pass (token :: tail)).result =
      match (statement (token :: tail)).reading.outcome with
      | .ok (value, rest) => (pass rest).result.map (value :: ·)
      | .error (fault, _) => .error fault := by
  rw [Parsing.pass]
  cases (statement (token :: tail)).reading <;> rfl

theorem pass_sound (tokens : List Token) {program : Program} (read : (pass tokens).result = .ok program) :
    Body [] tokens program := by
  match tokens with
  | [] =>
    rw [Parsing.pass] at read
    cases read
    exact .nil
  | token :: tail =>
    rw [pass_result] at read
    split at read
    next value rest found =>
      have shorter := Reading.shorter_of_outcome found
      obtain ⟨used, split, clause⟩ := statement_sound (token :: tail) found
      cases later : (pass rest).result with
      | error fault =>
        rw [later] at read
        cases read
      | ok others =>
        rw [later] at read
        cases read
        rw [split]
        exact .cons clause (by simp) (pass_sound rest later)
    next => cases read
termination_by tokens.length
decreasing_by exact shorter

theorem Body.pass_result {stops : List String} {tokens : List Token} {program : Program}
    (body : Body stops tokens program) : (pass tokens).result = .ok program := by
  match body with
  | .nil =>
    rw [Parsing.pass]
  | .cons first _ later =>
    have shorter := List.length_pos_iff.mpr first.ne_nil
    have laterResult := later.pass_result
    obtain ⟨token, tail, rfl⟩ := List.exists_cons_of_ne_nil first.ne_nil
    rw [List.cons_append, Grammar.pass_result, ← List.cons_append, first.complete]
    simp only [laterResult]
    rfl
termination_by tokens.length
decreasing_by
  rw [List.length_append]
  omega

theorem parse_eq_ok {tokens : List Token} {program : Program} :
    parse tokens = .ok program ↔ (pass tokens).result = .ok program := by
  have answered : parse tokens = (pass tokens).answer tokens.length := rfl
  rw [answered, Pass.answer, Outcome.mapError_eq_ok]

/-- Tokens form a program exactly when the grammar derives it from them. -/
theorem parse_iff_derives (tokens : List Token) (program : Program) :
    parse tokens = .ok program ↔ Body [] tokens program :=
  ⟨fun read => pass_sound tokens (parse_eq_ok.mp read), fun body => parse_eq_ok.mpr body.pass_result⟩

end PlcJava.Grammar
