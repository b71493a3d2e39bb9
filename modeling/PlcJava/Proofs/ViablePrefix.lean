import Mathlib
import PlcJava.Proofs.Lookahead
import PlcJava.Proofs.ProgramRecognition

/-! Where an error stands. The tokens before the place of an error could still become a
program, and with the token at that place they no longer can. The first part is shown rule by
rule, by completing what a rule has read; the second because no rule looks further. -/

set_option autoImplicit false

namespace PlcJava

namespace Grammar

open Parsing

/-- A name, with which every phrase can be completed. -/
def placeholder : Token := .ofName "x"

private theorem Phrase.placeholder (level : Nat) : Phrase level [placeholder] (.reference "x") :=
  Phrase.mono (Nat.zero_le level) (.reference rfl (by decide) (by decide))

/-- The tokens go wrong inside a phrase of the given form: those before the first one that does
not fit can be completed. Where there are none, the completion begins with a name. -/
def Breaks (form : List Token → Prop) (tokens : List Token) (result : Fault × List Token) : Prop :=
  ∃ seen behind more, tokens = seen ++ behind ∧ behind.length + result.1.window = result.2.length + 1 ∧
    form (seen ++ more) ∧ (seen = [] → more.head? = some Grammar.placeholder)

namespace Breaks

variable {form whole : List Token → Prop} {tokens rest : List Token} {fault : Fault}
  {result : Fault × List Token}

private theorem first (plain : fault.window = 1) (more : List Token) (complete : form (placeholder :: more)) :
    Breaks form tokens (fault, tokens) :=
  ⟨[], tokens, placeholder :: more, rfl, by rw [plain], complete, fun _ => rfl⟩

private theorem malformed (number : Token) (complete : form [placeholder]) :
    Breaks form (number :: rest) (.malformedNumber, rest) :=
  ⟨[], number :: rest, [placeholder], rfl, rfl, complete, fun _ => rfl⟩

private theorem missing (used : List Token) (plain : fault.window = 1) (nonempty : used ≠ []) (more : List Token)
    (complete : form (used ++ more)) : Breaks form (used ++ rest) (fault, rest) :=
  ⟨used, rest, more, rfl, by rw [plain], complete, fun empty => absurd empty nonempty⟩

/-- The completion begins as the tokens do that it completes, or with a name. -/
def Begins (inner tokens : List Token) : Prop :=
  ∀ property : Token → Prop, (∀ first ∈ tokens.head?, property first) → property placeholder →
    ∀ first ∈ inner.head?, property first

private theorem within (before : List Token) (broken : Breaks form tokens result)
    (fill : ∀ inner, form inner → Begins inner tokens → ∃ after, whole (before ++ (inner ++ after))) :
    Breaks whole (before ++ tokens) result := by
  obtain ⟨seen, behind, more, rfl, place, complete, fresh⟩ := broken
  have begins : Begins (seen ++ more) (seen ++ behind) := by
    intro property actual name first member
    cases seen with
    | nil =>
      rw [List.nil_append, fresh rfl] at member
      cases member
      exact name
    | cons head tail => exact actual first member
  obtain ⟨after, filled⟩ := fill (seen ++ more) complete begins
  refine ⟨before ++ seen, behind, more ++ after, by rw [List.append_assoc], place, ?_, ?_⟩
  · rwa [List.append_assoc, ← List.append_assoc seen]
  · intro empty
    have none := (List.append_eq_nil_iff.mp empty).2
    rw [List.head?_append, fresh none]
    rfl

end Breaks

mutual
private theorem tier_breaks (level : Nat) (tokens : List Token) {result : Fault × List Token}
    (failed : (tier level tokens).outcome = .error result) :
    Breaks (fun tokens => ∃ value, Phrase level tokens value) tokens result := by
  match level, tokens with
  | 0, [] =>
    rw [primary_nil] at failed
    cases failed
    exact .first rfl [] ⟨_, .placeholder 0⟩
  | 0, token :: tail =>
    cases kind : token.kind with
    | integer =>
      rw [primary_integer tail kind] at failed
      split at failed
      next => cases failed
      next => cases failed; exact .malformed token ⟨_, .placeholder 0⟩
    | decimal =>
      rw [primary_decimal tail kind] at failed
      split at failed
      next => cases failed
      next => cases failed; exact .malformed token ⟨_, .placeholder 0⟩
    | string =>
      rw [primary_string tail kind] at failed
      cases failed
    | identifier =>
      by_cases closed : ∀ next ∈ tail.head?, next.literal ≠ "("
      · rw [primary_name kind closed] at failed
        cases failed
      · match tail with
        | [] => simp at closed
        | opening :: tail =>
          have opens : opening.literal = "(" := by simpa using closed
          rw [primary_call tail kind opens, Outcome.map_eq_error] at failed
          refine (arguments_breaks tail failed).within [token, opening] fun inner form _ => ?_
          obtain ⟨values, arguments⟩ := form
          exact ⟨[], _, by simpa using .call kind opens arguments⟩
    | operator =>
      by_cases opens : token.literal = "("
      · rw [primary_group tail kind opens, Outcome.bind_eq_error] at failed
        rcases failed with failed | ⟨value, rest, read, failed⟩
        · refine (tier_breaks 3 tail failed).within [token] fun inner form _ => ?_
          obtain ⟨value, phrase⟩ := form
          exact ⟨[.ofSign ")"], _, .group kind opens phrase rfl⟩
        · cases expect_eq_error (Outcome.map_eq_error.mp failed)
          obtain ⟨used, rfl, phrase⟩ := tier_sound 3 tail read
          exact .missing (token :: used) rfl (by simp) [.ofSign ")"] ⟨_, .group kind opens phrase rfl⟩
      · rw [primary_operator tail kind opens] at failed
        cases failed
        exact .first rfl [] ⟨_, .placeholder 0⟩
  | level + 1, tokens =>
    rw [tier_succ, Outcome.bind_eq_error] at failed
    rcases failed with failed | ⟨left, rest, read, failed⟩
    · refine (tier_breaks level tokens failed).within [] fun inner form _ => ?_
      obtain ⟨value, phrase⟩ := form
      exact ⟨[], _, by simpa using .lift phrase⟩
    · have shorter := Reading.shorter_of_outcome read
      obtain ⟨before, split, first⟩ := tier_sound level tokens read
      match rest with
      | [] => cases failed
      | sign :: rest =>
        dsimp only [operation] at failed
        split at failed
        next binds =>
          have broken := tier_breaks level rest (Outcome.map_eq_error.mp failed)
          rw [split, List.append_cons]
          refine broken.within (before ++ [sign]) fun inner form _ => ?_
          obtain ⟨right, second⟩ := form
          exact ⟨[], _, by simpa using .binary first (binds_iff.mpr binds) second⟩
        next => cases failed
termination_by 5 * tokens.length + level
decreasing_by all_goals simp only [List.length_cons] at *; omega

private theorem arguments_breaks (tokens : List Token) {result : Fault × List Token}
    (failed : (arguments tokens).outcome = .error result) :
    Breaks (fun tokens => ∃ values, Arguments tokens values) tokens result := by
  have last : Arguments [placeholder, .ofSign ")"] _ := .last (.placeholder 3) (by simp [placeholder, Token.ofName]) rfl
  match tokens with
  | [] =>
    rw [arguments_nil] at failed
    cases failed
    exact .first rfl [.ofSign ")"] ⟨_, last⟩
  | token :: tail =>
    by_cases closes : token.literal = ")"
    · rw [arguments_close tail closes] at failed
      cases failed
    · rw [arguments_cons tail closes, Outcome.bind_eq_error] at failed
      rcases failed with failed | ⟨argument, rest, read, failed⟩
      · refine (tier_breaks 3 (token :: tail) failed).within [] fun inner form begins => ?_
        obtain ⟨value, phrase⟩ := form
        have opens := begins (·.literal ≠ ")") (by simpa using closes) (by decide)
        exact ⟨[.ofSign ")"], _, .last phrase opens rfl⟩
      · have shorter := Reading.shorter_of_outcome read
        obtain ⟨used, split, phrase⟩ := tier_sound 3 (token :: tail) read
        have opens : ∀ first ∈ used.head?, first.literal ≠ ")" := begins_of_split split closes
        rw [split]
        match rest with
        | [] =>
          cases failed
          exact .missing used rfl phrase.ne_nil [.ofSign ")"] ⟨_, .last phrase opens rfl⟩
        | comma :: rest =>
          dsimp only [continuation] at failed
          split at failed
          next separates =>
            rw [List.append_cons]
            split at failed
            next =>
              cases failed
              refine ⟨used ++ [comma], rest, [placeholder, .ofSign ")"], rfl, rfl, ⟨[argument, .reference "x"], ?_⟩,
                by simp⟩
              rw [← List.append_cons]
              exact .more phrase opens separates (by simp [placeholder, Token.ofName]) last
            next follows =>
              have broken := arguments_breaks rest (Outcome.map_eq_error.mp failed)
              refine broken.within (used ++ [comma]) fun inner form begins => ?_
              obtain ⟨values, later⟩ := form
              have plain := begins (·.kind ≠ .operator) (fun next head operator => ?_) (by decide)
              · refine ⟨[], argument :: values, ?_⟩
                rw [List.append_nil, ← List.append_cons]
                exact .more phrase opens separates plain later
              · exact follows (by rw [Option.mem_def.mp head]; simpa using operator)
          next =>
            split at failed
            next => cases failed
            next =>
              cases failed
              exact .missing used rfl phrase.ne_nil [.ofSign ")"] ⟨_, .last phrase opens rfl⟩
termination_by 5 * tokens.length + 4
decreasing_by all_goals simp only [List.length_cons] at *; omega
end

/-! Statements. -/

def Enclosed (literal : String) (tokens : List Token) : Prop :=
  ∃ inner value, Phrase 3 inner value ∧ tokens = inner ++ [.ofSign literal]

private theorem closed_breaks {α : Type} {literal : String} {fault : Fault} (plain : fault.window = 1)
    {f : Expression → α} {tokens : List Token} {result : Fault × List Token}
    (failed : ((expression tokens).andThen fun value rest =>
      (expect literal fault rest).map fun _ => f value).outcome = .error result) :
    Breaks (Enclosed literal) tokens result := by
  simp only [Reading.outcome_andThen, Reading.outcome_map, Outcome.bind_eq_error, Outcome.map_eq_error,
    expression] at failed
  rcases failed with failed | ⟨value, rest, read, failed⟩
  · refine (tier_breaks 3 tokens failed).within [] fun inner form _ => ?_
    obtain ⟨value, phrase⟩ := form
    exact ⟨[.ofSign literal], inner, value, phrase, rfl⟩
  · cases expect_eq_error failed
    obtain ⟨used, rfl, phrase⟩ := tier_sound 3 tokens read
    exact .missing used plain phrase.ne_nil [.ofSign literal] ⟨used, value, phrase, rfl⟩

def IsClause (tokens : List Token) : Prop := ∃ value, Clause tokens value

private theorem expressionStatement_breaks {tokens : List Token} {result : Fault × List Token}
    (plain : ∀ first ∈ tokens.head?, first.kind = .identifier → first.literal ∉ keywords)
    (failed : (expressionStatement tokens).reading.outcome = .error result) : Breaks IsClause tokens result := by
  refine (closed_breaks rfl failed).within [] fun inner form begins => ?_
  obtain ⟨used, value, phrase, rfl⟩ := form
  refine ⟨[], .expression value, ?_⟩
  rw [List.append_nil, List.nil_append]
  refine .expression phrase (fun first member => ?_) rfl
  refine begins (fun token => token.kind = .identifier → token.literal ∉ keywords) plain (by decide) first ?_
  rw [List.head?_append, Option.mem_def.mp member]
  rfl

private theorem assignment_breaks {name sign : Token} {tokens : List Token} {result : Fault × List Token}
    (kind : name.kind = .identifier) (plain : name.literal ∉ keywords) (equals : sign.literal = "=")
    (failed : (assignment name sign tokens).reading.outcome = .error result) :
    Breaks IsClause (name :: sign :: tokens) result := by
  simp only [assignment, Traced.reading_simple, Reading.outcome_behind] at failed
  refine (closed_breaks rfl failed).within [name, sign] fun inner form _ => ?_
  obtain ⟨used, value, phrase, rfl⟩ := form
  exact ⟨[], _, by simpa using .assignment kind plain equals phrase rfl⟩

private theorem initializer_eq_error {tokens : List Token} {result : Fault × List Token}
    (failed : (initializer tokens).outcome = .error result) :
    result = (.missingSemicolon, tokens) ∨
      ∃ sign rest, tokens = sign :: rest ∧ sign.literal = "=" ∧ Breaks (Enclosed ";") rest result := by
  cases tokens with
  | nil =>
    cases failed
    exact .inl rfl
  | cons token rest =>
    rw [initializer] at failed
    split at failed
    next equals =>
      rw [Reading.outcome_behind] at failed
      exact .inr ⟨token, rest, rfl, equals, closed_breaks rfl failed⟩
    next =>
      rw [Reading.outcome_map, Outcome.map_eq_error] at failed
      exact .inl (expect_eq_error failed)

private theorem declaration_breaks {keyword : Token} {tokens : List Token} {result : Fault × List Token}
    (kind : keyword.kind = .identifier) (introduces : keyword.literal = "LET")
    (failed : (declaration tokens).reading.outcome = .error result) : Breaks IsClause (keyword :: tokens) result := by
  rw [declaration_outcome, Outcome.bind_eq_error] at failed
  rcases failed with failed | ⟨_, rest, named, behindName⟩
  · cases expectIdentifier_eq_error failed
    exact .missing [keyword] rfl (by simp) [placeholder, .ofSign ":", placeholder, .ofSign ";"]
      ⟨_, .declaration kind introduces rfl rfl rfl rfl⟩
  obtain ⟨name, nameKind, rfl, rfl⟩ := expectIdentifier_eq_ok.mp named
  rcases Outcome.bind_eq_error.mp behindName with failed | ⟨_, rest, separated, behindColon⟩
  · cases expect_eq_error failed
    exact .missing [keyword, name] rfl (by simp) [.ofSign ":", placeholder, .ofSign ";"]
      ⟨_, .declaration kind introduces nameKind rfl rfl rfl⟩
  obtain ⟨colon, separates, rfl⟩ := expect_eq_ok.mp separated
  rcases Outcome.bind_eq_error.mp behindColon with failed | ⟨_, rest, typed, behindType⟩
  · cases expectIdentifier_eq_error failed
    exact .missing [keyword, name, colon] rfl (by simp) [placeholder, .ofSign ";"]
      ⟨_, .declaration kind introduces nameKind separates rfl rfl⟩
  obtain ⟨typeName, typeKind, rfl, rfl⟩ := expectIdentifier_eq_ok.mp typed
  rcases initializer_eq_error (Outcome.map_eq_error.mp behindType) with rfl | ⟨sign, left, rfl, equals, broken⟩
  · exact .missing [keyword, name, colon, typeName] rfl (by simp) [.ofSign ";"]
      ⟨_, .declaration kind introduces nameKind separates typeKind rfl⟩
  · refine broken.within [keyword, name, colon, typeName, sign] fun inner form _ => ?_
    obtain ⟨used, value, phrase, rfl⟩ := form
    exact ⟨[], _, by simpa using .initialized kind introduces nameKind separates typeKind equals phrase rfl⟩

def IsBlock (tokens : List Token) : Prop :=
  ∃ inside body, Body ["END"] inside body ∧ tokens = inside ++ [.ofSign "END"]

def IsBranches (tokens : List Token) : Prop := ∃ thenBody elseBody, Branches tokens thenBody elseBody

private theorem Clause.placeholder : Clause [placeholder, .ofSign ";"] (.expression (.reference "x")) :=
  .expression (.placeholder 3) (by simp [Grammar.placeholder, Token.ofName, keywords]) rfl

mutual
private theorem statement_breaks (tokens : List Token) {result : Fault × List Token}
    (failed : (statement tokens).reading.outcome = .error result) : Breaks IsClause tokens result := by
  match tokens with
  | [] =>
    rw [statement_expression (by simp) (by simp)] at failed
    exact expressionStatement_breaks (by simp) failed
  | token :: tail =>
    cases dispatch token tail with
    | conditional kind isIf =>
      rw [statement_conditional tail kind isIf, conditional_outcome, Outcome.bind_eq_error] at failed
      rcases failed with failed | ⟨value, rest, read, failed⟩
      · refine (closed_breaks rfl failed).within [token] fun inner form _ => ?_
        obtain ⟨used, value, phrase, rfl⟩ := form
        refine ⟨[.ofSign "END"], .conditional value [] [], ?_⟩
        simpa using (Branches.single .nil rfl).clause kind isIf phrase rfl
      · have shorter := Reading.shorter_of_outcome read
        obtain ⟨used, thenWord, split, phrase, begins⟩ := condition_sound read
        have broken := branches_breaks rest (Outcome.map_eq_error.mp failed)
        rw [split, List.append_cons]
        refine broken.within (token :: (used ++ [thenWord])) fun inner form _ => ?_
        obtain ⟨thenBody, elseBody, bodies⟩ := form
        refine ⟨[], .conditional value thenBody elseBody, ?_⟩
        simpa using bodies.clause kind isIf phrase begins
    | loop kind isWhile =>
      rw [statement_loop tail kind isWhile, loop_outcome, Outcome.bind_eq_error] at failed
      rcases failed with failed | ⟨value, rest, read, failed⟩
      · refine (closed_breaks rfl failed).within [token] fun inner form _ => ?_
        obtain ⟨used, value, phrase, rfl⟩ := form
        refine ⟨[.ofSign "END"], .loop value [], ?_⟩
        simpa using Clause.loop kind isWhile phrase rfl .nil rfl
      · have shorter := Reading.shorter_of_outcome read
        obtain ⟨used, doWord, split, phrase, begins⟩ := condition_sound read
        have broken := block_breaks rest (Outcome.map_eq_error.mp failed)
        rw [split, List.append_cons]
        refine broken.within (token :: (used ++ [doWord])) fun inner form _ => ?_
        obtain ⟨inside, body, statements, rfl⟩ := form
        refine ⟨[], .loop value body, ?_⟩
        simpa using Clause.loop kind isWhile phrase begins statements rfl
    | declaration kind isLet =>
      rw [statement_declaration tail kind isLet] at failed
      exact declaration_breaks kind isLet failed
    | assignment kind plain split equals =>
      rw [split, statement_assignment _ kind plain equals] at failed
      rw [split]
      exact assignment_breaks kind plain equals failed
    | expression plain unassigned =>
      rw [statement_expression plain unassigned] at failed
      exact expressionStatement_breaks plain failed
termination_by 2 * tokens.length
decreasing_by all_goals simp only [List.length_cons]; omega

private theorem branches_breaks (tokens : List Token) {result : Fault × List Token}
    (failed : (branches tokens).reading.outcome = .error result) : Breaks IsBranches tokens result := by
  match tokens with
  | [] =>
    rw [branches_nil] at failed
    cases failed
    -- `END` alone would do, but a completion of nothing begins with a name, as callers need.
    refine .first rfl [.ofSign ";", .ofSign "END"] ⟨[.expression (.reference "x")], [], ?_⟩
    exact (Branches.single .nil rfl).cons .placeholder (by simp [placeholder, Token.ofName])
  | token :: tail =>
    by_cases isEnd : token.literal = "END"
    · rw [branches_end tail isEnd] at failed
      cases failed
    · by_cases isElse : token.literal = "ELSE"
      · rw [branches_else tail isElse] at failed
        refine (block_breaks tail (Outcome.map_eq_error.mp failed)).within [token] fun inner form _ => ?_
        obtain ⟨inside, body, statements, rfl⟩ := form
        exact ⟨[], [], body, by simpa using Branches.double .nil isElse statements rfl⟩
      · rw [branches_cons tail isEnd isElse, Outcome.bind_eq_error] at failed
        rcases failed with failed | ⟨first, rest, read, failed⟩
        · refine (statement_breaks (token :: tail) failed).within [] fun inner form begins => ?_
          obtain ⟨value, clause⟩ := form
          have opens := begins (·.literal ∉ ["END", "ELSE"]) (by simpa using ⟨isEnd, isElse⟩) (by decide)
          have bodies : Branches (inner ++ [.ofSign "END"]) [value] [] := .cons clause opens (.single .nil rfl)
          exact ⟨[.ofSign "END"], [value], [], bodies⟩
        · have shorter := Reading.shorter_of_outcome read
          obtain ⟨used, split, clause⟩ := statement_sound (token :: tail) read
          have opens : ∀ first ∈ used.head?, first.literal ∉ ["END", "ELSE"] :=
            begins_of_split split (by simp [isEnd, isElse])
          rw [split]
          refine (branches_breaks rest (Outcome.map_eq_error.mp failed)).within used fun inner form _ => ?_
          obtain ⟨thenBody, elseBody, bodies⟩ := form
          exact ⟨[], _, elseBody, by simpa using bodies.cons clause opens⟩
termination_by 2 * tokens.length + 1
decreasing_by all_goals simp only [List.length_cons] at *; omega

private theorem block_breaks (tokens : List Token) {result : Fault × List Token}
    (failed : (block tokens).reading.outcome = .error result) : Breaks IsBlock tokens result := by
  match tokens with
  | [] =>
    rw [block_nil] at failed
    cases failed
    exact .first rfl [.ofSign ";", .ofSign "END"]
      ⟨_, _, .cons .placeholder (by simp [placeholder, Token.ofName]) .nil, rfl⟩
  | token :: tail =>
    by_cases isEnd : token.literal = "END"
    · rw [block_end tail isEnd] at failed
      cases failed
    · rw [block_cons tail isEnd, Outcome.bind_eq_error] at failed
      rcases failed with failed | ⟨first, rest, read, failed⟩
      · refine (statement_breaks (token :: tail) failed).within [] fun inner form begins => ?_
        obtain ⟨value, clause⟩ := form
        have opens := begins (·.literal ∉ ["END"]) (by simpa using isEnd) (by decide)
        have body : Body ["END"] (inner ++ []) [value] := .cons clause opens .nil
        exact ⟨[.ofSign "END"], inner, [value], by rwa [List.append_nil] at body, rfl⟩
      · have shorter := Reading.shorter_of_outcome read
        obtain ⟨used, split, clause⟩ := statement_sound (token :: tail) read
        have opens : ∀ first ∈ used.head?, first.literal ∉ ["END"] := begins_of_split split (by simp [isEnd])
        rw [split]
        refine (block_breaks rest (Outcome.map_eq_error.mp failed)).within used fun inner form _ => ?_
        obtain ⟨inside, body, statements, rfl⟩ := form
        exact ⟨[], used ++ inside, first :: body, .cons clause opens statements, by simp⟩
termination_by 2 * tokens.length + 1
decreasing_by all_goals simp only [List.length_cons] at *; omega
end

theorem pass_breaks (tokens : List Token) {result : Fault × List Token}
    (failed : (Parsing.pass tokens).outcome = .error result) :
    Breaks (fun tokens => ∃ program, Body [] tokens program) tokens result := by
  match tokens with
  | [] =>
    rw [pass_nil] at failed
    cases failed
  | token :: tail =>
    rw [pass_cons, Outcome.bind_eq_error] at failed
    rcases failed with failed | ⟨first, rest, read, failed⟩
    · refine (statement_breaks (token :: tail) failed).within [] fun inner form _ => ?_
      obtain ⟨value, clause⟩ := form
      have body : Body [] (inner ++ []) [value] := .cons clause (by simp) .nil
      exact ⟨[], [value], body⟩
    · have shorter := Reading.shorter_of_outcome read
      obtain ⟨used, split, clause⟩ := statement_sound (token :: tail) read
      rw [split]
      refine (pass_breaks rest (Outcome.map_eq_error.mp failed)).within used fun inner form _ => ?_
      obtain ⟨later, body⟩ := form
      exact ⟨[], first :: later, by simpa using Body.cons clause (by simp) body⟩
termination_by tokens.length
decreasing_by exact shorter

end Grammar

/-- Tokens that more tokens can make a program. -/
def Viable (tokens : List Token) : Prop := ∃ more program, parse (tokens ++ more) = .ok program

/-- How many tokens stand before the first that does not fit. A comma is reported in place of
the token behind it, and a malformed number by the place behind it. -/
def ParseError.fitting (error : ParseError) : Nat :=
  match error.fault with
  | .trailingComma => error.index + 1
  | .malformedNumber => error.index - 1
  | _ => error.index

/-- The first token that does not fit is the last one that was looked at. -/
theorem ParseError.fitting_eq (error : ParseError) (looks : 0 < error.index + error.fault.window) :
    error.fitting + 1 = error.index + error.fault.window := by
  cases fault : error.fault with
  | malformedNumber =>
    rw [fault] at looks
    simp only [fitting, fault, Fault.window] at looks ⊢
    omega
  | _ => simp only [fitting, fault, Fault.window]

/-- A parse error points at the first token with which the tokens before it can no longer
become a program. -/
theorem parse_error_viable {tokens : List Token} {error : ParseError} (failed : parse tokens = .error error) :
    Viable (tokens.take error.fitting) ∧
      (error.fitting < tokens.length → ¬ Viable (tokens.take (error.fitting + 1))) := by
  obtain ⟨settles, answer⟩ := parse_eq_error failed
  obtain ⟨seen, behind, more, split, place, ⟨program, body⟩, _⟩ := Grammar.pass_breaks tokens answer
  have inside := settles.inside
  have size := congrArg List.length split
  simp only [List.length_append, List.length_drop] at size place
  have reach := error.fitting_eq (by omega)
  constructor
  · have fits : tokens.take error.fitting = seen := by
      rw [split]
      exact List.take_left' (by omega)
    rw [fits]
    exact ⟨more, program, Grammar.parse_eq_ok.mpr body.pass_result⟩
  · intro within viable
    obtain ⟨more, program, read⟩ := viable
    rw [reach] at read
    have again := parse_error_again failed (Alike.take_append (by omega) more)
    rw [again] at read
    cases read

theorem parse_error_viable_comma :
    parse [⟨.identifier, "f", 0⟩, ⟨.operator, "(", 1⟩, ⟨.identifier, "a", 2⟩, ⟨.operator, ",", 3⟩,
        ⟨.operator, ")", 4⟩] = .error ⟨.trailingComma, 3⟩ ∧
      Viable [⟨.identifier, "f", 0⟩, ⟨.operator, "(", 1⟩, ⟨.identifier, "a", 2⟩, ⟨.operator, ",", 3⟩] ∧
      ¬ Viable [⟨.identifier, "f", 0⟩, ⟨.operator, "(", 1⟩, ⟨.identifier, "a", 2⟩, ⟨.operator, ",", 3⟩,
        ⟨.operator, ")", 4⟩] := by
  have failed : parse [⟨.identifier, "f", 0⟩, ⟨.operator, "(", 1⟩, ⟨.identifier, "a", 2⟩, ⟨.operator, ",", 3⟩,
      ⟨.operator, ")", 4⟩] = .error ⟨.trailingComma, 3⟩ := by
    cbv
  obtain ⟨viable, hopeless⟩ := parse_error_viable failed
  exact ⟨failed, viable, hopeless (by decide)⟩

end PlcJava
