import Mathlib
import PlcJava.Proofs.Lookahead

/-! What stands at the place of a parse error. A fault says something about the token at its place and its
neighbours, counted from that place, so what it says of the tokens a rule was given stays true of all
tokens, with those read before in front. Each rule is shown to report no fault that does not hold there. -/

set_option autoImplicit false

namespace PlcJava

def StandsAt (tokens : List Token) (place : Nat) (property : Token → Prop) : Prop :=
  ∃ token ∈ tokens[place]?, property token

def StandsBefore (count : Nat) (tokens : List Token) (place : Nat) (property : Token → Prop) : Prop :=
  count ≤ place ∧ StandsAt tokens (place - count) property

def Token.IsLet (token : Token) : Prop := token.kind = .identifier ∧ token.literal = "LET"

/-- A number token whose text is no number. -/
def Token.Malformed (token : Token) : Prop :=
  (token.kind = .integer ∧ Integer.read? token.literal = none) ∨
    (token.kind = .decimal ∧ Decimal.read? token.literal = none)

/-- What a fault says about the tokens around its place. -/
def Fault.Shows (tokens : List Token) (place : Nat) : Fault → Prop
  | .missingSemicolon => ¬ StandsAt tokens place (·.literal = ";")
  | .missingName => ¬ StandsAt tokens place (·.kind = .identifier) ∧ StandsBefore 1 tokens place Token.IsLet
  | .missingColon =>
    ¬ StandsAt tokens place (·.literal = ":") ∧ StandsBefore 1 tokens place (·.kind = .identifier) ∧
      StandsBefore 2 tokens place Token.IsLet
  | .missingTypeName =>
    ¬ StandsAt tokens place (·.kind = .identifier) ∧ StandsBefore 1 tokens place (·.literal = ":")
  | .missingKeyword word =>
    word ∈ ["THEN", "DO", "END"] ∧ ¬ StandsAt tokens place (·.literal = word) ∧ (word = "END" → place = tokens.length)
  | .unclosedGroup => ¬ StandsAt tokens place (·.literal = ")")
  | .trailingComma =>
    StandsAt tokens place (·.literal = ",") ∧ StandsAt tokens (place + 1) (·.kind = .operator)
  | .invalidArgument => ¬ StandsAt tokens place fun token => token.literal = "," ∨ token.literal = ")"
  | .expectedExpression => StandsAt tokens place fun token => token.kind = .operator ∧ token.literal ≠ "("
  | .unexpectedEnd => place = tokens.length
  | .malformedNumber => StandsBefore 1 tokens place Token.Malformed

section places

variable {tokens : List Token} {place : Nat} {property : Token → Prop}

@[simp]
theorem standsAt_cons_zero {token : Token} : StandsAt (token :: tokens) 0 property ↔ property token := by
  simp [StandsAt]

@[simp]
theorem not_standsAt_nil : ¬ StandsAt [] place property := by
  simp [StandsAt]

@[simp]
theorem standsAt_append (before : List Token) :
    StandsAt (before ++ tokens) (before.length + place) property ↔ StandsAt tokens place property := by
  rw [StandsAt, List.getElem?_append_right (Nat.le_add_right _ _), Nat.add_sub_cancel_left, StandsAt]

private theorem StandsBefore.append {count : Nat} (before : List Token)
    (stands : StandsBefore count tokens place property) :
    StandsBefore count (before ++ tokens) (before.length + place) property := by
  obtain ⟨least, here⟩ := stands
  refine ⟨Nat.le_add_left_of_le least, ?_⟩
  rwa [Nat.add_sub_assoc least, standsAt_append]

private theorem Fault.Shows.append {fault : Fault} (before : List Token) (shown : fault.Shows tokens place) :
    fault.Shows (before ++ tokens) (before.length + place) := by
  have further : place = tokens.length → before.length + place = (before ++ tokens).length := by
    rintro rfl
    exact List.length_append.symm
  cases fault with
  | missingSemicolon | unclosedGroup | invalidArgument | expectedExpression =>
    simpa only [Shows, standsAt_append] using shown
  | trailingComma => simpa only [Shows, standsAt_append, Nat.add_assoc] using shown
  | missingName | missingTypeName =>
    obtain ⟨missing, behind⟩ := shown
    exact ⟨by rwa [standsAt_append], behind.append before⟩
  | missingColon =>
    obtain ⟨missing, name, keyword⟩ := shown
    exact ⟨by rwa [standsAt_append], name.append before, keyword.append before⟩
  | missingKeyword word =>
    obtain ⟨known, missing, last⟩ := shown
    exact ⟨known, by rwa [standsAt_append], fun isEnd => further (last isEnd)⟩
  | unexpectedEnd => exact further shown
  | malformedNumber => exact StandsBefore.append before shown

end places

/-- A rule ends inside the tokens it was given. Where it fails, its fault says what stands there. -/
def Accounts {α : Type} (tokens : List Token) : Outcome α → Prop
  | .ok (_, rest) => rest <:+ tokens
  | .error (fault, rest) => ∃ seen, tokens = seen ++ rest ∧ fault.Shows tokens seen.length

namespace Accounts

variable {α β : Type} {tokens rest : List Token} {outcome : Outcome α}

private theorem append (before : List Token) (accounts : Accounts tokens outcome) :
    Accounts (before ++ tokens) outcome := by
  match outcome with
  | .ok (_, rest) => exact List.suffix_append_of_suffix accounts
  | .error (fault, rest) =>
    obtain ⟨seen, rfl, shown⟩ := accounts
    refine ⟨before ++ seen, (List.append_assoc before seen rest).symm, ?_⟩
    rw [List.length_append]
    exact shown.append before

private theorem behind {token : Token} (accounts : Accounts tokens outcome) : Accounts (token :: tokens) outcome :=
  accounts.append [token]

private theorem of_suffix (suffix : rest <:+ tokens) (accounts : Accounts rest outcome) : Accounts tokens outcome := by
  obtain ⟨before, rfl⟩ := suffix
  exact accounts.append before

private theorem here {fault : Fault} (shown : fault.Shows tokens 0) :
    Accounts (α := α) tokens (.error (fault, tokens)) :=
  ⟨[], rfl, shown⟩

private theorem bind {next : α × List Token → Outcome β} (first : Accounts tokens outcome)
    (later : ∀ value rest, outcome = .ok (value, rest) → Accounts tokens (next (value, rest))) :
    Accounts tokens (outcome.bind next) := by
  match outcome with
  | .ok (value, rest) => exact later value rest rfl
  | .error (fault, rest) => exact first

private theorem andThen {next : α × List Token → Outcome β} (first : Accounts tokens outcome)
    (later : ∀ value rest, outcome = .ok (value, rest) → Accounts rest (next (value, rest))) :
    Accounts tokens (outcome.bind next) := by
  apply first.bind
  rintro value rest rfl
  exact (later value rest rfl).of_suffix first

private theorem map (f : α → β) (accounts : Accounts tokens outcome) :
    Accounts tokens (outcome.map fun (value, rest) => (f value, rest)) := by
  match outcome with
  | .ok (value, rest) => exact accounts
  | .error (fault, rest) => exact accounts

end Accounts

namespace Parsing

private theorem expect_accounts (literal : String) (fault : Fault) (before : List Token) {tokens : List Token}
    (shown : ¬ StandsAt tokens 0 (·.literal = literal) → fault.Shows (before ++ tokens) before.length) :
    Accounts (before ++ tokens) (expect literal fault tokens).outcome := by
  cases tokens with
  | nil => exact ⟨before, rfl, shown not_standsAt_nil⟩
  | cons token tail =>
    rw [expect_cons]
    split
    next => exact List.suffix_append_of_suffix (List.suffix_cons token tail)
    next other => exact ⟨before, rfl, shown (by simpa using other)⟩

private theorem expectIdentifier_accounts (fault : Fault) (before : List Token) {tokens : List Token}
    (shown : ¬ StandsAt tokens 0 (·.kind = .identifier) → fault.Shows (before ++ tokens) before.length) :
    Accounts (before ++ tokens) (expectIdentifier fault tokens).outcome := by
  cases tokens with
  | nil => exact ⟨before, rfl, shown not_standsAt_nil⟩
  | cons token tail =>
    rw [expectIdentifier_cons]
    split
    next => exact List.suffix_append_of_suffix (List.suffix_cons token tail)
    next other => exact ⟨before, rfl, shown (by simpa using other)⟩

private theorem malformed_accounts {α : Type} {token : Token} (tail : List Token) (malformed : token.Malformed) :
    Accounts (α := α) (token :: tail) (.error (.malformedNumber, tail)) :=
  ⟨[token], rfl, Nat.le_refl 1, token, rfl, malformed⟩

private theorem operation_accounts {level : Nat} (left : Expression) {tokens : List Token}
    (later : ∀ sign rest, tokens = sign :: rest → Accounts rest (tier level rest).outcome) :
    Accounts tokens (operation level left tokens) := by
  cases tokens with
  | nil => exact List.suffix_rfl
  | cons sign rest =>
    rw [operation]
    split
    next => exact ((later sign rest rfl).map (Expression.binary sign.literal left)).behind
    next => exact List.suffix_rfl

private theorem continuation_accounts (argument : Expression) {tokens : List Token}
    (later : ∀ comma rest, tokens = comma :: rest → Accounts rest (arguments rest).outcome) :
    Accounts tokens (continuation argument tokens) := by
  cases tokens with
  | nil => exact .here not_standsAt_nil
  | cons comma rest =>
    rw [continuation]
    split_ifs with separates follows closes
    · refine .here ⟨by simpa using separates, ?_⟩
      cases rest with
      | nil => cases follows
      | cons token rest => exact ⟨token, rfl, by simpa using follows⟩
    · exact ((later comma rest rfl).map (argument :: ·)).behind
    · exact List.suffix_cons comma rest
    · apply Accounts.here
      simp [Fault.Shows, separates, closes]

mutual
private theorem tier_accounts (level : Nat) (tokens : List Token) : Accounts tokens (tier level tokens).outcome := by
  match level, tokens with
  | 0, [] =>
    rw [primary_nil]
    exact .here rfl
  | 0, token :: tail =>
    cases kind : token.kind with
    | integer =>
      rw [primary_integer tail kind]
      split
      next => exact List.suffix_cons token tail
      next unread => exact malformed_accounts tail (.inl ⟨kind, unread⟩)
    | decimal =>
      rw [primary_decimal tail kind]
      split
      next => exact List.suffix_cons token tail
      next unread => exact malformed_accounts tail (.inr ⟨kind, unread⟩)
    | string =>
      rw [primary_string tail kind]
      exact List.suffix_cons token tail
    | identifier =>
      by_cases closed : ∀ next ∈ tail.head?, next.literal ≠ "("
      · rw [primary_name kind closed]
        exact List.suffix_cons token tail
      · match tail with
        | [] => simp at closed
        | opening :: tail =>
          rw [primary_call tail kind (by simpa using closed)]
          exact ((arguments_accounts tail).map (Expression.call token.literal)).behind.behind
    | operator =>
      by_cases opens : token.literal = "("
      · rw [primary_group tail kind opens]
        refine Accounts.behind ((tier_accounts 3 tail).andThen fun inner rest _ => ?_)
        exact (expect_accounts ")" .unclosedGroup [] id).map fun _ => Expression.group inner
      · rw [primary_operator tail kind opens]
        apply Accounts.here
        simp [Fault.Shows, kind, opens]
  | level + 1, tokens =>
    rw [tier_succ]
    refine (tier_accounts level tokens).andThen fun left rest read => ?_
    have shorter := Reading.shorter_of_outcome read
    exact operation_accounts left fun sign behind here => tier_accounts level behind
termination_by 5 * tokens.length + level
decreasing_by all_goals subst_vars; simp only [List.length_cons] at *; omega

private theorem arguments_accounts (tokens : List Token) : Accounts tokens (arguments tokens).outcome := by
  match tokens with
  | [] =>
    rw [arguments_nil]
    exact .here rfl
  | token :: tail =>
    by_cases closes : token.literal = ")"
    · rw [arguments_close tail closes]
      exact List.suffix_cons token tail
    · rw [arguments_cons tail closes]
      refine (tier_accounts 3 (token :: tail)).andThen fun argument rest read => ?_
      have shorter := Reading.shorter_of_outcome read
      exact continuation_accounts argument fun comma behind here => arguments_accounts behind
termination_by 5 * tokens.length + 4
decreasing_by all_goals subst_vars; simp only [List.length_cons] at *; omega
end

/-! Statements. -/

private theorem closed_accounts {α : Type} {literal : String} {fault : Fault} (f : Expression → α) (tokens : List Token)
    (shown : ∀ rest, ¬ StandsAt rest 0 (·.literal = literal) → fault.Shows rest 0) :
    Accounts tokens ((expression tokens).andThen fun value rest =>
      (expect literal fault rest).map fun _ => f value).outcome := by
  simp only [Reading.outcome_andThen, Reading.outcome_map]
  exact (tier_accounts 3 tokens).andThen fun value rest _ =>
    (expect_accounts literal fault [] (shown rest)).map fun _ => f value

private theorem condition_accounts (keyword : String) (known : keyword ∈ ["THEN", "DO"]) (tokens : List Token) :
    Accounts tokens (condition keyword tokens).outcome := by
  refine closed_accounts id tokens fun rest missing => ⟨List.mem_append_left ["END"] known, missing, ?_⟩
  rintro rfl
  exact absurd known (by decide)

private theorem initializer_accounts (tokens : List Token) : Accounts tokens (initializer tokens).outcome := by
  cases tokens with
  | nil => exact .here not_standsAt_nil
  | cons token tail =>
    rw [initializer]
    split
    next =>
      rw [Reading.outcome_behind]
      exact (closed_accounts some tail fun _ => id).behind
    next =>
      rw [Reading.outcome_map]
      exact (expect_accounts ";" .missingSemicolon [] id).map fun _ => none

/-- The only rule whose faults say something about tokens before the missing one. So what it has read stays
in front of the tokens from rule to rule. -/
theorem declaration_accounts {keyword : Token} (isLet : keyword.IsLet) (tokens : List Token) :
    Accounts (keyword :: tokens) (declaration tokens).reading.outcome := by
  rw [declaration_outcome]
  have noName : ¬ StandsAt tokens 0 (·.kind = .identifier) → Fault.missingName.Shows (keyword :: tokens) 1 := by
    intro missing
    exact ⟨missing, Nat.le_refl 1, keyword, rfl, isLet⟩
  refine (expectIdentifier_accounts .missingName [keyword] noName).bind fun _ rest named => ?_
  obtain ⟨name, nameKind, rfl, rfl⟩ := expectIdentifier_eq_ok.mp named
  have noColon : ¬ StandsAt rest 0 (·.literal = ":") → Fault.missingColon.Shows (keyword :: name :: rest) 2 := by
    intro missing
    exact ⟨missing, ⟨Nat.le_add_left 1 1, name, rfl, nameKind⟩, Nat.le_refl 2, keyword, rfl, isLet⟩
  refine (expect_accounts ":" .missingColon [keyword, name] noColon).bind fun _ rest separated => ?_
  obtain ⟨colon, separates, rfl⟩ := expect_eq_ok.mp separated
  have noType : ¬ StandsAt rest 0 (·.kind = .identifier) →
      Fault.missingTypeName.Shows (keyword :: name :: colon :: rest) 3 := by
    intro missing
    exact ⟨missing, Nat.le_add_left 1 2, colon, rfl, separates⟩
  refine (expectIdentifier_accounts .missingTypeName [keyword, name, colon] noType).bind fun _ rest typed => ?_
  obtain ⟨typeName, _, rfl, rfl⟩ := expectIdentifier_eq_ok.mp typed
  exact ((initializer_accounts rest).map _).append [keyword, name, colon, typeName]

mutual
private theorem statement_accounts (tokens : List Token) : Accounts tokens (statement tokens).reading.outcome := by
  match tokens with
  | [] =>
    rw [statement_expression (by simp) (by simp)]
    exact closed_accounts Statement.expression [] fun _ => id
  | token :: tail =>
    cases dispatch token tail with
    | conditional kind isIf =>
      rw [statement_conditional tail kind isIf, conditional_outcome]
      refine Accounts.behind ((condition_accounts "THEN" (by simp) tail).andThen fun value rest read => ?_)
      have shorter := Reading.shorter_of_outcome read
      exact (branches_accounts rest).map fun (thenBody, elseBody) => Statement.conditional value thenBody elseBody
    | loop kind isWhile =>
      rw [statement_loop tail kind isWhile, loop_outcome]
      refine Accounts.behind ((condition_accounts "DO" (by simp) tail).andThen fun value rest read => ?_)
      have shorter := Reading.shorter_of_outcome read
      exact (block_accounts rest).map (Statement.loop value)
    | declaration kind isLet =>
      rw [statement_declaration tail kind isLet]
      exact declaration_accounts ⟨kind, isLet⟩ tail
    | assignment kind plain split equals =>
      rw [split, statement_assignment _ kind plain equals]
      simp only [assignment, Traced.reading_simple, Reading.outcome_behind]
      exact (closed_accounts (Statement.assignment token.literal) _ fun _ => id).behind.behind
    | expression plain unassigned =>
      rw [statement_expression plain unassigned]
      exact closed_accounts Statement.expression (token :: tail) fun _ => id
termination_by 2 * tokens.length
decreasing_by all_goals simp only [List.length_cons]; omega

private theorem branches_accounts (tokens : List Token) : Accounts tokens (branches tokens).reading.outcome := by
  match tokens with
  | [] =>
    rw [branches_nil]
    exact .here ⟨by simp, not_standsAt_nil, fun _ => rfl⟩
  | token :: tail =>
    by_cases isEnd : token.literal = "END"
    · rw [branches_end tail isEnd]
      exact List.suffix_cons token tail
    · by_cases isElse : token.literal = "ELSE"
      · rw [branches_else tail isElse]
        exact ((block_accounts tail).map fun elseBody => ([], elseBody)).behind
      · rw [branches_cons tail isEnd isElse]
        refine (statement_accounts (token :: tail)).andThen fun first rest read => ?_
        have shorter := Reading.shorter_of_outcome read
        exact (branches_accounts rest).map fun (thenBody, elseBody) => (first :: thenBody, elseBody)
termination_by 2 * tokens.length + 1
decreasing_by all_goals simp only [List.length_cons] at *; omega

private theorem block_accounts (tokens : List Token) : Accounts tokens (block tokens).reading.outcome := by
  match tokens with
  | [] =>
    rw [block_nil]
    exact .here ⟨by simp, not_standsAt_nil, fun _ => rfl⟩
  | token :: tail =>
    by_cases isEnd : token.literal = "END"
    · rw [block_end tail isEnd]
      exact List.suffix_cons token tail
    · rw [block_cons tail isEnd]
      refine (statement_accounts (token :: tail)).andThen fun first rest read => ?_
      have shorter := Reading.shorter_of_outcome read
      exact (block_accounts rest).map (first :: ·)
termination_by 2 * tokens.length + 1
decreasing_by all_goals simp only [List.length_cons] at *; omega
end

theorem pass_accounts (tokens : List Token) : Accounts tokens (pass tokens).outcome := by
  match tokens with
  | [] =>
    rw [pass_nil]
    exact List.suffix_rfl
  | token :: tail =>
    rw [pass_cons]
    refine (statement_accounts (token :: tail)).andThen fun first rest read => ?_
    have shorter := Reading.shorter_of_outcome read
    exact (pass_accounts rest).map (first :: ·)
termination_by tokens.length
decreasing_by exact shorter

end Parsing

/-- A parse error's kind says what stands at its place. -/
theorem parse_error_shows {tokens : List Token} {error : ParseError} (failed : parse tokens = .error error) :
    error.index ≤ tokens.length ∧ error.fault.Shows tokens error.index := by
  obtain ⟨settles, answer⟩ := parse_eq_error failed
  have accounts := Parsing.pass_accounts tokens
  rw [answer] at accounts
  obtain ⟨seen, split, shown⟩ := accounts
  have inside := settles.inside
  have size := congrArg List.length split
  rw [List.length_append, List.length_drop] at size
  have place : seen.length = error.index := by omega
  rw [place] at shown
  exact ⟨inside, shown⟩

theorem parse_error_shows_nested :
    parse [⟨.identifier, "WHILE", 0⟩, ⟨.identifier, "a", 6⟩, ⟨.identifier, "DO", 8⟩, ⟨.identifier, "LET", 11⟩,
        ⟨.identifier, "b", 15⟩, ⟨.operator, "=", 17⟩] = .error ⟨.missingColon, 5⟩ ∧
      Fault.missingColon.Shows [⟨.identifier, "WHILE", 0⟩, ⟨.identifier, "a", 6⟩, ⟨.identifier, "DO", 8⟩,
        ⟨.identifier, "LET", 11⟩, ⟨.identifier, "b", 15⟩, ⟨.operator, "=", 17⟩] 5 := by
  have failed : parse [⟨.identifier, "WHILE", 0⟩, ⟨.identifier, "a", 6⟩, ⟨.identifier, "DO", 8⟩,
      ⟨.identifier, "LET", 11⟩, ⟨.identifier, "b", 15⟩, ⟨.operator, "=", 17⟩] = .error ⟨.missingColon, 5⟩ := by
    cbv
  exact ⟨failed, (parse_error_shows failed).2⟩

end PlcJava
