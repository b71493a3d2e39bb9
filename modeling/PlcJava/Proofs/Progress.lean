import Mathlib
import PlcJava.Proofs.Loops

/-! The parser comes to an end. Its rules call each other and themselves, and the operator tiers do so without
taking a token. Here a rule is what it does with the answers of the rules it calls, which need not return. A
call is made further on in the tokens or, at the same place, for a rule of lower rank, so calls nest only so
deep as the tokens left allow, and then the rules return what the parser answers. -/

set_option autoImplicit false

namespace PlcJava

/-- The rules of the parser. The last four are its loops, which call themselves for a further turn. -/
inductive Nonterminal where
  | call
  | primary
  | multiplicative
  | additive
  | equality
  | expression
  | declaration
  | assignment
  | conditional
  | loop
  | statement
  | arguments
  | branches
  | block
  | program

namespace Nonterminal

@[reducible]
def Value : Nonterminal → Type
  | .call | .primary | .multiplicative | .additive | .equality => Expression
  | .expression | .declaration | .assignment | .conditional | .loop | .statement => Statement
  | .arguments => List Expression
  | .branches => List Statement × List Statement
  | .block | .program => List Statement

/-- A rule calls only rules of lower rank before a token is taken. -/
def rank : Nonterminal → Nat
  | .call => 0
  | .primary => 1
  | .multiplicative => 2
  | .additive => 3
  | .equality => 4
  | .expression | .declaration | .assignment | .conditional | .loop | .arguments => 5
  | .statement => 6
  | .branches | .block | .program => 7

def weight (rule : Nonterminal) (tokens : List Token) : Nat := 8 * tokens.length + rule.rank

private theorem rank_lt (rule : Nonterminal) : rule.rank < 8 := by
  cases rule <;> decide

end Nonterminal

/-- What a call has come to: an outcome, or nothing as long as it has not returned. -/
abbrev Run (α : Type) := Option (Outcome α)

namespace Run

variable {α β : Type}

def andThen (run : Run α) (next : α → List Token → Run β) : Run β :=
  run.bind fun
    | .ok (value, rest) => next value rest
    | .error failure => some (.error failure)

def map (f : α → β) (run : Run α) : Run β :=
  run.andThen fun value rest => some (.ok (f value, rest))

/-- A part that calls no rule. -/
def returned {tokens : List Token} (reading : Reading tokens α) : Run α := some reading.outcome

private theorem andThen_eq {run : Run α} {outcome : Outcome α} {next : α → List Token → Run β}
    {later : α × List Token → Outcome β} (first : run = some outcome)
    (same : ∀ value rest, outcome = .ok (value, rest) → next value rest = some (later (value, rest))) :
    run.andThen next = some (outcome.bind later) := by
  subst first
  rcases outcome with failure | ⟨value, rest⟩
  · rfl
  · exact same value rest rfl

private theorem andThen_reading {tokens : List Token} {run : Run α} {reading : Reading tokens α}
    {next : α → List Token → Run β} {later : α → (rest : List Token) → Reading rest β} (first : run = some reading.outcome)
    (same : ∀ value rest, rest.length < tokens.length → next value rest = some (later value rest).outcome) :
    run.andThen next = some (reading.andThen later).outcome := by
  rw [Reading.outcome_andThen]
  exact andThen_eq first fun value rest read => same value rest (Reading.shorter_of_outcome read)

private theorem map_eq {run : Run α} {outcome : Outcome α} (f : α → β) (first : run = some outcome) :
    run.map f = some (outcome.map fun (value, rest) => (f value, rest)) := by
  subst first
  cases outcome <;> rfl

private theorem map_reading {tokens : List Token} {run : Run α} {reading : Reading tokens α} (f : α → β)
    (first : run = some reading.outcome) : run.map f = some (reading.map f).outcome := by
  rw [Reading.outcome_map]
  exact map_eq f first

end Run

/-- What becomes of the calls of each rule. -/
abbrev Calls := (rule : Nonterminal) → List Token → Run rule.Value

namespace Parsing

/-! What the parser answers. -/

def callRule (tokens : List Token) : Reading tokens Expression :=
  (expectIdentifier .expectedExpression tokens).andThen fun name rest =>
    (expect "(" .expectedExpression rest).andThen fun _ rest => (arguments rest).map (.call name)

def assignmentRule (tokens : List Token) : Reading tokens Statement :=
  (expectIdentifier .missingName tokens).andThen fun name rest =>
    (expect "=" (.missingKeyword "=") rest).andThen fun _ rest =>
      (expression rest).andThen fun value rest => (expectSemicolon rest).map fun _ => .assignment name value

private theorem primary_callRule {token opening : Token} (rest : List Token) (kind : token.kind = .identifier)
    (opens : opening.literal = "(") :
    (tier 0 (token :: opening :: rest)).outcome = (callRule (token :: opening :: rest)).outcome := by
  rw [primary_call rest kind opens]
  simp only [callRule, Reading.outcome_andThen, Reading.outcome_map, expectIdentifier_cons, kind, if_true,
    Except.bind, expect_cons, opens]

private theorem statement_assignmentRule {token sign : Token} (rest : List Token) (kind : token.kind = .identifier)
    (plain : token.literal ∉ keywords) (equals : sign.literal = "=") :
    (statement (token :: sign :: rest)).reading.outcome = (assignmentRule (token :: sign :: rest)).outcome := by
  rw [statement_assignment rest kind plain equals]
  simp only [assignment, assignmentRule, Traced.reading_simple, Reading.outcome_behind, Reading.outcome_andThen,
    Reading.outcome_map, expectIdentifier_cons, kind, if_true, Except.bind, expect_cons, equals]

def answer : (rule : Nonterminal) → List Token → Outcome rule.Value
  | .call, tokens => (callRule tokens).outcome
  | .primary, tokens => (tier 0 tokens).outcome
  | .multiplicative, tokens => (tier 1 tokens).outcome
  | .additive, tokens => (tier 2 tokens).outcome
  | .equality, tokens => (tier 3 tokens).outcome
  | .expression, tokens => (expressionStatement tokens).reading.outcome
  | .declaration, tokens => (declaration tokens).reading.outcome
  | .assignment, tokens => (assignmentRule tokens).outcome
  | .conditional, tokens => (conditional tokens).reading.outcome
  | .loop, tokens => (loop tokens).reading.outcome
  | .statement, tokens => (statement tokens).reading.outcome
  | .arguments, tokens => (arguments tokens).outcome
  | .branches, tokens => (branches tokens).reading.outcome
  | .block, tokens => (block tokens).reading.outcome
  | .program, tokens => (pass tokens).outcome

/-! What the rules do, given what becomes of their calls. -/

section body

variable {α β : Type} (call : Calls)

def closedBody (literal : String) (fault : Fault) (f : Expression → α) (tokens : List Token) : Run α :=
  (call .equality tokens).andThen fun value rest => (Run.returned (expect literal fault rest)).map fun _ => f value

def primaryBody (tokens : List Token) : Run Expression :=
  match tokens with
  | [] => some (.error (.unexpectedEnd, []))
  | token :: rest =>
    match token.kind with
    | .integer => .returned (numeral .integer (Integer.read? token.literal) : Reading (token :: rest) Expression)
    | .decimal => .returned (numeral .decimal (Decimal.read? token.literal) : Reading (token :: rest) Expression)
    | .identifier =>
      if rest.head?.any (·.literal = "(") then call .call (token :: rest)
      else some (.ok (named token.literal, rest))
    | .string => some (.ok (.literal (.string (unquote token.literal)), rest))
    | .operator =>
      if token.literal = "(" then closedBody call ")" .unclosedGroup .group rest
      else some (.error (.expectedExpression, token :: rest))

/-- A tier calls for both its operands by the same rule. -/
def tierBody (level : Nat) (operand : List Token → Run Expression) (tokens : List Token) : Run Expression :=
  (operand tokens).andThen fun left rest =>
    match rest with
    | [] => some (.ok (left, []))
    | token :: rest =>
      if token.literal ∈ operators level then (operand rest).map (.binary token.literal left)
      else some (.ok (left, token :: rest))

def initializerBody (tokens : List Token) : Run (Option Expression) :=
  if tokens.head?.any (·.literal = "=") then closedBody call ";" .missingSemicolon some tokens.tail
  else (Run.returned (expectSemicolon tokens)).map fun _ => none

def statementBody (tokens : List Token) : Run Statement :=
  match tokens with
  | [] => call .expression []
  | token :: rest =>
    if token.kind = .identifier then
      if token.literal = "IF" then call .conditional rest
      else if token.literal = "WHILE" then call .loop rest
      else if token.literal = "LET" then call .declaration rest
      else if rest.head?.any (·.literal = "=") then call .assignment (token :: rest)
      else call .expression (token :: rest)
    else call .expression (token :: rest)

/-- Behind `ELSE` the bodies of a conditional go on with a call. -/
def closedBranchesBody : List Token → Run (List Statement × List Statement)
  | [] => some (.error (.missingKeyword "END", []))
  | token :: rest =>
    if token.literal = "END" then some (.ok (([], []), rest))
    else (call .block rest).map fun elseBody => ([], elseBody)

def loopBody (loop : Loop α β) (tokens : List Token) (close : Run β) (item : Run α) (again : List Token → Run β) :
    Run β :=
  if loop.closes tokens then close else item.andThen fun value rest => (again rest).map (loop.add value)

/-- What a rule does, up to its calls. Every call of one rule by another is made here by `call`. -/
def body : Calls
  | .call, tokens =>
    (Run.returned (expectIdentifier .expectedExpression tokens)).andThen fun name rest =>
      (Run.returned (expect "(" .expectedExpression rest)).andThen fun _ rest =>
        (call .arguments rest).map (.call name)
  | .primary, tokens => primaryBody call tokens
  | .multiplicative, tokens => tierBody 1 (call .primary) tokens
  | .additive, tokens => tierBody 2 (call .multiplicative) tokens
  | .equality, tokens => tierBody 3 (call .additive) tokens
  | .expression, tokens => closedBody call ";" .missingSemicolon .expression tokens
  | .declaration, tokens =>
    (Run.returned (expectIdentifier .missingName tokens)).andThen fun name rest =>
      (Run.returned (expect ":" .missingColon rest)).andThen fun _ rest =>
        (Run.returned (expectIdentifier .missingTypeName rest)).andThen fun typeName rest =>
          (initializerBody call rest).map (.declaration name typeName)
  | .assignment, tokens =>
    (Run.returned (expectIdentifier .missingName tokens)).andThen fun name rest =>
      (Run.returned (expect "=" (.missingKeyword "=") rest)).andThen fun _ rest =>
        closedBody call ";" .missingSemicolon (.assignment name) rest
  | .conditional, tokens =>
    (closedBody call "THEN" (.missingKeyword "THEN") id tokens).andThen fun value rest =>
      (call .branches rest).map fun bodies => .conditional value bodies.1 bodies.2
  | .loop, tokens =>
    (closedBody call "DO" (.missingKeyword "DO") id tokens).andThen fun value rest =>
      (call .block rest).map (.loop value)
  | .statement, tokens => statementBody call tokens
  | .arguments, tokens =>
    loopBody argumentLoop tokens (some (argumentLoop.close tokens))
      ((call .equality tokens).andThen fun value rest => some (separated value rest)) (call .arguments)
  | .branches, tokens =>
    loopBody branchesLoop tokens (closedBranchesBody call tokens) (call .statement tokens) (call .branches)
  | .block, tokens => loopBody blockLoop tokens (some (blockLoop.close tokens)) (call .statement tokens) (call .block)
  | .program, tokens =>
    loopBody programLoop tokens (some (programLoop.close tokens)) (call .statement tokens) (call .program)

end body

/-- The rules with calls nested at most so deep. A call that is nested deeper does not return. -/
def limited : Nat → Calls
  | 0, _, _ => none
  | depth + 1, rule, tokens => body (limited depth) rule tokens

/-- Calls below the bound return what the parser answers. -/
def Answers (call : Calls) (bound : Nat) : Prop :=
  ∀ rule tokens, rule.weight tokens < bound → call rule tokens = some (answer rule tokens)

namespace Answers

/-! The two ways in which a call is lighter than the rule that makes it. -/

variable {call : Calls} {rule : Nonterminal} {tokens rest : List Token}

private theorem lower (answers : Answers call (rule.weight tokens)) (other : Nonterminal)
    (below : other.rank < rule.rank) : call other tokens = some (answer other tokens) :=
  answers other tokens (Nat.add_lt_add_left below _)

private theorem later (answers : Answers call (rule.weight tokens)) (other : Nonterminal)
    (shorter : rest.length < tokens.length) : call other rest = some (answer other rest) := by
  apply answers
  have small := other.rank_lt
  unfold Nonterminal.weight
  omega

end Answers

section answers

variable {α β : Type} {call : Calls} {rule : Nonterminal} {tokens : List Token}

private theorem closedBody_eq (literal : String) (fault : Fault) (f : Expression → α)
    (answers : call .equality tokens = some (tier 3 tokens).outcome) :
    closedBody call literal fault f tokens =
      some ((expression tokens).andThen fun value rest =>
        (expect literal fault rest).map fun _ => f value).outcome :=
  Run.andThen_reading answers fun _ _ _ => Run.map_reading _ rfl

private theorem primaryBody_eq (answers : Answers call (Nonterminal.primary.weight tokens)) :
    primaryBody call tokens = some (tier 0 tokens).outcome := by
  cases tokens with
  | nil => rw [primary_nil, primaryBody]
  | cons token rest =>
    cases kind : token.kind with
    | integer =>
      rw [tier.eq_def 0]
      simp only [primaryBody, kind, Run.returned]
    | decimal =>
      rw [tier.eq_def 0]
      simp only [primaryBody, kind, Run.returned]
    | string => simp only [primaryBody, kind, primary_string rest kind]
    | identifier =>
      simp only [primaryBody, kind]
      split
      next opens =>
        obtain ⟨opening, rest, rfl⟩ : ∃ opening left, rest = opening :: left := by
          cases rest with
          | nil => cases opens
          | cons opening left => exact ⟨opening, left, rfl⟩
        rw [primary_callRule rest kind (by simpa using opens)]
        exact answers.lower .call (by decide)
      next closed =>
        rw [primary_name kind]
        intro next member opens
        rw [Option.mem_def.mp member] at closed
        simp [opens] at closed
    | operator =>
      simp only [primaryBody, kind]
      split
      next opens =>
        rw [primary_group rest kind opens, closedBody_eq _ _ _ (answers.later .equality (by simp))]
        simp only [Reading.outcome_andThen, Reading.outcome_map, expression]
      next other => rw [primary_operator rest kind other]

private theorem tierBody_eq (level : Nat) {operand : List Token → Run Expression}
    (here : operand tokens = some (tier level tokens).outcome)
    (later : ∀ rest : List Token, rest.length < tokens.length → operand rest = some (tier level rest).outcome) :
    tierBody (level + 1) operand tokens = some (tier (level + 1) tokens).outcome := by
  rw [tier_succ]
  refine Run.andThen_eq here fun left rest read => ?_
  have shorter := Reading.shorter_of_outcome read
  cases rest with
  | nil => rfl
  | cons token rest =>
    dsimp only [operation]
    split
    next => exact Run.map_eq _ (later rest (Nat.lt_of_succ_lt shorter))
    next => rfl

private theorem initializerBody_eq (answers : ∀ rest : List Token, rest.length < tokens.length →
      call .equality rest = some (tier 3 rest).outcome) :
    initializerBody call tokens = some (initializer tokens).outcome := by
  cases tokens with
  | nil => rfl
  | cons token rest =>
    by_cases equals : token.literal = "="
    · simp only [initializerBody, initializer, List.head?_cons, Option.any_some, equals, decide_true, if_true,
        Reading.outcome_behind]
      exact closedBody_eq _ _ _ (answers rest (by simp))
    · simp only [initializerBody, initializer, List.head?_cons, Option.any_some, equals, decide_false,
        Bool.false_eq_true, if_false, Reading.outcome_map]
      exact Run.map_eq _ rfl

private theorem statementBody_eq (answers : Answers call (Nonterminal.statement.weight tokens)) :
    statementBody call tokens = some (statement tokens).reading.outcome := by
  cases tokens with
  | nil =>
    rw [statement_expression (by simp) (by simp)]
    exact answers.lower .expression (by decide)
  | cons token tail =>
    have behind : tail.length < (token :: tail).length := by simp
    cases dispatch token tail with
    | conditional kind isIf =>
      have calls : statementBody call (token :: tail) = call .conditional tail := by simp [statementBody, kind, isIf]
      rw [statement_conditional tail kind isIf]
      exact calls.trans (answers.later .conditional behind)
    | loop kind isWhile =>
      have calls : statementBody call (token :: tail) = call .loop tail := by simp [statementBody, kind, isWhile]
      rw [statement_loop tail kind isWhile]
      exact calls.trans (answers.later .loop behind)
    | declaration kind isLet =>
      have calls : statementBody call (token :: tail) = call .declaration tail := by simp [statementBody, kind, isLet]
      rw [statement_declaration tail kind isLet]
      exact calls.trans (answers.later .declaration behind)
    | @assignment sign rest kind plain split equals =>
      subst split
      rw [statement_assignmentRule rest kind plain equals]
      simp only [keywords, List.mem_cons, List.not_mem_nil, or_false, not_or] at plain
      have calls : statementBody call (token :: sign :: rest) = call .assignment (token :: sign :: rest) := by
        simp [statementBody, kind, plain, equals]
      exact calls.trans (answers.lower .assignment (by decide))
    | expression plain unassigned =>
      rw [statement_expression plain unassigned]
      have calls : statementBody call (token :: tail) = call .expression (token :: tail) := by
        by_cases kind : token.kind = .identifier
        · have other := plain token rfl kind
          simp only [keywords, List.mem_cons, List.not_mem_nil, or_false, not_or] at other
          have follows : tail.head?.any (·.literal = "=") = false := by
            cases tail with
            | nil => rfl
            | cons sign rest => simpa using unassigned token sign rest rfl kind
          simp [statementBody, kind, other, follows]
        · simp [statementBody, kind]
      exact calls.trans (answers.lower .expression (by decide))

private theorem closedBranchesBody_eq (answers : ∀ rest : List Token, rest.length < tokens.length →
      call .block rest = some (block rest).reading.outcome) :
    closedBranchesBody call tokens = some (closedBranches tokens) := by
  cases tokens with
  | nil => rfl
  | cons token rest =>
    rw [closedBranchesBody, closedBranches]
    split
    next => rfl
    next => exact Run.map_eq _ (answers rest (by simp))

private theorem loopBody_eq {loop : Loop α β} {read : List Token → Outcome β} (computes : loop.Computes read)
    {close : Run β} {item : Run α} {again : List Token → Run β} (closed : close = some (loop.close tokens))
    (first : item = some (loop.item tokens))
    (later : ∀ rest : List Token, rest.length < tokens.length → again rest = some (read rest)) :
    loopBody loop tokens close item again = some (read tokens) := by
  cases closes : loop.closes tokens with
  | true => rw [loopBody, if_pos closes, computes.read_closed closes, closed]
  | false =>
    rw [loopBody, closes, computes.read_open closes]
    exact Run.andThen_eq first fun value rest done => Run.map_eq _ (later rest (computes.forward done).2)

/-- A rule whose calls are answered returns what the parser answers. -/
theorem body_eq (answers : Answers call (rule.weight tokens)) : body call rule tokens = some (answer rule tokens) := by
  cases rule with
  | call =>
    refine Run.andThen_reading rfl fun name rest shorter => ?_
    refine Run.andThen_reading rfl fun _ left further => ?_
    exact Run.map_reading _ (answers.later .arguments (Nat.lt_trans further shorter))
  | primary => exact primaryBody_eq answers
  | multiplicative =>
    exact tierBody_eq 0 (answers.lower .primary (by decide)) fun rest shorter => answers.later .primary shorter
  | additive =>
    exact tierBody_eq 1 (answers.lower .multiplicative (by decide)) fun rest shorter =>
      answers.later .multiplicative shorter
  | equality =>
    exact tierBody_eq 2 (answers.lower .additive (by decide)) fun rest shorter => answers.later .additive shorter
  | expression => exact closedBody_eq _ _ _ (answers.lower .equality (by decide))
  | declaration =>
    refine Run.andThen_reading rfl fun name rest first => ?_
    refine Run.andThen_reading rfl fun _ left second => ?_
    refine Run.andThen_reading rfl fun typeName left third => ?_
    exact Run.map_reading _ (initializerBody_eq fun rest shorter => answers.later .equality (by omega))
  | assignment =>
    refine Run.andThen_reading rfl fun name rest shorter => ?_
    refine Run.andThen_reading rfl fun _ left further => ?_
    exact closedBody_eq _ _ _ (answers.later .equality (Nat.lt_trans further shorter))
  | conditional =>
    simp only [answer]
    rw [conditional_outcome]
    refine Run.andThen_eq (closedBody_eq _ _ _ (answers.lower .equality (by decide))) fun value rest read => ?_
    exact Run.map_eq _ (answers.later .branches (Reading.shorter_of_outcome read))
  | loop =>
    simp only [answer]
    rw [loop_outcome]
    refine Run.andThen_eq (closedBody_eq _ _ _ (answers.lower .equality (by decide))) fun value rest read => ?_
    exact Run.map_eq _ (answers.later .block (Reading.shorter_of_outcome read))
  | statement => exact statementBody_eq answers
  | arguments =>
    refine loopBody_eq argumentLoop_computes rfl ?_ fun rest shorter => answers.later .arguments shorter
    exact Run.andThen_eq (answers.lower .equality (by decide)) fun value rest _ => rfl
  | branches =>
    exact loopBody_eq branchesLoop_computes (closedBranchesBody_eq fun rest shorter => answers.later .block shorter)
      (answers.lower .statement (by decide)) fun rest shorter => answers.later .branches shorter
  | block =>
    exact loopBody_eq blockLoop_computes rfl (answers.lower .statement (by decide)) fun rest shorter =>
      answers.later .block shorter
  | program =>
    exact loopBody_eq programLoop_computes rfl (answers.lower .statement (by decide)) fun rest shorter =>
      answers.later .program shorter

end answers

/-- Calls nest at most as deep as the weight of the first one. -/
theorem limited_eq {rule : Nonterminal} {tokens : List Token} {depth : Nat} (enough : rule.weight tokens < depth) :
    limited depth rule tokens = some (answer rule tokens) := by
  induction depth generalizing rule tokens with
  | zero => cases enough
  | succ depth ih =>
    -- what the rule calls is lighter than the rule, so the depth that is left is enough for it
    apply body_eq
    intro other left lighter
    exact ih (Nat.lt_of_lt_of_le lighter (Nat.le_of_lt_succ enough))

/-! Where the rules end. -/

private theorem answer_local (rule : Nonterminal) (tokens : List Token) : Local (answer rule) tokens := by
  cases rule with
  | call =>
    refine .congr 0 (fun others _ => ?_) (fun _ _ _ => Nat.zero_le _)
      ((expectIdentifier_local .expectedExpression rfl tokens).bind fun name rest _ =>
        (expect_local "(" .expectedExpression rfl rest).bind fun _ rest _ =>
          (arguments_local rest).map (Expression.call name))
    simp only [answer, callRule, Reading.outcome_andThen, Reading.outcome_map]
  | primary => exact tier_local 0 tokens
  | multiplicative => exact tier_local 1 tokens
  | additive => exact tier_local 2 tokens
  | equality => exact tier_local 3 tokens
  | expression => exact expressionStatement_local tokens
  | declaration => exact declaration_local tokens
  | assignment =>
    refine .congr 0 (fun others _ => ?_) (fun _ _ _ => Nat.zero_le _)
      ((expectIdentifier_local .missingName rfl tokens).bind fun name rest _ =>
        (expect_local "=" (.missingKeyword "=") rfl rest).bind fun _ rest _ =>
          closed_local ";" .missingSemicolon rfl (Statement.assignment name) rest)
    simp only [answer, assignmentRule, expectSemicolon, Reading.outcome_andThen, Reading.outcome_map]
  | conditional => exact conditional_local tokens
  | loop => exact loop_local tokens
  | statement => exact statement_local tokens
  | arguments => exact arguments_local tokens
  | branches => exact branches_local tokens
  | block => exact block_local tokens
  | program => exact pass_local tokens

private theorem answer_shorter {rule : Nonterminal} (phrase : rule ≠ .program) {tokens rest : List Token}
    {value : rule.Value} (read : answer rule tokens = .ok (value, rest)) : rest.length < tokens.length := by
  cases rule with
  | program => exact absurd rfl phrase
  | _ => exact Reading.shorter_of_outcome read

private theorem answer_stop (rule : Nonterminal) {tokens : List Token} {position : Nat}
    (within : position ≤ tokens.length) : ∃ stop, position ≤ stop ∧ stop ≤ tokens.length ∧
      (answer rule (tokens.drop position)).left = tokens.drop stop ∧
      (rule ≠ .program → ∀ read, answer rule (tokens.drop position) = .ok read → position < stop) := by
  obtain ⟨taken, settles, _⟩ := answer_local rule (tokens.drop position)
  have inside := settles.inside
  have left := settles.left
  rw [List.length_drop] at inside
  rw [List.drop_drop] at left
  refine ⟨position + taken, Nat.le_add_right _ _, by omega, left, ?_⟩
  rintro phrase ⟨value, rest⟩ read
  have shorter := answer_shorter phrase read
  rw [read] at left
  change rest = _ at left
  rw [left, List.length_drop, List.length_drop] at shorter
  omega

/-- Every rule, begun at any place, comes to an end. Its calls nest only so deep as the tokens left allow. It
ends within the tokens, where it began or behind, and behind if it has read a phrase. The loops call for an item
at most once for each token that is left, that of a call counted from its name. -/
theorem rules_end (tokens : List Token) (position : Nat) (within : position ≤ tokens.length) :
    (∀ rule depth, 8 * (tokens.length - position) + 8 ≤ depth →
      limited depth rule (tokens.drop position) = some (answer rule (tokens.drop position))) ∧
    (∀ rule, ∃ stop, position ≤ stop ∧ stop ≤ tokens.length ∧
      (answer rule (tokens.drop position)).left = tokens.drop stop ∧
      (rule ≠ .program → ∀ read, answer rule (tokens.drop position) = .ok read → position < stop)) ∧
    (∃ turns ≤ tokens.length - position,
      programLoop.Runs (tokens.drop position) turns (answer .program (tokens.drop position))) ∧
    (∃ turns ≤ tokens.length - position,
      blockLoop.Runs (tokens.drop position) turns (answer .block (tokens.drop position))) ∧
    (∃ turns ≤ tokens.length - position,
      branchesLoop.Runs (tokens.drop position) turns (answer .branches (tokens.drop position))) ∧
    ∀ name opening rest, tokens.drop position = name :: opening :: rest →
      ∃ turns ≤ tokens.length - position, argumentLoop.Runs rest turns (answer .arguments rest) := by
  have left : (tokens.drop position).length = tokens.length - position := List.length_drop
  refine ⟨fun rule depth enough => ?_, fun rule => answer_stop rule within, ?_, ?_, ?_, ?_⟩
  · apply limited_eq
    have small := rule.rank_lt
    rw [Nonterminal.weight, left]
    omega
  · obtain ⟨turns, runs, _, bound⟩ := programLoop_computes.runs (tokens.drop position)
    exact ⟨turns, left ▸ bound rfl, runs⟩
  · obtain ⟨turns, runs, _, bound⟩ := blockLoop_computes.runs (tokens.drop position)
    exact ⟨turns, left ▸ bound rfl, runs⟩
  · obtain ⟨turns, runs, _, bound⟩ := branchesLoop_computes.runs (tokens.drop position)
    exact ⟨turns, left ▸ bound rfl, runs⟩
  · intro name opening rest here
    obtain ⟨turns, runs, bound, _⟩ := argumentLoop_computes.runs rest
    refine ⟨turns, ?_, runs⟩
    rw [here, List.length_cons, List.length_cons] at left
    omega

theorem rules_end_call :
    answer .call [⟨.identifier, "f", 1⟩, ⟨.operator, "(", 2⟩, ⟨.identifier, "x", 3⟩, ⟨.operator, ")", 4⟩] =
        .ok (.call "f" [.reference "x"], []) ∧
    limited 40 .call [⟨.identifier, "f", 1⟩, ⟨.operator, "(", 2⟩, ⟨.identifier, "x", 3⟩, ⟨.operator, ")", 4⟩] =
        some (.ok (.call "f" [.reference "x"], [])) ∧
    (∃ stop, 1 < stop ∧ stop ≤ 5 ∧ [] = [⟨.operator, ";", 0⟩, ⟨.identifier, "f", 1⟩, ⟨.operator, "(", 2⟩,
        ⟨.identifier, "x", 3⟩, (⟨.operator, ")", 4⟩ : Token)].drop stop) ∧
    ∃ turns ≤ 4, argumentLoop.Runs [⟨.identifier, "x", 3⟩, ⟨.operator, ")", 4⟩] turns
      (.ok ([.reference "x"], [])) := by
  have read : answer .call [⟨.identifier, "f", 1⟩, ⟨.operator, "(", 2⟩, ⟨.identifier, "x", 3⟩, ⟨.operator, ")", 4⟩] =
      .ok (.call "f" [.reference "x"], []) := by cbv
  have inner : answer .arguments [⟨.identifier, "x", 3⟩, ⟨.operator, ")", 4⟩] = .ok ([.reference "x"], []) := by cbv
  obtain ⟨returns, stops, _, _, _, loops⟩ :=
    rules_end [⟨.operator, ";", 0⟩, ⟨.identifier, "f", 1⟩, ⟨.operator, "(", 2⟩, ⟨.identifier, "x", 3⟩,
      ⟨.operator, ")", 4⟩] 1 (by decide)
  obtain ⟨stop, _, within, left, further⟩ := stops .call
  have behind := further (by simp) _ read
  have ended := returns .call 40 (by decide)
  obtain ⟨turns, bound, runs⟩ := loops _ _ _ rfl
  simp only [List.drop_succ_cons, List.drop_zero] at left ended
  rw [read] at left ended
  rw [inner] at runs
  exact ⟨read, ended, ⟨stop, behind, within, left⟩, turns, bound, runs⟩

end Parsing

end PlcJava
