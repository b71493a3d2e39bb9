import PlcJava.Parsing.Program

/-! What each rule of the parser answers, as equations between outcomes. The bounds that let
the rules call each other are gone here, so the parts of a phrase can be put together by
rewriting. -/

set_option autoImplicit false

namespace PlcJava

/-- What was read and the tokens behind it, or a fault and the tokens from where it stands. -/
abbrev Outcome (α : Type) := Except (Fault × List Token) (α × List Token)

namespace Outcome

variable {α β : Type}

theorem bind_eq_ok {outcome : Outcome α} {next : α × List Token → Outcome β} {result : β × List Token} :
    outcome.bind next = .ok result ↔ ∃ value rest, outcome = .ok (value, rest) ∧ next (value, rest) = .ok result := by
  cases outcome with
  | error fault => simp [Except.bind]
  | ok read => exact ⟨fun done => ⟨read.1, read.2, rfl, done⟩, fun ⟨_, _, same, done⟩ => by cases same; exact done⟩

theorem map_eq_ok {outcome : Outcome α} {f : α × List Token → β × List Token} {result : β × List Token} :
    outcome.map f = .ok result ↔ ∃ value rest, outcome = .ok (value, rest) ∧ f (value, rest) = result := by
  cases outcome with
  | error fault => simp [Except.map]
  | ok read =>
    simp only [Except.map, Except.ok.injEq]
    exact ⟨fun done => ⟨read.1, read.2, rfl, done⟩, fun ⟨_, _, same, done⟩ => by cases same; exact done⟩

theorem bind_eq_error {outcome : Outcome α} {next : α × List Token → Outcome β} {result : Fault × List Token} :
    outcome.bind next = .error result ↔
      outcome = .error result ∨ ∃ value rest, outcome = .ok (value, rest) ∧ next (value, rest) = .error result := by
  cases outcome with
  | error fault => simp [Except.bind]
  | ok read =>
    constructor
    · intro failed
      exact .inr ⟨read.1, read.2, rfl, failed⟩
    · intro parts
      rcases parts with failed | ⟨_, _, same, failed⟩
      · cases failed
      · cases same
        exact failed

theorem map_eq_error {outcome : Outcome α} {f : α × List Token → β × List Token} {result : Fault × List Token} :
    outcome.map f = .error result ↔ outcome = .error result := by
  cases outcome <;> simp [Except.map]

theorem mapError_eq_ok {ε ε' : Type} {f : ε → ε'} {answer : Except ε α} {value : α} :
    answer.mapError f = .ok value ↔ answer = .ok value := by
  cases answer with
  | error fault => exact ⟨nofun, nofun⟩
  | ok found =>
    constructor
    · intro same
      cases same
      rfl
    · intro same
      cases same
      rfl

end Outcome

namespace Reading

variable {tokens : List Token} {α β : Type}

/-- The bound handed to the second part does not show in what it answers. -/
theorem outcome_bind {reading : Reading tokens α}
    {next : α → (rest : List Token) → rest.length < tokens.length → Reading tokens β}
    {answer : α × List Token → Outcome β}
    (same : ∀ value rest shorter, (next value rest shorter).outcome = answer (value, rest)) :
    (reading.bind next).outcome = reading.outcome.bind answer := by
  cases reading with
  | done value rest shorter => exact same value rest shorter
  | stuck fault rest inside => rfl

theorem shorter_of_outcome {reading : Reading tokens α} {value : α} {rest : List Token}
    (read : reading.outcome = .ok (value, rest)) : rest.length < tokens.length := by
  cases reading with
  | done _ _ shorter => cases read; exact shorter
  | stuck fault rest inside => cases read

theorem inside_of_outcome {reading : Reading tokens α} {fault : Fault} {rest : List Token}
    (failed : reading.outcome = .error (fault, rest)) : rest.length ≤ tokens.length := by
  cases reading with
  | done _ _ _ => cases failed
  | stuck _ _ inside => cases failed; exact inside

end Reading

namespace Traced

variable {tokens : List Token} {α β : Type}

@[simp]
theorem reading_simple (rule : Rule) (left : Nat) (reading : Reading tokens α) :
    (simple rule left reading).reading = reading := rfl

@[simp]
theorem reading_behind {token : Token} (traced : Traced tokens α) :
    (traced.behind : Traced (token :: tokens) α).reading = traced.reading.behind := rfl

@[simp]
theorem reading_after {left : List Token} (traced : Traced left α) (shorter : left.length < tokens.length) :
    (traced.after shorter).reading = traced.reading.after shorter := rfl

@[simp]
theorem reading_map (f : α → β) (traced : Traced tokens α) :
    (traced.map f).reading = traced.reading.map f := rfl

private theorem reading_bind (traced : Traced tokens α)
    (next : α → (rest : List Token) → rest.length < tokens.length → Traced tokens β) :
    (traced.bind next).reading =
      traced.reading.bind fun value rest shorter => (next value rest shorter).reading := by
  unfold bind Reading.bind
  cases traced.reading <;> rfl

end Traced

namespace Parsing

theorem expect_cons (literal : String) (fault : Fault) (token : Token) (rest : List Token) :
    (expect literal fault (token :: rest)).outcome =
      if token.literal = literal then .ok ((), rest) else .error (fault, token :: rest) := by
  rw [expect]
  split <;> rfl

theorem expect_eq_ok {literal : String} {fault : Fault} {tokens rest : List Token} :
    (expect literal fault tokens).outcome = .ok ((), rest) ↔
      ∃ token, token.literal = literal ∧ tokens = token :: rest := by
  cases tokens with
  | nil => simp [expect]
  | cons token tail =>
    rw [expect_cons]
    split
    next same =>
      constructor
      · intro read
        cases read
        exact ⟨token, same, rfl⟩
      · intro parts
        obtain ⟨_, _, here⟩ := parts
        cases here
        rfl
    next different =>
      constructor
      · intro read
        cases read
      · intro parts
        obtain ⟨_, same, here⟩ := parts
        cases here
        exact absurd same different

theorem expect_eq_error {literal : String} {fault : Fault} {tokens : List Token} {result : Fault × List Token}
    (failed : (expect literal fault tokens).outcome = .error result) : result = (fault, tokens) := by
  cases tokens with
  | nil =>
    cases failed
    rfl
  | cons token tail =>
    rw [expect_cons] at failed
    split at failed
    · cases failed
    · cases failed
      rfl

theorem expectIdentifier_cons (fault : Fault) (token : Token) (rest : List Token) :
    (expectIdentifier fault (token :: rest)).outcome =
      if token.kind = .identifier then .ok (token.literal, rest) else .error (fault, token :: rest) := by
  rw [expectIdentifier]
  split <;> rfl

theorem expectIdentifier_eq_ok {fault : Fault} {tokens rest : List Token} {name : String} :
    (expectIdentifier fault tokens).outcome = .ok (name, rest) ↔
      ∃ token, token.kind = .identifier ∧ token.literal = name ∧ tokens = token :: rest := by
  cases tokens with
  | nil => simp [expectIdentifier]
  | cons token tail =>
    rw [expectIdentifier_cons]
    split
    next identifier =>
      constructor
      · intro read
        cases read
        exact ⟨token, identifier, rfl, rfl⟩
      · intro parts
        obtain ⟨_, _, literal, here⟩ := parts
        cases here
        rw [literal]
    next other =>
      constructor
      · intro read
        cases read
      · intro parts
        obtain ⟨_, identifier, _, here⟩ := parts
        cases here
        exact absurd identifier other

theorem expectIdentifier_eq_error {fault : Fault} {tokens : List Token} {result : Fault × List Token}
    (failed : (expectIdentifier fault tokens).outcome = .error result) : result = (fault, tokens) := by
  cases tokens with
  | nil =>
    cases failed
    rfl
  | cons token tail =>
    rw [expectIdentifier_cons] at failed
    split at failed
    · cases failed
    · cases failed
      rfl

/-! Expressions. -/

theorem primary_nil : (tier 0 []).outcome = .error (.unexpectedEnd, []) := by
  rw [tier.eq_def 0]
  rfl

theorem primary_integer {token : Token} (rest : List Token) (kind : token.kind = .integer) :
    (tier 0 (token :: rest)).outcome =
      match Integer.read? token.literal with
      | some value => .ok (.literal (.integer value), rest)
      | none => .error (.malformedNumber, rest) := by
  rw [tier.eq_def 0]
  simp only [kind, numeral]
  cases Integer.read? token.literal <;> simp

theorem primary_decimal {token : Token} (rest : List Token) (kind : token.kind = .decimal) :
    (tier 0 (token :: rest)).outcome =
      match Decimal.read? token.literal with
      | some value => .ok (.literal (.decimal value), rest)
      | none => .error (.malformedNumber, rest) := by
  rw [tier.eq_def 0]
  simp only [kind, numeral]
  cases Decimal.read? token.literal <;> simp

theorem primary_string {token : Token} (rest : List Token) (kind : token.kind = .string) :
    (tier 0 (token :: rest)).outcome = .ok (.literal (.string (unquote token.literal)), rest) := by
  rw [tier.eq_def 0]
  simp only [kind, Reading.outcome_taken]

theorem primary_call {token opening : Token} (rest : List Token) (kind : token.kind = .identifier)
    (opens : opening.literal = "(") :
    (tier 0 (token :: opening :: rest)).outcome =
      (arguments rest).outcome.map fun (values, rest) => (.call token.literal values, rest) := by
  rw [tier.eq_def 0]
  simp only [kind, opens, if_true, Reading.outcome_behind, Reading.outcome_map]

theorem primary_name {token : Token} {rest : List Token} (kind : token.kind = .identifier)
    (closed : ∀ next ∈ rest.head?, next.literal ≠ "(") :
    (tier 0 (token :: rest)).outcome = .ok (named token.literal, rest) := by
  rw [tier.eq_def 0]
  simp only [kind]
  cases rest with
  | nil => rfl
  | cons next rest =>
    have other : next.literal ≠ "(" := closed next rfl
    simp only [other, if_false, Reading.outcome_taken]

theorem primary_group {token : Token} (rest : List Token) (kind : token.kind = .operator)
    (opens : token.literal = "(") :
    (tier 0 (token :: rest)).outcome =
      (tier 3 rest).outcome.bind fun (inner, rest) =>
        (expect ")" .unclosedGroup rest).outcome.map fun (_, rest) => (.group inner, rest) := by
  rw [tier.eq_def 0]
  simp only [kind, opens, if_true, Reading.outcome_behind, Reading.outcome_andThen, Reading.outcome_map]

theorem primary_operator {token : Token} (rest : List Token) (kind : token.kind = .operator)
    (other : token.literal ≠ "(") :
    (tier 0 (token :: rest)).outcome = .error (.expectedExpression, token :: rest) := by
  rw [tier.eq_def 0]
  simp only [kind, other, if_false, Reading.outcome_blocked]

/-- What a tier does behind its left operand. -/
def operation (level : Nat) (left : Expression) : List Token → Outcome Expression
  | [] => .ok (left, [])
  | token :: rest =>
    if token.literal ∈ operators (level + 1) then
      (tier level rest).outcome.map fun (right, rest) => (.binary token.literal left right, rest)
    else .ok (left, token :: rest)

theorem tier_succ (level : Nat) (tokens : List Token) :
    (tier (level + 1) tokens).outcome =
      (tier level tokens).outcome.bind fun (left, rest) => operation level left rest := by
  rw [tier]
  apply Reading.outcome_bind
  intro left rest shorter
  cases rest with
  | nil => rfl
  | cons token rest =>
    dsimp only [operation]
    split <;> simp

/-- What a call does behind one of its arguments. -/
def continuation (argument : Expression) : List Token → Outcome (List Expression)
  | [] => .error (.invalidArgument, [])
  | token :: rest =>
    if token.literal = "," then
      if rest.head?.any (·.kind = .operator) then .error (.trailingComma, token :: rest)
      else (arguments rest).outcome.map fun (others, rest) => (argument :: others, rest)
    else if token.literal = ")" then .ok ([argument], rest)
    else .error (.invalidArgument, token :: rest)

theorem arguments_nil : (arguments []).outcome = .error (.unexpectedEnd, []) := by
  rw [arguments]
  rfl

theorem arguments_close {token : Token} (rest : List Token) (closes : token.literal = ")") :
    (arguments (token :: rest)).outcome = .ok ([], rest) := by
  rw [arguments]
  simp only [closes, if_true, Reading.outcome_taken]

theorem arguments_cons {token : Token} (rest : List Token) (open' : token.literal ≠ ")") :
    (arguments (token :: rest)).outcome =
      (tier 3 (token :: rest)).outcome.bind fun (argument, rest) => continuation argument rest := by
  rw [arguments]
  simp only [open', if_false]
  apply Reading.outcome_bind
  intro argument rest shorter
  cases rest with
  | nil => rfl
  | cons token rest =>
    dsimp only [continuation]
    split
    · split <;> simp
    · split <;> simp

/-! Statements. -/

private theorem closed_eq_ok {α : Type} {literal : String} {fault : Fault} {f : Expression → α} {tokens : List Token}
    {result : α × List Token} :
    ((expression tokens).andThen fun value rest => (expect literal fault rest).map fun _ => f value).outcome =
        .ok result ↔
      ∃ value closing rest, (tier 3 tokens).outcome = .ok (value, closing :: rest) ∧
        closing.literal = literal ∧ (f value, rest) = result := by
  simp only [Reading.outcome_andThen, Reading.outcome_map, Outcome.bind_eq_ok, Outcome.map_eq_ok, expression]
  constructor
  · intro parts
    obtain ⟨value, left, read, _, rest, closed, same⟩ := parts
    obtain ⟨closing, literal, rfl⟩ := expect_eq_ok.mp closed
    exact ⟨value, closing, rest, read, literal, same⟩
  · intro parts
    obtain ⟨value, closing, rest, read, literal, same⟩ := parts
    exact ⟨value, closing :: rest, read, (), rest, expect_eq_ok.mpr ⟨closing, literal, rfl⟩, same⟩

/-- The words that introduce a statement. -/
def keywords : List String := ["IF", "WHILE", "LET"]

section dispatch

variable {token : Token} (rest : List Token) (kind : token.kind = .identifier)
include kind

theorem statement_eq_conditional (literal : token.literal = "IF") :
    statement (token :: rest) = (conditional rest).behind := by
  rw [statement.eq_def]
  simp [kind, literal]

theorem statement_eq_loop (literal : token.literal = "WHILE") : statement (token :: rest) = (loop rest).behind := by
  rw [statement.eq_def]
  simp [kind, literal]

theorem statement_eq_declaration (literal : token.literal = "LET") :
    statement (token :: rest) = (declaration rest).behind := by
  rw [statement.eq_def]
  simp [kind, literal]

theorem statement_eq_assignment {sign : Token} (plain : token.literal ∉ keywords) (equals : sign.literal = "=") :
    statement (token :: sign :: rest) = assignment token sign rest := by
  simp only [keywords, List.mem_cons, List.not_mem_nil, or_false, not_or] at plain
  rw [statement]
  simp [kind, plain, equals]

theorem statement_conditional (literal : token.literal = "IF") :
    (statement (token :: rest)).reading.outcome = (conditional rest).reading.outcome := by
  simp [statement_eq_conditional rest kind literal]

theorem statement_loop (literal : token.literal = "WHILE") :
    (statement (token :: rest)).reading.outcome = (loop rest).reading.outcome := by
  simp [statement_eq_loop rest kind literal]

theorem statement_declaration (literal : token.literal = "LET") :
    (statement (token :: rest)).reading.outcome = (declaration rest).reading.outcome := by
  simp [statement_eq_declaration rest kind literal]

theorem statement_assignment {sign : Token} (plain : token.literal ∉ keywords) (equals : sign.literal = "=") :
    (statement (token :: sign :: rest)).reading.outcome = (assignment token sign rest).reading.outcome := by
  rw [statement_eq_assignment rest kind plain equals]

end dispatch

theorem statement_eq_expression {tokens : List Token}
    (plain : ∀ token ∈ tokens.head?, token.kind = .identifier → token.literal ∉ keywords)
    (unassigned : ∀ token sign rest, tokens = token :: sign :: rest → token.kind = .identifier →
      sign.literal ≠ "=") : statement tokens = expressionStatement tokens := by
  rw [statement.eq_def]
  cases tokens with
  | nil => rfl
  | cons token rest =>
    by_cases kind : token.kind = .identifier
    · have other := plain token rfl kind
      simp only [keywords, List.mem_cons, List.not_mem_nil, or_false, not_or] at other
      simp only [kind, other, if_true, if_false]
      cases rest with
      | nil => rfl
      | cons sign rest => simp only [unassigned token sign rest rfl kind, if_false]
    · simp only [kind, if_false]

theorem statement_expression {tokens : List Token}
    (plain : ∀ token ∈ tokens.head?, token.kind = .identifier → token.literal ∉ keywords)
    (unassigned : ∀ token sign rest, tokens = token :: sign :: rest → token.kind = .identifier →
      sign.literal ≠ "=") :
    (statement tokens).reading.outcome = (expressionStatement tokens).reading.outcome := by
  rw [statement_eq_expression plain unassigned]

/-- What the first tokens tell about the rule that reads a statement. -/
inductive Dispatch (token : Token) (tail : List Token) : Prop where
  | conditional (kind : token.kind = .identifier) (literal : token.literal = "IF")
  | loop (kind : token.kind = .identifier) (literal : token.literal = "WHILE")
  | declaration (kind : token.kind = .identifier) (literal : token.literal = "LET")
  | assignment {sign : Token} {rest : List Token} (kind : token.kind = .identifier)
      (plain : token.literal ∉ keywords) (split : tail = sign :: rest) (equals : sign.literal = "=")
  | expression
      (plain : ∀ first ∈ (token :: tail).head?, first.kind = .identifier → first.literal ∉ keywords)
      (unassigned : ∀ first sign rest, token :: tail = first :: sign :: rest → first.kind = .identifier →
        sign.literal ≠ "=")

theorem dispatch (token : Token) (tail : List Token) : Dispatch token tail := by
  by_cases kind : token.kind = .identifier
  · by_cases plain : token.literal ∈ keywords
    · simp only [keywords, List.mem_cons, List.not_mem_nil, or_false] at plain
      rcases plain with literal | literal | literal
      · exact .conditional kind literal
      · exact .loop kind literal
      · exact .declaration kind literal
    · by_cases assigned : ∃ sign rest, tail = sign :: rest ∧ sign.literal = "="
      · obtain ⟨sign, rest, split, equals⟩ := assigned
        exact .assignment kind plain split equals
      · refine .expression ?_ ?_
        · intro first member _
          cases member
          exact plain
        · intro first sign rest split _ equals
          exact assigned ⟨sign, rest, (List.cons.inj split).2, equals⟩
  · refine .expression ?_ ?_
    · intro first member identifier
      cases member
      exact absurd identifier kind
    · intro first sign rest split identifier
      rw [(List.cons.inj split).1] at kind
      exact absurd identifier kind

theorem expressionStatement_eq_ok {tokens : List Token} {result : Statement × List Token} :
    (expressionStatement tokens).reading.outcome = .ok result ↔
      ∃ value semicolon rest, (tier 3 tokens).outcome = .ok (value, semicolon :: rest) ∧
        semicolon.literal = ";" ∧ (.expression value, rest) = result :=
  closed_eq_ok

theorem assignment_eq_ok {name sign : Token} {tokens : List Token} {result : Statement × List Token} :
    (assignment name sign tokens).reading.outcome = .ok result ↔
      ∃ value semicolon rest, (tier 3 tokens).outcome = .ok (value, semicolon :: rest) ∧
        semicolon.literal = ";" ∧ (.assignment name.literal value, rest) = result := by
  simp only [assignment, Traced.reading_simple, Reading.outcome_behind]
  exact closed_eq_ok

theorem condition_eq_ok {keyword : String} {tokens : List Token} {result : Expression × List Token} :
    (condition keyword tokens).outcome = .ok result ↔
      ∃ value closing rest, (tier 3 tokens).outcome = .ok (value, closing :: rest) ∧
        closing.literal = keyword ∧ (value, rest) = result :=
  closed_eq_ok

theorem initializer_eq_ok {tokens : List Token} {result : Option Expression × List Token} :
    (initializer tokens).outcome = .ok result ↔
      (∃ semicolon rest, tokens = semicolon :: rest ∧ semicolon.literal = ";" ∧ (none, rest) = result) ∨
      ∃ sign left value semicolon rest, tokens = sign :: left ∧ sign.literal = "=" ∧
        (tier 3 left).outcome = .ok (value, semicolon :: rest) ∧ semicolon.literal = ";" ∧
        (some value, rest) = result := by
  cases tokens with
  | nil =>
    have refused : (initializer []).outcome = .error (.missingSemicolon, []) := rfl
    simp [refused]
  | cons token left =>
    by_cases equals : token.literal = "="
    · have other : token.literal ≠ ";" := by simp [equals]
      have assigned : (initializer (token :: left)).outcome = .ok result ↔
          ∃ value semicolon rest, (tier 3 left).outcome = .ok (value, semicolon :: rest) ∧
            semicolon.literal = ";" ∧ (some value, rest) = result := by
        simp only [initializer, equals, if_true, Reading.outcome_behind]
        exact closed_eq_ok
      rw [assigned]
      constructor
      · intro parts
        obtain ⟨value, semicolon, rest, read, closed, same⟩ := parts
        exact .inr ⟨token, left, value, semicolon, rest, rfl, equals, read, closed, same⟩
      · intro parts
        rcases parts with ⟨_, _, here, closed, _⟩ | ⟨_, _, value, semicolon, rest, here, _, read, closed, same⟩
        · cases here
          exact absurd closed other
        · cases here
          exact ⟨value, semicolon, rest, read, closed, same⟩
    · have bare : (initializer (token :: left)).outcome =
          (expect ";" .missingSemicolon (token :: left)).outcome.map fun (_, rest) => (none, rest) := by
        simp only [initializer, equals, if_false, Reading.outcome_map, expectSemicolon]
      rw [bare, Outcome.map_eq_ok]
      constructor
      · intro parts
        obtain ⟨_, rest, closed, same⟩ := parts
        obtain ⟨semicolon, literal, here⟩ := expect_eq_ok.mp closed
        exact .inl ⟨semicolon, rest, here, literal, same⟩
      · intro parts
        rcases parts with ⟨semicolon, rest, here, closed, same⟩ | ⟨_, _, _, _, _, here, sign, _⟩
        · exact ⟨(), rest, expect_eq_ok.mpr ⟨semicolon, closed, here⟩, same⟩
        · cases here
          exact absurd sign equals

theorem declaration_eq_ok {tokens : List Token} {result : Statement × List Token} :
    (declaration tokens).reading.outcome = .ok result ↔
      ∃ name colon typeName left value rest, tokens = name :: colon :: typeName :: left ∧
        name.kind = .identifier ∧ colon.literal = ":" ∧ typeName.kind = .identifier ∧
        (initializer left).outcome = .ok (value, rest) ∧
        (.declaration name.literal typeName.literal value, rest) = result := by
  simp only [declaration, Traced.reading_simple, Reading.outcome_andThen, Reading.outcome_map,
    Outcome.bind_eq_ok, Outcome.map_eq_ok]
  constructor
  · intro parts
    obtain ⟨_, _, named, _, _, separated, _, _, typed, value, rest, read, same⟩ := parts
    obtain ⟨name, nameKind, rfl, rfl⟩ := expectIdentifier_eq_ok.mp named
    obtain ⟨colon, literal, rfl⟩ := expect_eq_ok.mp separated
    obtain ⟨typeName, typeKind, rfl, rfl⟩ := expectIdentifier_eq_ok.mp typed
    exact ⟨name, colon, typeName, _, value, rest, rfl, nameKind, literal, typeKind, read, same⟩
  · intro parts
    obtain ⟨name, colon, typeName, left, value, rest, here, nameKind, literal, typeKind, read, same⟩ := parts
    subst here
    exact ⟨_, _, expectIdentifier_eq_ok.mpr ⟨name, nameKind, rfl, rfl⟩,
      _, _, expect_eq_ok.mpr ⟨colon, literal, rfl⟩,
      _, _, expectIdentifier_eq_ok.mpr ⟨typeName, typeKind, rfl, rfl⟩, value, rest, read, same⟩

theorem declaration_outcome (tokens : List Token) :
    (declaration tokens).reading.outcome =
      (expectIdentifier .missingName tokens).outcome.bind fun (name, rest) =>
        (expect ":" .missingColon rest).outcome.bind fun (_, rest) =>
          (expectIdentifier .missingTypeName rest).outcome.bind fun (typeName, rest) =>
            (initializer rest).outcome.map fun (value, rest) => (.declaration name typeName value, rest) := by
  simp only [declaration, Traced.reading_simple, Reading.outcome_andThen, Reading.outcome_map]

theorem conditional_outcome (tokens : List Token) :
    (conditional tokens).reading.outcome =
      (condition "THEN" tokens).outcome.bind fun (value, rest) =>
        (branches rest).reading.outcome.map fun ((thenBody, elseBody), rest) =>
          (.conditional value thenBody elseBody, rest) := by
  rw [conditional, Traced.reading_bind]
  apply Reading.outcome_bind
  intro value rest shorter
  simp

theorem loop_outcome (tokens : List Token) :
    (loop tokens).reading.outcome =
      (condition "DO" tokens).outcome.bind fun (value, rest) =>
        (block rest).reading.outcome.map fun (body, rest) => (.loop value body, rest) := by
  rw [loop, Traced.reading_bind]
  apply Reading.outcome_bind
  intro value rest shorter
  simp

theorem block_nil : (block []).reading.outcome = .error (.missingKeyword "END", []) := by
  rw [block]
  rfl

theorem block_end {token : Token} (rest : List Token) (literal : token.literal = "END") :
    (block (token :: rest)).reading.outcome = .ok ([], rest) := by
  rw [block]
  simp [literal]

theorem block_cons {token : Token} (rest : List Token) (literal : token.literal ≠ "END") :
    (block (token :: rest)).reading.outcome =
      (statement (token :: rest)).reading.outcome.bind fun (first, rest) =>
        (block rest).reading.outcome.map fun (others, rest) => (first :: others, rest) := by
  rw [block]
  simp only [literal, if_false, Traced.reading_bind]
  apply Reading.outcome_bind
  intro first rest shorter
  simp

theorem branches_nil : (branches []).reading.outcome = .error (.missingKeyword "END", []) := by
  rw [branches]
  rfl

theorem branches_end {token : Token} (rest : List Token) (literal : token.literal = "END") :
    (branches (token :: rest)).reading.outcome = .ok (([], []), rest) := by
  rw [branches]
  simp [literal]

theorem branches_else {token : Token} (rest : List Token) (literal : token.literal = "ELSE") :
    (branches (token :: rest)).reading.outcome =
      (block rest).reading.outcome.map fun (elseBody, rest) => (([], elseBody), rest) := by
  rw [branches]
  simp [literal]

theorem branches_cons {token : Token} (rest : List Token) (last : token.literal ≠ "END")
    (other : token.literal ≠ "ELSE") :
    (branches (token :: rest)).reading.outcome =
      (statement (token :: rest)).reading.outcome.bind fun (first, rest) =>
        (branches rest).reading.outcome.map fun ((thenBody, elseBody), rest) =>
          ((first :: thenBody, elseBody), rest) := by
  rw [branches]
  simp only [last, other, if_false, Traced.reading_bind]
  apply Reading.outcome_bind
  intro first rest shorter
  simp

end Parsing

end PlcJava
