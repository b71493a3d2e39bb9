import PlcJava.Proofs.Outcome
import PlcJava.Proofs.Spelling

/-! How far the parser looks. What a rule answers is settled by the words of the tokens it has
taken and of the next few: it asks neither where in a text a token stands nor what comes
later. -/

set_option autoImplicit false

namespace PlcJava

/-- The first tokens of two lists have the same words, and the lists end together if they end
there. -/
def Alike (count : Nat) (first second : List Token) : Prop :=
  (first.map Token.word).take count = (second.map Token.word).take count

namespace Alike

variable {few many count : Nat} {token : Token} {first second tail : List Token}

private theorem of_words (same : first.map Token.word = second.map Token.word) : Alike count first second :=
  congrArg (List.take count) same

private theorem mono (alike : Alike many first second) (fewer : few ≤ many) : Alike few first second := by
  have shorter := congrArg (List.take few) alike
  rwa [List.take_take, List.take_take, Nat.min_eq_left fewer] at shorter

private theorem drop {skipped : Nat} (alike : Alike (skipped + count) first second) :
    Alike count (first.drop skipped) (second.drop skipped) := by
  have behind := congrArg (List.drop skipped) alike
  rw [List.drop_take, List.drop_take, Nat.add_sub_cancel_left] at behind
  rwa [Alike, List.map_drop, List.map_drop]

private theorem nil (alike : Alike (count + 1) [] second) : second = [] := by
  cases second with
  | nil => rfl
  | cons => cases alike

private theorem cons (alike : Alike (count + 1) (token :: tail) second) :
    ∃ other rest, second = other :: rest ∧ other.word = token.word ∧ Alike count tail rest := by
  cases second with
  | nil => cases alike
  | cons other rest =>
    obtain ⟨heads, tails⟩ := List.cons.inj alike
    exact ⟨other, rest, rfl, heads.symm, tails⟩

private theorem head (alike : Alike 1 first second) (property : Word → Prop)
    (holds : ∀ next ∈ first.head?, property next.word) : ∀ next ∈ second.head?, property next.word := by
  cases first with
  | nil =>
    rw [alike.nil]
    exact nofun
  | cons token tail =>
    obtain ⟨other, rest, rfl, same, _⟩ := alike.cons
    intro next member
    cases member
    rw [same]
    exact holds token rfl

theorem take_append (within : count ≤ first.length) (more : List Token) :
    Alike count first (first.take count ++ more) := by
  have size : count = (first.take count).length := by rw [List.length_take, Nat.min_eq_left within]
  rw [Alike, List.map_append, List.take_append_of_le_length (by rw [List.length_map]; exact Nat.le_of_eq size),
    List.map_take, List.take_take, Nat.min_self]

end Alike

private theorem Token.kind_eq {first second : Token} (same : first.word = second.word) : first.kind = second.kind :=
  (Word.mk.inj same).1

private theorem Token.literal_eq {first second : Token} (same : first.word = second.word) :
    first.literal = second.literal :=
  (Word.mk.inj same).2

/-- How many tokens are looked at from the place of the fault on. A malformed number has been
taken by then, and a comma is at fault for the token behind it. -/
def Fault.window : Fault → Nat
  | .trailingComma => 2
  | .malformedNumber => 0
  | _ => 1

namespace Outcome

variable {α β : Type}

def left : Outcome α → List Token
  | .ok (_, rest) => rest
  | .error (_, rest) => rest

/-- A phrase is read only when the token behind it does not go on with it. -/
def window : Outcome α → Nat
  | .ok _ => 1
  | .error (fault, _) => fault.window

def moved (rest : List Token) : Outcome α → Outcome α
  | .ok (value, _) => .ok (value, rest)
  | .error (fault, _) => .error (fault, rest)

private theorem left_moved (rest : List Token) (outcome : Outcome α) : left (moved rest outcome) = rest := by
  cases outcome <;> rfl

private theorem moved_left (outcome : Outcome α) : moved (left outcome) outcome = outcome := by
  cases outcome <;> rfl

private theorem window_moved (rest : List Token) (outcome : Outcome α) :
    window (moved rest outcome) = window outcome := by
  cases outcome <;> rfl

private theorem moved_moved (first second : List Token) (outcome : Outcome α) :
    moved first (moved second outcome) = moved first outcome := by
  cases outcome <;> rfl

end Outcome

open Outcome (left window moved)

/-- A rule takes this many tokens, and what it answers is settled by them and by the window
behind them. -/
structure Settles {α : Type} (read : List Token → Outcome α) (tokens : List Token) (position : Nat) : Prop where
  inside : position ≤ tokens.length
  left : left (read tokens) = tokens.drop position
  seen : window (read tokens) = 2 → position + 2 ≤ tokens.length
  again : ∀ others, Alike (position + window (read tokens)) tokens others →
    read others = moved (others.drop position) (read tokens)

/-- A rule is settled by tokens of which it has looked at the first, or at the end. -/
def Local {α : Type} (read : List Token → Outcome α) (tokens : List Token) : Prop :=
  ∃ position, Settles read tokens position ∧ 0 < position + window (read tokens)

section composition

variable {α β : Type} {read : List Token → Outcome α} {token : Token} {tokens tail : List Token}

private theorem Settles.here (seen : window (read tokens) = 2 → 2 ≤ tokens.length)
    (same : ∀ others, Alike (window (read tokens)) tokens others → read others = moved others (read tokens)) :
    Settles read tokens 0 := by
  refine ⟨Nat.zero_le _, ?_, by rwa [Nat.zero_add], by rwa [Nat.zero_add]⟩
  have stays := congrArg Outcome.left (same tokens rfl)
  rwa [Outcome.left_moved] at stays

namespace Local

private theorem nil (ends : left (read []) = []) (looks : window (read []) = 1) : Local read [] := by
  refine ⟨0, ?_, by omega⟩
  refine .here (by omega) ?_
  intro others alike
  rw [looks] at alike
  have stays := Outcome.moved_left (read [])
  rw [ends] at stays
  rw [alike.nil, stays]

private theorem stop (outcome : Outcome α) (looks : window outcome = 1)
    (step : ∀ other rest, other.word = token.word → read (other :: rest) = moved (other :: rest) outcome) :
    Local read (token :: tail) := by
  have here := step token tail rfl
  have same : window (read (token :: tail)) = 1 := by rw [here, Outcome.window_moved, looks]
  refine ⟨0, ?_, by omega⟩
  refine .here (by omega) ?_
  intro others alike
  rw [same] at alike
  obtain ⟨other, rest, rfl, words, _⟩ := alike.cons
  rw [step other rest words, here, Outcome.moved_moved]

/-- The rule goes on behind the first token. Which way it goes may depend on the token there. -/
theorem behind {next : List Token → Outcome α}
    (step : ∀ other rest, other.word = token.word → Alike 1 tail rest → read (other :: rest) = next rest)
    (later : Local next tail) : Local read (token :: tail) := by
  obtain ⟨position, settles, looks⟩ := later
  have here := step token tail rfl rfl
  refine ⟨position + 1, ⟨?_, ?_, ?_, ?_⟩, by omega⟩
  · exact Nat.succ_le_succ settles.inside
  · rw [here, settles.left, List.drop_succ_cons]
  · intro two
    rw [here] at two
    have seen := settles.seen two
    rw [List.length_cons]
    omega
  · intro others alike
    rw [here, Nat.add_right_comm] at alike
    obtain ⟨other, rest, rfl, words, behind⟩ := alike.cons
    rw [step other rest words (behind.mono looks), here, List.drop_succ_cons]
    exact settles.again rest behind

private theorem done (value : α) (tokens : List Token) : Local (fun tokens => .ok (value, tokens)) tokens :=
  ⟨0, .here nofun fun _ _ => rfl, Nat.one_pos⟩

private theorem taken (value : α)
    (step : ∀ other rest, other.word = token.word → read (other :: rest) = .ok (value, rest)) :
    Local read (token :: tail) :=
  behind (fun other rest same _ => step other rest same) (done value tail)

private theorem malformed
    (step : ∀ other rest, other.word = token.word → read (other :: rest) = .error (.malformedNumber, rest)) :
    Local read (token :: tail) := by
  have here := step token tail rfl
  refine ⟨1, ⟨by simp, ?_, ?_, ?_⟩, by omega⟩
  · rw [here]
    rfl
  · rw [here]
    exact nofun
  · intro others alike
    obtain ⟨other, rest, rfl, words, _⟩ := (alike.mono (Nat.le_add_right 1 _)).cons
    rw [step other rest words, here]
    rfl

theorem bind {next : α → List Token → Outcome β} (first : Local read tokens)
    (later : ∀ value rest, read tokens = .ok (value, rest) → Local (next value) rest) :
    Local (fun tokens => (read tokens).bind fun (value, rest) => next value rest) tokens := by
  obtain ⟨position, settles, looks⟩ := first
  cases answer : read tokens with
  | error fault =>
    have here : ((read tokens).bind fun (value, rest) => next value rest) = .error fault := by rw [answer]; rfl
    rw [answer] at looks
    refine ⟨position, ⟨settles.inside, ?_, ?_, ?_⟩, ?_⟩
    · have ends := settles.left
      rw [answer] at ends
      simp only [here]
      exact ends
    · have seen := settles.seen
      rw [answer] at seen
      simp only [here]
      exact seen
    · intro others alike
      have again := settles.again others
      rw [answer] at again
      simp only [here] at alike ⊢
      rw [again alike]
      rfl
    · simp only [here]
      exact looks
  | ok result =>
    obtain ⟨value, rest⟩ := result
    obtain ⟨further, onward, looksOn⟩ := later value rest answer
    have ends : rest = tokens.drop position := by
      have ends := settles.left
      rwa [answer] at ends
    subst ends
    have here : ((read tokens).bind fun (value, rest) => next value rest) = next value (tokens.drop position) := by
      rw [answer]
      rfl
    have inside := settles.inside
    have insideOn := onward.inside
    rw [List.length_drop] at insideOn
    refine ⟨position + further, ⟨by omega, ?_, ?_, ?_⟩, ?_⟩
    · simp only [here]
      rw [onward.left, List.drop_drop]
    · intro two
      simp only [here] at two
      have seen := onward.seen two
      rw [List.length_drop] at seen
      omega
    · intro others alike
      simp only [here] at alike ⊢
      rw [Nat.add_assoc] at alike
      have first := settles.again others
      rw [answer] at first
      rw [first (alike.mono (Nat.add_le_add_left looksOn position)), ← List.drop_drop]
      exact onward.again _ alike.drop
    · simp only [here]
      omega

theorem map (f : α → β) (first : Local read tokens) :
    Local (fun tokens => (read tokens).map fun (value, rest) => (f value, rest)) tokens := by
  have mapped : (fun tokens => (read tokens).map fun (value, rest) => (f value, rest)) =
      fun tokens => (read tokens).bind fun (value, rest) => .ok (f value, rest) := by
    funext tokens
    cases read tokens <;> rfl
  rw [mapped]
  exact first.bind fun value rest _ => done (f value) rest

theorem congr {next : List Token → Outcome α} (count : Nat)
    (same : ∀ others, Alike count tokens others → read others = next others)
    (enough : ∀ position, Settles next tokens position → 0 < position + window (next tokens) →
      count ≤ position + window (next tokens))
    (later : Local next tokens) : Local read tokens := by
  obtain ⟨position, settles, looks⟩ := later
  have here := same tokens rfl
  refine ⟨position, ⟨settles.inside, ?_, ?_, ?_⟩, ?_⟩
  · rw [here]
    exact settles.left
  · rw [here]
    exact settles.seen
  · intro others alike
    rw [here] at alike ⊢
    rw [same others (alike.mono (enough position settles looks))]
    exact settles.again others alike
  · rw [here]
    exact looks

end Local

end composition

namespace Parsing

theorem expect_local (literal : String) (fault : Fault) (plain : fault.window = 1) (tokens : List Token) :
    Local (fun tokens => (expect literal fault tokens).outcome) tokens := by
  cases tokens with
  | nil => exact .nil rfl plain
  | cons token tail =>
    by_cases found : token.literal = literal
    · refine .taken () fun other rest same => ?_
      rw [expect_cons, Token.literal_eq same, if_pos found]
    · refine .stop (.error (fault, [])) plain fun other rest same => ?_
      rw [expect_cons, Token.literal_eq same, if_neg found]
      rfl

theorem expectIdentifier_local (fault : Fault) (plain : fault.window = 1) (tokens : List Token) :
    Local (fun tokens => (expectIdentifier fault tokens).outcome) tokens := by
  cases tokens with
  | nil => exact .nil rfl plain
  | cons token tail =>
    by_cases found : token.kind = .identifier
    · refine .taken token.literal fun other rest same => ?_
      rw [expectIdentifier_cons, Token.kind_eq same, Token.literal_eq same, if_pos found]
    · refine .stop (.error (fault, [])) plain fun other rest same => ?_
      rw [expectIdentifier_cons, Token.kind_eq same, if_neg found]
      rfl

private theorem operation_local {level : Nat} (left : Expression) {tokens : List Token}
    (later : ∀ sign rest, tokens = sign :: rest → Local (fun tokens => (tier level tokens).outcome) rest) :
    Local (operation level left) tokens := by
  cases tokens with
  | nil => exact .nil rfl rfl
  | cons sign rest =>
    by_cases binds : sign.literal ∈ operators (level + 1)
    · refine .behind (fun other rest same _ => ?_) ((later sign rest rfl).map (.binary sign.literal left))
      simp only [operation, Token.literal_eq same, binds, if_true]
    · refine .stop (.ok (left, [])) rfl fun other rest same => ?_
      simp only [operation, Token.literal_eq same, binds, if_false]
      rfl

private theorem operator_head_eq {first second : List Token} (alike : Alike 1 first second) :
    second.head?.any (·.kind = .operator) = first.head?.any (·.kind = .operator) := by
  cases first with
  | nil => rw [alike.nil]
  | cons token tail =>
    obtain ⟨other, rest, rfl, same, _⟩ := alike.cons
    rw [List.head?_cons, List.head?_cons, Option.any_some, Option.any_some, Token.kind_eq same]

private theorem continuation_local (argument : Expression) {tokens : List Token}
    (later : ∀ comma rest, tokens = comma :: rest → Local (fun tokens => (arguments tokens).outcome) rest) :
    Local (continuation argument) tokens := by
  cases tokens with
  | nil => exact .nil rfl rfl
  | cons comma rest =>
    by_cases separates : comma.literal = ","
    · cases follows : rest.head?.any (·.kind = .operator) with
      | true =>
        -- The only fault for which a second token is looked at.
        have fails (other : Token) (behind : List Token) (same : other.word = comma.word)
            (alike : Alike 1 rest behind) :
            continuation argument (other :: behind) = .error (.trailingComma, other :: behind) := by
          simp only [continuation, Token.literal_eq same, separates, operator_head_eq alike, follows, if_true]
        have here := fails comma rest rfl rfl
        refine ⟨0, .here ?_ ?_, by rw [here]; exact Nat.two_pos⟩
        · cases rest with
          | nil => cases follows
          | cons => exact fun _ => by simp
        · intro others alike
          rw [here] at alike ⊢
          obtain ⟨other, behind, rfl, same, alike⟩ := alike.cons
          exact fails other behind same alike
      | false =>
        refine .behind (fun other behind same alike => ?_) ((later comma rest rfl).map (argument :: ·))
        simp only [continuation, Token.literal_eq same, separates, operator_head_eq alike, follows, if_true,
          Bool.false_eq_true, if_false]
    · by_cases closes : comma.literal = ")"
      · refine .taken [argument] fun other rest same => ?_
        rw [continuation, Token.literal_eq same, if_neg separates, if_pos closes]
      · refine .stop (.error (.invalidArgument, [])) rfl fun other rest same => ?_
        rw [continuation, Token.literal_eq same, if_neg separates, if_neg closes]
        rfl

mutual
theorem tier_local (level : Nat) (tokens : List Token) :
    Local (fun tokens => (tier level tokens).outcome) tokens := by
  match level, tokens with
  | 0, [] => exact .nil (by rw [primary_nil]; rfl) (by rw [primary_nil]; rfl)
  | 0, token :: tail =>
    cases kind : token.kind with
    | integer =>
      cases number : Integer.read? token.literal with
      | some value =>
        refine .taken (.literal (.integer value)) fun other rest same => ?_
        rw [primary_integer rest ((Token.kind_eq same).trans kind), Token.literal_eq same, number]
      | none =>
        refine .malformed fun other rest same => ?_
        rw [primary_integer rest ((Token.kind_eq same).trans kind), Token.literal_eq same, number]
    | decimal =>
      cases number : Decimal.read? token.literal with
      | some value =>
        refine .taken (.literal (.decimal value)) fun other rest same => ?_
        rw [primary_decimal rest ((Token.kind_eq same).trans kind), Token.literal_eq same, number]
      | none =>
        refine .malformed fun other rest same => ?_
        rw [primary_decimal rest ((Token.kind_eq same).trans kind), Token.literal_eq same, number]
    | string =>
      refine .taken (.literal (.string (unquote token.literal))) fun other rest same => ?_
      rw [primary_string rest ((Token.kind_eq same).trans kind), Token.literal_eq same]
    | identifier =>
      by_cases closed : ∀ next ∈ tail.head?, next.literal ≠ "("
      · refine .behind (fun other rest same alike => ?_) (.done (named token.literal) tail)
        rw [primary_name ((Token.kind_eq same).trans kind) (alike.head (·.literal ≠ "(") closed), Token.literal_eq same]
      · match tail with
        | [] => simp at closed
        | opening :: tail =>
          have opens : opening.literal = "(" := by simpa using closed
          have later : Local (fun rest => (arguments rest.tail).outcome.map fun (values, rest) =>
              (Expression.call token.literal values, rest)) (opening :: tail) :=
            .behind (fun _ _ _ _ => rfl) ((arguments_local tail).map (Expression.call token.literal))
          refine .behind (fun other rest same alike => ?_) later
          obtain ⟨next, rest, rfl, words, _⟩ := alike.cons
          rw [primary_call rest ((Token.kind_eq same).trans kind) ((Token.literal_eq words).trans opens),
            Token.literal_eq same]
          rfl
    | operator =>
      by_cases opens : token.literal = "("
      · have later : Local (fun rest => (tier 3 rest).outcome.bind fun (inner, rest) =>
            (expect ")" .unclosedGroup rest).outcome.map fun (_, rest) => (Expression.group inner, rest)) tail :=
          (tier_local 3 tail).bind fun inner rest _ =>
            (expect_local ")" .unclosedGroup rfl rest).map fun _ => Expression.group inner
        refine .behind (fun other rest same _ => ?_) later
        exact primary_group rest ((Token.kind_eq same).trans kind) ((Token.literal_eq same).trans opens)
      · refine .stop (.error (.expectedExpression, [])) rfl fun other rest same => ?_
        rw [primary_operator rest ((Token.kind_eq same).trans kind) (by rwa [Token.literal_eq same])]
        rfl
  | level + 1, tokens =>
    simp only [tier_succ]
    refine (tier_local level tokens).bind fun left rest read => ?_
    have shorter := Reading.shorter_of_outcome read
    exact operation_local left fun sign behind here => tier_local level behind
termination_by 5 * tokens.length + level
decreasing_by
  all_goals subst_vars; simp only [List.length_cons] at *; omega

theorem arguments_local (tokens : List Token) : Local (fun tokens => (arguments tokens).outcome) tokens := by
  match tokens with
  | [] => exact .nil (by rw [arguments_nil]; rfl) (by rw [arguments_nil]; rfl)
  | token :: tail =>
    by_cases closes : token.literal = ")"
    · refine .taken [] fun other rest same => ?_
      rw [arguments_close rest ((Token.literal_eq same).trans closes)]
    · have first : ∀ others, Alike 1 (token :: tail) others → (arguments others).outcome =
          (tier 3 others).outcome.bind fun (argument, rest) => continuation argument rest := by
        intro others alike
        obtain ⟨other, rest, rfl, same, _⟩ := alike.cons
        rw [arguments_cons rest (by rwa [Token.literal_eq same])]
      refine .congr 1 first (fun _ _ looks => looks) ?_
      refine (tier_local 3 (token :: tail)).bind fun argument rest read => ?_
      have shorter := Reading.shorter_of_outcome read
      exact continuation_local argument fun comma behind here => arguments_local behind
termination_by 5 * tokens.length + 4
decreasing_by
  all_goals subst_vars; simp only [List.length_cons] at *; omega
end

/-! Statements. -/

theorem closed_local {α : Type} (literal : String) (fault : Fault) (plain : fault.window = 1) (f : Expression → α)
    (tokens : List Token) :
    Local (fun tokens => ((expression tokens).andThen fun value rest =>
      (expect literal fault rest).map fun _ => f value).outcome) tokens := by
  simp only [Reading.outcome_andThen, Reading.outcome_map]
  exact (tier_local 3 tokens).bind fun value rest _ => (expect_local literal fault plain rest).map fun _ => f value

private theorem condition_local (keyword : String) (tokens : List Token) :
    Local (fun tokens => (condition keyword tokens).outcome) tokens :=
  closed_local keyword (.missingKeyword keyword) rfl id tokens

private theorem initializer_local (tokens : List Token) :
    Local (fun tokens => (initializer tokens).outcome) tokens := by
  cases tokens with
  | nil => exact .nil rfl rfl
  | cons token tail =>
    by_cases equals : token.literal = "="
    · refine .behind (fun other rest same _ => ?_) (closed_local ";" .missingSemicolon rfl some tail)
      rw [initializer, if_pos ((Token.literal_eq same).trans equals), Reading.outcome_behind]
      rfl
    · have bare : ∀ others, Alike 1 (token :: tail) others → (initializer others).outcome =
          (expect ";" .missingSemicolon others).outcome.map fun (_, rest) => (none, rest) := by
        intro others alike
        obtain ⟨other, rest, rfl, same, _⟩ := alike.cons
        rw [initializer, if_neg (by rwa [Token.literal_eq same]), Reading.outcome_map]
        rfl
      exact .congr 1 bare (fun _ _ looks => looks) ((expect_local ";" .missingSemicolon rfl _).map fun _ => none)

theorem declaration_local (tokens : List Token) :
    Local (fun tokens => (declaration tokens).reading.outcome) tokens := by
  rw [funext declaration_outcome]
  exact (expectIdentifier_local .missingName rfl tokens).bind fun name rest _ =>
    (expect_local ":" .missingColon rfl rest).bind fun _ rest _ =>
      (expectIdentifier_local .missingTypeName rfl rest).bind fun typeName rest _ =>
        (initializer_local rest).map (Statement.declaration name typeName)

/-- An expression that begins with an identifier fails behind its second token at the
earliest. -/
theorem tier_identifier (level : Nat) {token : Token} {tail rest : List Token} {fault : Fault}
    (kind : token.kind = .identifier) (failed : (tier level (token :: tail)).outcome = .error (fault, rest)) :
    rest.length < tail.length := by
  induction level with
  | zero =>
    by_cases closed : ∀ next ∈ tail.head?, next.literal ≠ "("
    · rw [primary_name kind closed] at failed
      cases failed
    · match tail with
      | [] => simp at closed
      | opening :: tail =>
        rw [primary_call tail kind (by simpa using closed), Outcome.map_eq_error] at failed
        exact Nat.lt_succ_of_le (Reading.inside_of_outcome failed)
  | succ level ih =>
    rw [tier_succ, Outcome.bind_eq_error] at failed
    rcases failed with failed | ⟨left, behind, read, failed⟩
    · exact ih failed
    · have shorter := Reading.shorter_of_outcome read
      match behind with
      | [] => cases failed
      | sign :: behind =>
        dsimp only [operation] at failed
        split at failed
        next =>
          have inside := Reading.inside_of_outcome (Outcome.map_eq_error.mp failed)
          simp only [List.length_cons] at shorter
          omega
        next => cases failed

theorem expressionStatement_local (tokens : List Token) :
    Local (fun tokens => (expressionStatement tokens).reading.outcome) tokens :=
  closed_local ";" .missingSemicolon rfl Statement.expression tokens

/-- So the token behind the identifier is always looked at. -/
theorem expressionStatement_reach {token : Token} {tail : List Token} {position : Nat}
    (kind : token.kind = .identifier)
    (settles : Settles (fun tokens => (expressionStatement tokens).reading.outcome) (token :: tail) position) :
    2 ≤ position + window (expressionStatement (token :: tail)).reading.outcome := by
  have ends := congrArg List.length settles.left
  have inside := settles.inside
  rw [List.length_drop] at ends
  rw [List.length_cons] at ends inside
  rcases answer : (expressionStatement (token :: tail)).reading.outcome with ⟨fault, rest⟩ | ⟨value, rest⟩
  · simp only [answer, left] at ends
    have parts := answer
    simp only [expressionStatement, Traced.reading_simple, Reading.outcome_andThen, Reading.outcome_map,
      Outcome.bind_eq_error, Outcome.map_eq_error] at parts
    rcases parts with failed | ⟨value, behind, read, failed⟩
    · have later := tier_identifier 3 kind failed
      omega
    · have shorter := Reading.shorter_of_outcome read
      rw [List.length_cons] at shorter
      cases expect_eq_error failed
      simp only [window, Fault.window]
      omega
  · simp only [answer, left] at ends
    have shorter := Reading.shorter_of_outcome answer
    rw [List.length_cons] at shorter
    simp only [window]
    omega

private theorem statement_local_expression {tokens : List Token}
    (plain : ∀ token ∈ tokens.head?, token.kind = .identifier → token.literal ∉ keywords)
    (unassigned : ∀ token sign rest, tokens = token :: sign :: rest → token.kind = .identifier →
      sign.literal ≠ "=") :
    Local (fun tokens => (statement tokens).reading.outcome) tokens := by
  have begins {others : List Token} (alike : Alike 1 tokens others) :
      ∀ token ∈ others.head?, token.kind = .identifier → token.literal ∉ keywords :=
    alike.head (fun word => word.kind = .identifier → word.literal ∉ keywords) plain
  by_cases identifier : ∃ token tail, tokens = token :: tail ∧ token.kind = .identifier
  · obtain ⟨token, tail, rfl, kind⟩ := identifier
    have second : ∀ sign ∈ tail.head?, sign.literal ≠ "=" := by
      intro sign member
      cases tail with
      | nil => cases member
      | cons head tail =>
        cases member
        exact unassigned token sign tail rfl kind
    refine .congr 2 (fun others alike => ?_) ?_ (expressionStatement_local _)
    · apply statement_expression (begins (alike.mono (by omega)))
      intro first sign rest here _
      subst here
      obtain ⟨_, _, same, _, behind⟩ := alike.cons
      cases same
      exact behind.head (·.literal ≠ "=") second sign rfl
    · exact fun position settles _ => expressionStatement_reach kind settles
  · refine .congr 1 (fun others alike => ?_) (fun _ _ looks => looks) (expressionStatement_local _)
    apply statement_expression (begins alike)
    intro first sign rest here kind
    subst here
    cases tokens with
    | nil => cases alike.nil
    | cons token tail =>
      obtain ⟨_, _, same, words, _⟩ := alike.cons
      cases same
      exact absurd ⟨token, tail, rfl, (Token.kind_eq words).symm.trans kind⟩ identifier

private theorem statement_local_assignment {name sign : Token} {tail : List Token} (kind : name.kind = .identifier)
    (plain : name.literal ∉ keywords) (equals : sign.literal = "=") :
    Local (fun tokens => (statement tokens).reading.outcome) (name :: sign :: tail) := by
  have later := closed_local ";" .missingSemicolon rfl (Statement.assignment name.literal) tail
  have signed : Local (fun rest => ((expression rest.tail).andThen fun value rest =>
      (expect ";" .missingSemicolon rest).map fun _ => Statement.assignment name.literal value).outcome)
      (sign :: tail) :=
    .behind (fun _ _ _ _ => rfl) later
  refine .behind (fun other rest same alike => ?_) signed
  obtain ⟨next, rest, rfl, words, _⟩ := alike.cons
  rw [← Token.literal_eq same] at plain ⊢
  rw [statement_assignment rest ((Token.kind_eq same).trans kind) plain ((Token.literal_eq words).trans equals)]
  simp only [assignment, Traced.reading_simple, Reading.outcome_behind]
  rfl

mutual
theorem statement_local (tokens : List Token) : Local (fun tokens => (statement tokens).reading.outcome) tokens := by
  match tokens with
  | [] => exact statement_local_expression (by simp) (by simp)
  | token :: tail =>
    cases dispatch token tail with
    | conditional kind isIf =>
      refine .behind (fun other rest same _ => ?_) (conditional_local tail)
      exact statement_conditional rest ((Token.kind_eq same).trans kind) ((Token.literal_eq same).trans isIf)
    | loop kind isWhile =>
      refine .behind (fun other rest same _ => ?_) (loop_local tail)
      exact statement_loop rest ((Token.kind_eq same).trans kind) ((Token.literal_eq same).trans isWhile)
    | declaration kind isLet =>
      refine .behind (fun other rest same _ => ?_) (declaration_local tail)
      exact statement_declaration rest ((Token.kind_eq same).trans kind) ((Token.literal_eq same).trans isLet)
    | assignment kind plain split equals =>
      rw [split]
      exact statement_local_assignment kind plain equals
    | expression plain unassigned => exact statement_local_expression plain unassigned
termination_by 3 * tokens.length
decreasing_by all_goals simp only [List.length_cons]; omega

theorem conditional_local (tokens : List Token) :
    Local (fun tokens => (conditional tokens).reading.outcome) tokens := by
  rw [funext conditional_outcome]
  exact (condition_local "THEN" tokens).bind fun value rest read =>
    have shorter := Reading.shorter_of_outcome read
    (branches_local rest).map fun (thenBody, elseBody) => Statement.conditional value thenBody elseBody
termination_by 3 * tokens.length + 2
decreasing_by omega

theorem loop_local (tokens : List Token) : Local (fun tokens => (loop tokens).reading.outcome) tokens := by
  rw [funext loop_outcome]
  exact (condition_local "DO" tokens).bind fun value rest read =>
    have shorter := Reading.shorter_of_outcome read
    (block_local rest).map (Statement.loop value)
termination_by 3 * tokens.length + 2
decreasing_by omega

theorem branches_local (tokens : List Token) :
    Local (fun tokens => (branches tokens).reading.outcome) tokens := by
  match tokens with
  | [] => exact .nil (by rw [branches_nil]; rfl) (by rw [branches_nil]; rfl)
  | token :: tail =>
    by_cases isEnd : token.literal = "END"
    · refine .taken ([], []) fun other rest same => ?_
      exact branches_end rest ((Token.literal_eq same).trans isEnd)
    · by_cases isElse : token.literal = "ELSE"
      · refine .behind (fun other rest same _ => ?_) ((block_local tail).map fun elseBody => ([], elseBody))
        exact branches_else rest ((Token.literal_eq same).trans isElse)
      · have first : ∀ others, Alike 1 (token :: tail) others → (branches others).reading.outcome =
            (statement others).reading.outcome.bind fun (first, rest) =>
              (branches rest).reading.outcome.map fun ((thenBody, elseBody), rest) =>
                ((first :: thenBody, elseBody), rest) := by
          intro others alike
          obtain ⟨other, rest, rfl, same, _⟩ := alike.cons
          exact branches_cons rest (by rwa [Token.literal_eq same]) (by rwa [Token.literal_eq same])
        refine .congr 1 first (fun _ _ looks => looks) ?_
        exact (statement_local (token :: tail)).bind fun first rest read =>
          have shorter := Reading.shorter_of_outcome read
          (branches_local rest).map fun (thenBody, elseBody) => (first :: thenBody, elseBody)
termination_by 3 * tokens.length + 1
decreasing_by all_goals simp only [List.length_cons] at *; omega

theorem block_local (tokens : List Token) : Local (fun tokens => (block tokens).reading.outcome) tokens := by
  match tokens with
  | [] => exact .nil (by rw [block_nil]; rfl) (by rw [block_nil]; rfl)
  | token :: tail =>
    by_cases isEnd : token.literal = "END"
    · refine .taken [] fun other rest same => ?_
      exact block_end rest ((Token.literal_eq same).trans isEnd)
    · have first : ∀ others, Alike 1 (token :: tail) others → (block others).reading.outcome =
          (statement others).reading.outcome.bind fun (first, rest) =>
            (block rest).reading.outcome.map fun (others, rest) => (first :: others, rest) := by
        intro others alike
        obtain ⟨other, rest, rfl, same, _⟩ := alike.cons
        exact block_cons rest (by rwa [Token.literal_eq same])
      refine .congr 1 first (fun _ _ looks => looks) ?_
      exact (statement_local (token :: tail)).bind fun first rest read =>
        have shorter := Reading.shorter_of_outcome read
        (block_local rest).map (first :: ·)
termination_by 3 * tokens.length + 1
decreasing_by all_goals simp only [List.length_cons] at *; omega
end

end Parsing

/-! Programs. -/

def Pass.outcome (pass : Pass) : Outcome Program :=
  match pass.result with
  | .ok program => .ok (program, pass.rest)
  | .error fault => .error (fault, pass.rest)

namespace Parsing

theorem pass_nil : (pass []).outcome = .ok ([], []) := by
  rw [pass]
  rfl

theorem pass_cons (token : Token) (tail : List Token) :
    (pass (token :: tail)).outcome =
      (statement (token :: tail)).reading.outcome.bind fun (first, rest) =>
        (pass rest).outcome.map fun (others, rest) => (first :: others, rest) := by
  rw [Parsing.pass]
  cases (statement (token :: tail)).reading with
  | stuck fault rest inside => rfl
  | done first rest shorter =>
    simp only [Pass.outcome, Reading.outcome_done, Except.bind]
    cases (pass rest).result <;> rfl

theorem pass_local (tokens : List Token) : Local (fun tokens => (pass tokens).outcome) tokens := by
  match tokens with
  | [] => exact .nil (by rw [pass_nil]; rfl) (by rw [pass_nil]; rfl)
  | token :: tail =>
    have first : ∀ others, Alike 1 (token :: tail) others → (pass others).outcome =
        (statement others).reading.outcome.bind fun (first, rest) =>
          (pass rest).outcome.map fun (others, rest) => (first :: others, rest) := by
      intro others alike
      obtain ⟨other, rest, rfl, _, _⟩ := alike.cons
      exact pass_cons other rest
    refine .congr 1 first (fun _ _ looks => looks) ?_
    exact (statement_local (token :: tail)).bind fun first rest read =>
      have shorter := Reading.shorter_of_outcome read
      (pass_local rest).map (first :: ·)
termination_by tokens.length
decreasing_by exact shorter

end Parsing

/-- The answer of a reading of so many tokens. -/
def Outcome.report {α : Type} (total : Nat) : Outcome α → Except ParseError α
  | .ok (value, _) => .ok value
  | .error (fault, rest) => .error ⟨fault, total - rest.length⟩

theorem parse_eq_report (tokens : List Token) :
    parse tokens = Outcome.report tokens.length (Parsing.pass tokens).outcome := by
  have answered : parse tokens = (Parsing.pass tokens).answer tokens.length := rfl
  rw [answered, Pass.answer, Pass.outcome]
  cases (Parsing.pass tokens).result <;> rfl

private theorem Settles.report_eq {α : Type} {read : List Token → Outcome α} {tokens others : List Token}
    {position : Nat}
    (settles : Settles read tokens position) (alike : Alike (position + window (read tokens)) tokens others) :
    Outcome.report others.length (read others) = Outcome.report tokens.length (read tokens) := by
  have sizes := congrArg List.length (alike.mono (Nat.le_add_right position _))
  have inside := settles.inside
  have ends := congrArg List.length settles.left
  simp only [List.length_take, List.length_map, List.length_drop] at sizes ends
  rw [settles.again others alike]
  rcases answer : read tokens with ⟨fault, rest⟩ | ⟨value, rest⟩
  · simp only [answer, Outcome.left] at ends
    simp only [moved, Outcome.report, List.length_drop]
    have same : others.length - (others.length - position) = tokens.length - rest.length := by omega
    rw [same]
  · rfl

theorem parse_eq_of_words {first second : List Token} (same : first.map Token.word = second.map Token.word) :
    parse first = parse second := by
  obtain ⟨position, settles, _⟩ := Parsing.pass_local second
  rw [parse_eq_report, parse_eq_report]
  exact settles.report_eq (.of_words same.symm)

theorem parse_eq_error {tokens : List Token} {error : ParseError} (failed : parse tokens = .error error) :
    Settles (fun tokens => (Parsing.pass tokens).outcome) tokens error.index ∧
      (Parsing.pass tokens).outcome = .error (error.fault, tokens.drop error.index) := by
  obtain ⟨position, settles, _⟩ := Parsing.pass_local tokens
  rw [parse_eq_report] at failed
  have inside := settles.inside
  have ends := settles.left
  rcases answer : (Parsing.pass tokens).outcome with ⟨fault, rest⟩ | ⟨program, rest⟩
  · simp only [answer, left] at ends
    rw [answer] at failed
    cases failed
    have here : tokens.length - rest.length = position := by
      rw [ends, List.length_drop]
      omega
    simp only [here]
    exact ⟨settles, by rw [ends]⟩
  · rw [answer] at failed
    cases failed

/-- An error is settled by the tokens before it and by the window at its place. -/
theorem parse_error_again {tokens others : List Token} {error : ParseError} (failed : parse tokens = .error error)
    (alike : Alike (error.index + error.fault.window) tokens others) : parse others = .error error := by
  obtain ⟨settles, answer⟩ := parse_eq_error failed
  rw [← failed, parse_eq_report, parse_eq_report]
  apply settles.report_eq
  rw [answer]
  exact alike

end PlcJava
