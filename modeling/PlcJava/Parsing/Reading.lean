import PlcJava.Token

/-! What reading a phrase from the head of a list of tokens gives: the phrase and the tokens
behind it, or a fault and the tokens from where it was found. The type carries the progress
of the reader, so that phrases inside phrases can be read by recursion on the tokens left. -/

set_option autoImplicit false

namespace PlcJava

inductive Fault where
  | missingSemicolon
  | missingName
  | missingColon
  | missingTypeName
  | missingKeyword (keyword : String)
  | unclosedGroup
  | trailingComma
  | invalidArgument
  | expectedExpression
  | unexpectedEnd
  | malformedNumber
deriving DecidableEq

def Fault.message : Fault → String
  | .missingSemicolon => "expected ';' at the end of a statement"
  | .missingName => "expected a variable name after 'LET'"
  | .missingColon => "expected ':' after the declared name"
  | .missingTypeName => "expected a type name after ':'"
  | .missingKeyword keyword => "expected '" ++ keyword ++ "'"
  | .unclosedGroup => "expected ')' to close the parenthesized expression"
  | .trailingComma => "expected an expression after ','"
  | .invalidArgument => "expected ',' or ')' after a function argument"
  | .expectedExpression => "expected the beginning of an expression"
  | .unexpectedEnd => "unexpected end of input"
  | .malformedNumber => "malformed numeric literal"

/-- A phrase read from the head of `tokens`. Success takes at least one token. -/
inductive Reading (tokens : List Token) (α : Type) where
  | done (value : α) (rest : List Token) (shorter : rest.length < tokens.length)
  | stuck (fault : Fault) (rest : List Token) (inside : rest.length ≤ tokens.length)

namespace Reading

variable {tokens : List Token} {α β : Type}

/-- The fault stands at the first token. -/
def blocked (fault : Fault) : Reading tokens α := stuck fault tokens (Nat.le_refl _)

def taken {token : Token} (value : α) : Reading (token :: tokens) α :=
  done value tokens (Nat.lt_succ_self _)

/-- The phrase goes on behind the first token. -/
def behind {token : Token} : Reading tokens α → Reading (token :: tokens) α
  | done value rest shorter => done value rest (Nat.lt_succ_of_lt shorter)
  | stuck fault rest inside => stuck fault rest (Nat.le_succ_of_le inside)

/-- The phrase goes on with the tokens that an earlier part has left. -/
def after {left : List Token} (reading : Reading left α) (shorter : left.length < tokens.length) :
    Reading tokens α :=
  match reading with
  | done value rest less => done value rest (Nat.lt_trans less shorter)
  | stuck fault rest inside => stuck fault rest (Nat.le_of_lt (Nat.lt_of_le_of_lt inside shorter))

def map (f : α → β) : Reading tokens α → Reading tokens β
  | done value rest shorter => done (f value) rest shorter
  | stuck fault rest inside => stuck fault rest inside

def bind (reading : Reading tokens α)
    (next : α → (rest : List Token) → rest.length < tokens.length → Reading tokens β) :
    Reading tokens β :=
  match reading with
  | done value rest shorter => next value rest shorter
  | stuck fault rest inside => stuck fault rest inside

/-- Go on when a part was read, with a part that takes tokens of its own. -/
def andThen (reading : Reading tokens α) (next : α → (rest : List Token) → Reading rest β) :
    Reading tokens β :=
  reading.bind fun value rest shorter => (next value rest).after shorter

/-- What was read, or the fault, with the tokens from there on. Readings of different tokens
can be compared by it. -/
def outcome : Reading tokens α → Except (Fault × List Token) (α × List Token)
  | done value rest _ => .ok (value, rest)
  | stuck fault rest _ => .error (fault, rest)

@[simp]
theorem outcome_done (value : α) (rest : List Token) (shorter : rest.length < tokens.length) :
    (done value rest shorter).outcome = .ok (value, rest) := rfl

@[simp]
theorem outcome_stuck (fault : Fault) (rest : List Token) (inside : rest.length ≤ tokens.length) :
    (stuck fault rest inside : Reading tokens α).outcome = .error (fault, rest) := rfl

@[simp]
theorem outcome_blocked (fault : Fault) :
    (blocked fault : Reading tokens α).outcome = .error (fault, tokens) := rfl

@[simp]
theorem outcome_taken {token : Token} (value : α) :
    (taken value : Reading (token :: tokens) α).outcome = .ok (value, tokens) := rfl

@[simp]
theorem outcome_behind {token : Token} (reading : Reading tokens α) :
    (reading.behind : Reading (token :: tokens) α).outcome = reading.outcome := by
  cases reading <;> rfl

@[simp]
theorem outcome_after {left : List Token} (reading : Reading left α)
    (shorter : left.length < tokens.length) : (reading.after shorter).outcome = reading.outcome := by
  cases reading <;> rfl

@[simp]
theorem outcome_map (f : α → β) (reading : Reading tokens α) :
    (reading.map f).outcome = reading.outcome.map fun (value, rest) => (f value, rest) := by
  cases reading <;> rfl

@[simp]
theorem outcome_andThen (reading : Reading tokens α) (next : α → (rest : List Token) → Reading rest β) :
    (reading.andThen next).outcome =
      reading.outcome.bind fun (value, rest) => (next value rest).outcome := by
  cases reading with
  | done value rest shorter => exact outcome_after _ shorter
  | stuck fault rest inside => rfl

end Reading

namespace Parsing

/-- The token with this text, of any kind. -/
def expect (literal : String) (fault : Fault) : (tokens : List Token) → Reading tokens Unit
  | [] => .blocked fault
  | token :: _ => if token.literal = literal then .taken () else .blocked fault

def expectKeyword (keyword : String) (tokens : List Token) : Reading tokens Unit :=
  expect keyword (.missingKeyword keyword) tokens

def expectSemicolon (tokens : List Token) : Reading tokens Unit := expect ";" .missingSemicolon tokens

def expectIdentifier (fault : Fault) : (tokens : List Token) → Reading tokens String
  | [] => .blocked fault
  | token :: _ => if token.kind = .identifier then .taken token.literal else .blocked fault

end Parsing

end PlcJava
