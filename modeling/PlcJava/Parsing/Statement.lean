import PlcJava.Statement
import PlcJava.Parsing.Expression

/-! Reading statements. Each rule leaves an entry when it begins, before anything inside it is
read, so the entries of a failed reading show how far it came. -/

set_option autoImplicit false

namespace PlcJava

inductive Rule where
  | expression
  | declaration
  | assignment
  | conditional
  | loop
deriving DecidableEq

def Rule.name : Rule → String
  | .expression => "expression statement"
  | .declaration => "declaration"
  | .assignment => "assignment"
  | .conditional => "if statement"
  | .loop => "while statement"

/-- A rule began when this many tokens were left. -/
structure Entry where
  rule : Rule
  left : Nat
deriving DecidableEq

/-- A reading with the entries of the rules that it began, in order. -/
structure Traced (tokens : List Token) (α : Type) where
  entries : List Entry
  reading : Reading tokens α

namespace Traced

variable {tokens : List Token} {α β : Type}

/-- A rule begins, with a part that begins no further rules. -/
def simple (rule : Rule) (left : Nat) (reading : Reading tokens α) : Traced tokens α :=
  ⟨[⟨rule, left⟩], reading⟩

def behind {token : Token} (traced : Traced tokens α) : Traced (token :: tokens) α :=
  ⟨traced.entries, traced.reading.behind⟩

def after {left : List Token} (traced : Traced left α) (shorter : left.length < tokens.length) :
    Traced tokens α :=
  ⟨traced.entries, traced.reading.after shorter⟩

def map (f : α → β) (traced : Traced tokens α) : Traced tokens β := ⟨traced.entries, traced.reading.map f⟩

def bind (traced : Traced tokens α)
    (next : α → (rest : List Token) → rest.length < tokens.length → Traced tokens β) :
    Traced tokens β :=
  match traced.reading with
  | .done value rest shorter =>
    let later := next value rest shorter
    ⟨traced.entries ++ later.entries, later.reading⟩
  | .stuck fault rest inside => ⟨traced.entries, .stuck fault rest inside⟩

end Traced

namespace Parsing

def expressionStatement (tokens : List Token) : Traced tokens Statement :=
  .simple .expression tokens.length <|
    (expression tokens).andThen fun value rest => (expectSemicolon rest).map fun _ => .expression value

/-- The initial value behind `=`, if there is one, and a semicolon. -/
def initializer (tokens : List Token) : Reading tokens (Option Expression) :=
  match tokens with
  | [] => (expectSemicolon []).map fun _ => none
  | token :: rest =>
    if token.literal = "=" then
      ((expression rest).andThen fun value rest => (expectSemicolon rest).map fun _ => some value).behind
    else (expectSemicolon (token :: rest)).map fun _ => none

/-- A declaration behind its `LET`: the name, a colon, the type and an initial value. -/
def declaration (tokens : List Token) : Traced tokens Statement :=
  .simple .declaration tokens.length <|
    (expectIdentifier .missingName tokens).andThen fun name rest =>
      (expect ":" .missingColon rest).andThen fun _ rest =>
        (expectIdentifier .missingTypeName rest).andThen fun typeName rest =>
          (initializer rest).map (.declaration name typeName)

/-- An assignment, whose name and sign are already known to stand there. -/
def assignment (name sign : Token) (tokens : List Token) : Traced (name :: sign :: tokens) Statement :=
  .simple .assignment (name :: sign :: tokens).length <|
    ((expression tokens).andThen fun value rest =>
      (expectSemicolon rest).map fun _ => .assignment name.literal value).behind.behind

def condition (keyword : String) (tokens : List Token) : Reading tokens Expression :=
  (expression tokens).andThen fun value rest => (expectKeyword keyword rest).map fun _ => value

mutual
/-- A keyword opens a statement only as an identifier token. -/
def statement (tokens : List Token) : Traced tokens Statement :=
  match tokens with
  | [] => expressionStatement []
  | token :: rest =>
    if token.kind = .identifier then
      if token.literal = "IF" then (conditional rest).behind
      else if token.literal = "WHILE" then (loop rest).behind
      else if token.literal = "LET" then (declaration rest).behind
      else
        match rest with
        | [] => expressionStatement [token]
        | sign :: rest =>
          if sign.literal = "=" then assignment token sign rest
          else expressionStatement (token :: sign :: rest)
    else expressionStatement (token :: rest)
termination_by 2 * tokens.length
decreasing_by all_goals grind

/-- A conditional behind its `IF`: the condition and the bodies from `THEN` to `END`. -/
def conditional (tokens : List Token) : Traced tokens Statement :=
  (Traced.simple .conditional tokens.length (condition "THEN" tokens)).bind fun value rest shorter =>
    ((branches rest).map fun (thenBody, elseBody) => .conditional value thenBody elseBody).after shorter
termination_by 2 * tokens.length
decreasing_by all_goals grind

/-- A loop behind its `WHILE`: the condition and the body from `DO` to `END`. -/
def loop (tokens : List Token) : Traced tokens Statement :=
  (Traced.simple .loop tokens.length (condition "DO" tokens)).bind fun value rest shorter =>
    ((block rest).map (.loop value)).after shorter
termination_by 2 * tokens.length
decreasing_by all_goals grind

/-- The two bodies of a conditional, to the `END` of the last one. Behind `THEN` a statement
cannot begin with `ELSE`. -/
def branches (tokens : List Token) : Traced tokens (List Statement × List Statement) :=
  match tokens with
  | [] => ⟨[], .blocked (.missingKeyword "END")⟩
  | token :: rest =>
    if token.literal = "END" then ⟨[], .taken ([], [])⟩
    else if token.literal = "ELSE" then ((block rest).map fun elseBody => ([], elseBody)).behind
    else
      (statement (token :: rest)).bind fun first rest shorter =>
        ((branches rest).map fun (thenBody, elseBody) => (first :: thenBody, elseBody)).after shorter
termination_by 2 * tokens.length + 1
decreasing_by all_goals grind

def block (tokens : List Token) : Traced tokens (List Statement) :=
  match tokens with
  | [] => ⟨[], .blocked (.missingKeyword "END")⟩
  | token :: rest =>
    if token.literal = "END" then ⟨[], .taken []⟩
    else
      (statement (token :: rest)).bind fun first rest shorter =>
        ((block rest).map (first :: ·)).after shorter
termination_by 2 * tokens.length + 1
decreasing_by all_goals grind
end

end Parsing

end PlcJava
