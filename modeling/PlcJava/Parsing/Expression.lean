import PlcJava.Expression
import PlcJava.Parsing.Reading

/-! Reading expressions. Operators bind in three tiers above the primaries, and a tier takes
at most one operator: `a + b + c` is no expression, `(a + b) + c` is one. -/

set_option autoImplicit false

namespace PlcJava.Parsing

/-- The operators of a tier. The primaries are tier zero. -/
def operators : Nat → List String
  | 1 => ["*", "/"]
  | 2 => ["+", "-"]
  | 3 => ["==", "!="]
  | _ => []

/-- The contents of a string token: its text without the first and the last character. -/
def unquote (literal : String) : String := String.ofList literal.toList.tail.dropLast

def named : String → Expression
  | "TRUE" => .literal (.boolean true)
  | "FALSE" => .literal (.boolean false)
  | name => .reference name

/-- A number token. If its text is no number, the fault stands behind it. -/
def numeral {α : Type} (literal : α → Literal) (value? : Option α) {token : Token}
    {rest : List Token} : Reading (token :: rest) Expression :=
  match value? with
  | some value => .taken (.literal (literal value))
  | none => (Reading.blocked .malformedNumber).behind

mutual
/-- An expression with no operator outside parentheses above the given tier. -/
def tier (level : Nat) (tokens : List Token) : Reading tokens Expression :=
  match level with
  | 0 =>
    match tokens with
    | [] => .blocked .unexpectedEnd
    | token :: rest =>
      match token.kind with
      | .integer => numeral .integer (Integer.read? token.literal)
      | .decimal => numeral .decimal (Decimal.read? token.literal)
      | .identifier =>
        match rest with
        | [] => .taken (named token.literal)
        | opening :: rest =>
          if opening.literal = "(" then ((arguments rest).map (.call token.literal)).behind.behind
          else .taken (named token.literal)
      | .string => .taken (.literal (.string (unquote token.literal)))
      | .operator =>
        if token.literal = "(" then
          ((tier 3 rest).andThen fun inner rest =>
            (expect ")" .unclosedGroup rest).map fun _ => .group inner).behind
        else .blocked .expectedExpression
  | level + 1 =>
    (tier level tokens).bind fun left rest shorter =>
      match rest with
      | [] => .done left [] shorter
      | token :: rest =>
        if token.literal ∈ operators (level + 1) then
          ((tier level rest).map (.binary token.literal left)).behind.after shorter
        else .done left (token :: rest) shorter
termination_by 5 * tokens.length + level
decreasing_by all_goals grind

/-- The arguments of a call with its closing parenthesis. A comma right before an operator
token is refused, so the closing parenthesis can follow a comma only if it was given another
kind. -/
def arguments (tokens : List Token) : Reading tokens (List Expression) :=
  match tokens with
  | [] => .blocked .unexpectedEnd
  | token :: rest =>
    if token.literal = ")" then .taken []
    else
      (tier 3 (token :: rest)).bind fun argument rest shorter =>
        match rest with
        | [] => (Reading.blocked .invalidArgument).after shorter
        | comma :: rest =>
          if comma.literal = "," then
            if rest.head?.any (·.kind = .operator) then (Reading.blocked .trailingComma).after shorter
            else ((arguments rest).map (argument :: ·)).behind.after shorter
          else if comma.literal = ")" then (Reading.taken [argument]).after shorter
          else (Reading.blocked .invalidArgument).after shorter
termination_by 5 * tokens.length + 4
decreasing_by all_goals grind
end

def expression (tokens : List Token) : Reading tokens Expression := tier 3 tokens

end PlcJava.Parsing
