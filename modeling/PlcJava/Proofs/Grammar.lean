import PlcJava.Proofs.Outcome

/-! The grammar of programs over tokens. It says which tokens form a phrase and never how they
are read: a phrase knows nothing of the tokens around it, and no rule has a place in an order.
Texts match whatever the kind of their token, except where a rule asks for a kind. -/

set_option autoImplicit false

namespace PlcJava.Grammar

open Parsing (keywords unquote)

/-- The tier at which an operator joins its operands. -/
inductive Binds : Nat → String → Prop where
  | times : Binds 1 "*"
  | divided : Binds 1 "/"
  | plus : Binds 2 "+"
  | minus : Binds 2 "-"
  | equal : Binds 3 "=="
  | unequal : Binds 3 "!="

mutual
/-- Tokens that form an expression with no operator outside parentheses above a tier. A tier
joins at most two operands of the tier below. -/
inductive Phrase : Nat → List Token → Expression → Prop where
  | integer {token : Token} {value : Int} (kind : token.kind = .integer)
      (read : Integer.read? token.literal = some value) : Phrase 0 [token] (.literal (.integer value))
  | decimal {token : Token} {value : Decimal} (kind : token.kind = .decimal)
      (read : Decimal.read? token.literal = some value) : Phrase 0 [token] (.literal (.decimal value))
  | string {token : Token} (kind : token.kind = .string) :
      Phrase 0 [token] (.literal (.string (unquote token.literal)))
  | truth {token : Token} (kind : token.kind = .identifier) (literal : token.literal = "TRUE") :
      Phrase 0 [token] (.literal (.boolean true))
  | falsity {token : Token} (kind : token.kind = .identifier) (literal : token.literal = "FALSE") :
      Phrase 0 [token] (.literal (.boolean false))
  | reference {token : Token} (kind : token.kind = .identifier) (notTrue : token.literal ≠ "TRUE")
      (notFalse : token.literal ≠ "FALSE") : Phrase 0 [token] (.reference token.literal)
  | call {name opening : Token} {tokens : List Token} {values : List Expression}
      (kind : name.kind = .identifier) (opens : opening.literal = "(") (inner : Arguments tokens values) :
      Phrase 0 (name :: opening :: tokens) (.call name.literal values)
  | group {opening closing : Token} {tokens : List Token} {value : Expression}
      (kind : opening.kind = .operator) (opens : opening.literal = "(") (inner : Phrase 3 tokens value)
      (closes : closing.literal = ")") : Phrase 0 (opening :: tokens ++ [closing]) (.group value)
  | lift {level : Nat} {tokens : List Token} {value : Expression} (inner : Phrase level tokens value) :
      Phrase (level + 1) tokens value
  | binary {level : Nat} {before after : List Token} {sign : Token} {left right : Expression}
      (first : Phrase level before left) (binds : Binds (level + 1) sign.literal)
      (second : Phrase level after right) :
      Phrase (level + 1) (before ++ sign :: after) (.binary sign.literal left right)

/-- Tokens that form the arguments of a call with its closing parenthesis. No operator token
stands behind a comma, so a last comma needs a closing parenthesis of another kind. -/
inductive Arguments : List Token → List Expression → Prop where
  | close {closing : Token} (closes : closing.literal = ")") : Arguments [closing] []
  | last {tokens : List Token} {closing : Token} {value : Expression} (inner : Phrase 3 tokens value)
      (opens : ∀ first ∈ tokens.head?, first.literal ≠ ")") (closes : closing.literal = ")") :
      Arguments (tokens ++ [closing]) [value]
  | more {tokens others : List Token} {comma : Token} {value : Expression} {values : List Expression}
      (inner : Phrase 3 tokens value) (opens : ∀ first ∈ tokens.head?, first.literal ≠ ")")
      (separates : comma.literal = ",") (follows : ∀ next ∈ others.head?, next.kind ≠ .operator)
      (later : Arguments others values) : Arguments (tokens ++ comma :: others) (value :: values)
end

mutual
/-- Tokens that form a statement. -/
inductive Clause : List Token → Statement → Prop where
  | expression {tokens : List Token} {semicolon : Token} {value : Expression} (inner : Phrase 3 tokens value)
      (plain : ∀ first ∈ tokens.head?, first.kind = .identifier → first.literal ∉ keywords)
      (ends : semicolon.literal = ";") : Clause (tokens ++ [semicolon]) (.expression value)
  | declaration {keyword name colon typeName semicolon : Token} (keywordKind : keyword.kind = .identifier)
      (introduces : keyword.literal = "LET") (nameKind : name.kind = .identifier)
      (separates : colon.literal = ":") (typeKind : typeName.kind = .identifier)
      (ends : semicolon.literal = ";") :
      Clause [keyword, name, colon, typeName, semicolon] (.declaration name.literal typeName.literal none)
  | initialized {keyword name colon typeName sign semicolon : Token} {tokens : List Token} {value : Expression}
      (keywordKind : keyword.kind = .identifier) (introduces : keyword.literal = "LET")
      (nameKind : name.kind = .identifier) (separates : colon.literal = ":")
      (typeKind : typeName.kind = .identifier) (equals : sign.literal = "=") (inner : Phrase 3 tokens value)
      (ends : semicolon.literal = ";") :
      Clause (keyword :: name :: colon :: typeName :: sign :: tokens ++ [semicolon])
        (.declaration name.literal typeName.literal (some value))
  | assignment {name sign semicolon : Token} {tokens : List Token} {value : Expression}
      (kind : name.kind = .identifier) (plain : name.literal ∉ keywords) (equals : sign.literal = "=")
      (inner : Phrase 3 tokens value) (ends : semicolon.literal = ";") :
      Clause (name :: sign :: tokens ++ [semicolon]) (.assignment name.literal value)
  | conditional {keyword thenWord endWord : Token} {tokens inside : List Token} {value : Expression}
      {thenBody : List Statement} (kind : keyword.kind = .identifier) (introduces : keyword.literal = "IF")
      (inner : Phrase 3 tokens value) (begins : thenWord.literal = "THEN")
      (first : Body ["END", "ELSE"] inside thenBody) (ends : endWord.literal = "END") :
      Clause (keyword :: tokens ++ thenWord :: inside ++ [endWord]) (.conditional value thenBody [])
  | alternative {keyword thenWord elseWord endWord : Token} {tokens inside others : List Token}
      {value : Expression} {thenBody elseBody : List Statement} (kind : keyword.kind = .identifier)
      (introduces : keyword.literal = "IF") (inner : Phrase 3 tokens value)
      (begins : thenWord.literal = "THEN") (first : Body ["END", "ELSE"] inside thenBody)
      (turns : elseWord.literal = "ELSE") (second : Body ["END"] others elseBody)
      (ends : endWord.literal = "END") :
      Clause (keyword :: tokens ++ thenWord :: inside ++ elseWord :: others ++ [endWord])
        (.conditional value thenBody elseBody)
  | loop {keyword doWord endWord : Token} {tokens inside : List Token} {value : Expression}
      {body : List Statement} (kind : keyword.kind = .identifier) (introduces : keyword.literal = "WHILE")
      (inner : Phrase 3 tokens value) (begins : doWord.literal = "DO") (first : Body ["END"] inside body)
      (ends : endWord.literal = "END") :
      Clause (keyword :: tokens ++ doWord :: inside ++ [endWord]) (.loop value body)

/-- Tokens that form statements, none of which begins with one of the given words. -/
inductive Body : List String → List Token → List Statement → Prop where
  | nil {stops : List String} : Body stops [] []
  | cons {stops : List String} {tokens others : List Token} {first : Statement} {later : List Statement}
      (statement : Clause tokens first) (begins : ∀ token ∈ tokens.head?, token.literal ∉ stops)
      (rest : Body stops others later) : Body stops (tokens ++ others) (first :: later)
end

theorem binds_iff {level : Nat} {literal : String} : Binds level literal ↔ literal ∈ Parsing.operators level := by
  constructor
  · intro binds
    cases binds <;> decide
  · intro member
    match level with
    | 0 | _ + 4 => cases member
    | 1 | 2 | 3 =>
      simp only [Parsing.operators, List.mem_cons, List.not_mem_nil, or_false] at member
      rcases member with rfl | rfl <;> constructor

/-- The tier of an operator, and zero for any other text. -/
def rank (operator : String) : Nat :=
  if operator ∈ ["*", "/"] then 1 else if operator ∈ ["+", "-"] then 2 else if operator ∈ ["==", "!="] then 3 else 0

theorem Binds.rank_eq {level : Nat} {literal : String} (binds : Binds level literal) : rank literal = level := by
  cases binds <;> decide

theorem rank_le (literal : String) : rank literal ≤ 3 := by
  unfold rank
  split
  · omega
  · split
    · omega
    · split <;> omega

theorem binds_rank {literal : String} (positive : 0 < rank literal) : Binds (rank literal) literal := by
  rw [binds_iff]
  unfold rank at positive ⊢
  split
  next member => exact member
  next =>
    split
    next member => exact member
    next =>
      split
      next member => exact member
      next => simp_all

theorem not_binds {level : Nat} {literal : String} (other : rank literal = 0) : ¬ Binds level literal := by
  intro binds
  have same := binds.rank_eq
  cases binds <;> omega

theorem Phrase.ne_nil {level : Nat} {tokens : List Token} {value : Expression}
    (phrase : Phrase level tokens value) : tokens ≠ [] := by
  match phrase with
  | .lift inner => exact inner.ne_nil
  | .binary .. | .group .. | .call .. => simp
  | .integer .. | .decimal .. | .string .. | .truth .. | .falsity .. | .reference .. => simp

theorem Phrase.mono {low high : Nat} {tokens : List Token} {value : Expression} (below : low ≤ high)
    (phrase : Phrase low tokens value) : Phrase high tokens value := by
  induction below with
  | refl => exact phrase
  | step _ ih => exact .lift ih

theorem Phrase.join {low high : Nat} {before after : List Token} {sign : Token} {left right : Expression}
    (first : Phrase low before left) (second : Phrase high after right) (belowFirst : low < rank sign.literal)
    (belowSecond : high < rank sign.literal) :
    Phrase (rank sign.literal) (before ++ sign :: after) (.binary sign.literal left right) := by
  have binds := binds_rank (Nat.zero_lt_of_lt belowFirst)
  generalize rank sign.literal = tier at *
  cases tier with
  | zero => omega
  | succ level => exact .binary (first.mono (by omega)) binds (second.mono (by omega))

theorem Arguments.ne_nil {tokens : List Token} {values : List Expression}
    (inner : Arguments tokens values) : tokens ≠ [] := by
  cases inner <;> simp

theorem Clause.ne_nil {tokens : List Token} {statement : Statement} (clause : Clause tokens statement) :
    tokens ≠ [] := by
  cases clause <;> simp

/-- An identifier that begins a phrase is followed by a parenthesis, by an operator that binds,
or by whatever follows the phrase. -/
theorem Phrase.second {level : Nat} {tokens : List Token} {value : Expression}
    (phrase : Phrase level tokens value) (property : Token → Prop)
    (opens : ∀ token, token.literal = "(" → property token)
    (binds : ∀ token tier, Binds tier token.literal → property token) {tail rest : List Token}
    (follows : ∀ next ∈ tail.head?, property next) {first next : Token}
    (same : tokens ++ tail = first :: next :: rest) (kind : first.kind = .identifier) : property next := by
  match phrase with
  | .lift inner => exact inner.second property opens binds follows same kind
  | .binary before joins _ =>
    rw [List.append_assoc] at same
    refine before.second property opens binds ?_ same kind
    intro next member
    cases member
    exact binds _ _ joins
  | .call _ literal _ =>
    cases same
    exact opens _ literal
  | .group other _ _ _ =>
    have here := (List.cons.inj same).1
    rw [← here, other] at kind
    cases kind
  | .integer .. | .decimal .. | .string .. | .truth .. | .falsity .. | .reference .. =>
    have behind : tail = next :: rest := (List.cons.inj same).2
    exact follows next (by rw [behind]; rfl)

end PlcJava.Grammar
