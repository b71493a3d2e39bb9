import PlcJava.Proofs.Grammar

/-! The parser reads exactly the expressions of the grammar. It takes as much as it can, which
the grammar does not mention: the two agree because no token that may stand behind an
expression can also go on with it. -/

set_option autoImplicit false

namespace PlcJava.Grammar

open Parsing

private theorem named_of_ne {name : String} (notTrue : name ≠ "TRUE") (notFalse : name ≠ "FALSE") :
    named name = .reference name := by
  unfold named
  split
  · exact absurd rfl notTrue
  · exact absurd rfl notFalse
  · rfl

private theorem Phrase.named {token : Token} (kind : token.kind = .identifier) :
    Phrase 0 [token] (Parsing.named token.literal) := by
  by_cases isTrue : token.literal = "TRUE"
  · rw [isTrue]
    exact .truth kind isTrue
  · by_cases isFalse : token.literal = "FALSE"
    · rw [isFalse]
      exact .falsity kind isFalse
    · rw [named_of_ne isTrue isFalse]
      exact .reference kind isTrue isFalse

theorem begins_of_split {token : Token} {tail used rest : List Token} {property : Token → Prop}
    (split : token :: tail = used ++ rest) (holds : property token) :
    ∀ first ∈ used.head?, property first := by
  intro first member
  cases used with
  | nil => cases member
  | cons head used =>
    cases member
    exact (List.cons.inj split).1 ▸ holds

mutual
theorem tier_sound (level : Nat) (tokens : List Token) {value : Expression} {rest : List Token}
    (read : (tier level tokens).outcome = .ok (value, rest)) :
    ∃ used, tokens = used ++ rest ∧ Phrase level used value := by
  match level, tokens with
  | 0, [] =>
    rw [primary_nil] at read
    cases read
  | 0, token :: tail =>
    cases kind : token.kind with
    | integer =>
      rw [primary_integer tail kind] at read
      split at read
      next number found => cases read; exact ⟨[token], rfl, .integer kind found⟩
      next => cases read
    | decimal =>
      rw [primary_decimal tail kind] at read
      split at read
      next number found => cases read; exact ⟨[token], rfl, .decimal kind found⟩
      next => cases read
    | string =>
      rw [primary_string tail kind] at read
      cases read
      exact ⟨[token], rfl, .string kind⟩
    | identifier =>
      by_cases closed : ∀ next ∈ tail.head?, next.literal ≠ "("
      · rw [primary_name kind closed] at read
        cases read
        exact ⟨[token], rfl, .named kind⟩
      · match tail with
        | [] => simp at closed
        | opening :: tail =>
          have opens : opening.literal = "(" := by simpa using closed
          rw [primary_call tail kind opens, Outcome.map_eq_ok] at read
          obtain ⟨values, _, read, same⟩ := read
          cases same
          obtain ⟨used, rfl, inner⟩ := arguments_sound tail read
          exact ⟨token :: opening :: used, rfl, .call kind opens inner⟩
    | operator =>
      by_cases opens : token.literal = "("
      · rw [primary_group tail kind opens, Outcome.bind_eq_ok] at read
        obtain ⟨inner, left, read, closed⟩ := read
        obtain ⟨_, _, closed, same⟩ := Outcome.map_eq_ok.mp closed
        cases same
        obtain ⟨closing, closes, rfl⟩ := expect_eq_ok.mp closed
        obtain ⟨used, rfl, phrase⟩ := tier_sound 3 tail read
        exact ⟨token :: used ++ [closing], by simp, .group kind opens phrase closes⟩
      · rw [primary_operator tail kind opens] at read
        cases read
  | level + 1, tokens =>
    rw [tier_succ, Outcome.bind_eq_ok] at read
    obtain ⟨left, behind, readLeft, read⟩ := read
    have shorter := Reading.shorter_of_outcome readLeft
    obtain ⟨before, split, first⟩ := tier_sound level tokens readLeft
    match behind with
    | [] =>
      cases read
      exact ⟨before, split, .lift first⟩
    | sign :: behind =>
      dsimp only [operation] at read
      split at read
      next binds =>
        obtain ⟨right, _, readRight, same⟩ := Outcome.map_eq_ok.mp read
        cases same
        obtain ⟨after, rfl, second⟩ := tier_sound level behind readRight
        exact ⟨before ++ sign :: after, by simp [split], .binary first (binds_iff.mpr binds) second⟩
      next =>
        cases read
        exact ⟨before, split, .lift first⟩
termination_by 5 * tokens.length + level
decreasing_by all_goals simp only [List.length_cons] at *; omega

private theorem arguments_sound (tokens : List Token) {values : List Expression} {rest : List Token}
    (read : (arguments tokens).outcome = .ok (values, rest)) :
    ∃ used, tokens = used ++ rest ∧ Arguments used values := by
  match tokens with
  | [] =>
    rw [arguments_nil] at read
    cases read
  | token :: tail =>
    by_cases closes : token.literal = ")"
    · rw [arguments_close tail closes] at read
      cases read
      exact ⟨[token], rfl, .close closes⟩
    · rw [arguments_cons tail closes, Outcome.bind_eq_ok] at read
      obtain ⟨argument, behind, readFirst, read⟩ := read
      have shorter := Reading.shorter_of_outcome readFirst
      obtain ⟨used, split, phrase⟩ := tier_sound 3 (token :: tail) readFirst
      have opens : ∀ first ∈ used.head?, first.literal ≠ ")" := begins_of_split split closes
      match behind with
      | [] => cases read
      | comma :: behind =>
        dsimp only [continuation] at read
        split at read
        next separates =>
          split at read
          next => cases read
          next follows =>
            obtain ⟨others, _, readOthers, same⟩ := Outcome.map_eq_ok.mp read
            cases same
            obtain ⟨later, rfl, inner⟩ := arguments_sound behind readOthers
            refine ⟨used ++ comma :: later, by simp [split], .more phrase opens separates ?_ inner⟩
            intro next member operator
            apply follows
            match later with
            | [] => cases member
            | head :: later => cases member; simp [operator]
        next =>
          split at read
          next closes =>
            cases read
            exact ⟨used ++ [comma], by simp [split], .last phrase opens closes⟩
          next => cases read
termination_by 5 * tokens.length + 4
decreasing_by all_goals simp only [List.length_cons] at *; omega
end

/-- The tokens cannot go on a phrase of the given tier: they open no call and bind no further
operand. -/
def Closed (level : Nat) (rest : List Token) : Prop :=
  ∀ next ∈ rest.head?, next.literal ≠ "(" ∧ ∀ tier ≤ level, ¬ Binds tier next.literal

private theorem Closed.mono {low high : Nat} {rest : List Token} (closed : Closed high rest) (below : low ≤ high) :
    Closed low rest :=
  fun next member => ⟨(closed next member).1, fun tier inside => (closed next member).2 tier (by omega)⟩

private theorem Binds.closed {level : Nat} {sign : Token} {rest : List Token} (binds : Binds (level + 1) sign.literal) :
    Closed level (sign :: rest) := by
  intro next member
  cases member
  refine ⟨?_, ?_⟩
  · intro opens
    exact not_binds (by rw [opens]; decide) binds
  · intro tier below other
    have same := other.rank_eq.symm.trans binds.rank_eq
    omega

/-- A text that opens no call and joins no operands closes a phrase of any tier. -/
theorem Closed.of_literal {level : Nat} {token : Token} {literal : String} (same : token.literal = literal)
    (rest : List Token) (apart : literal ≠ "(" ∧ rank literal = 0 := by decide) : Closed level (token :: rest) := by
  intro next member
  cases member
  rw [same]
  exact ⟨apart.1, fun tier _ => not_binds apart.2⟩

theorem Phrase.begins {level : Nat} {tokens : List Token} {value : Expression}
    (phrase : Phrase level tokens value) {property : Token → Prop}
    (opens : ∀ first ∈ tokens.head?, property first) : ∃ token tail, tokens = token :: tail ∧ property token := by
  obtain ⟨token, tail, rfl⟩ := List.exists_cons_of_ne_nil phrase.ne_nil
  exact ⟨token, tail, rfl, opens token rfl⟩

private theorem Arguments.not_operator {tokens : List Token} {values : List Expression}
    (inner : Arguments tokens values) (follows : ∀ next ∈ tokens.head?, next.kind ≠ .operator) (rest : List Token) :
    ¬ (tokens ++ rest).head?.any (·.kind = .operator) = true := by
  obtain ⟨token, tail, rfl⟩ := List.exists_cons_of_ne_nil inner.ne_nil
  simpa using follows token rfl

mutual
theorem Phrase.complete {level : Nat} {tokens : List Token} {value : Expression}
    (phrase : Phrase level tokens value) {rest : List Token} (closed : Closed level rest) :
    (tier level (tokens ++ rest)).outcome = .ok (value, rest) := by
  match phrase with
  | .integer kind read => exact (primary_integer rest kind).trans (by rw [read])
  | .decimal kind read => exact (primary_decimal rest kind).trans (by rw [read])
  | .string kind => exact primary_string rest kind
  | .truth kind literal =>
    exact (primary_name kind fun next member => (closed next member).1).trans (by rw [literal]; rfl)
  | .falsity kind literal =>
    exact (primary_name kind fun next member => (closed next member).1).trans (by rw [literal]; rfl)
  | .reference kind notTrue notFalse =>
    exact (primary_name kind fun next member => (closed next member).1).trans
      (by rw [named_of_ne notTrue notFalse])
  | .call kind opens inner =>
    refine (primary_call _ kind opens).trans ?_
    exact Outcome.map_eq_ok.mpr ⟨_, rest, inner.complete rest, rfl⟩
  | .group kind opens inner closes =>
    rw [List.append_assoc, List.cons_append]
    refine (primary_group _ kind opens).trans ?_
    refine Outcome.bind_eq_ok.mpr ⟨_, _, inner.complete (.of_literal closes _), ?_⟩
    exact Outcome.map_eq_ok.mpr ⟨(), rest, expect_eq_ok.mpr ⟨_, closes, rfl⟩, rfl⟩
  | .lift inner =>
    rw [tier_succ]
    refine Outcome.bind_eq_ok.mpr ⟨_, _, inner.complete (closed.mono (Nat.le_succ _)), ?_⟩
    cases rest with
    | nil => rfl
    | cons next rest =>
      have apart : next.literal ∉ operators _ := fun member =>
        (closed next rfl).2 _ (Nat.le_refl _) (binds_iff.mpr member)
      simp only [operation, apart, if_false]
  | .binary first binds second =>
    rw [List.append_assoc, List.cons_append, tier_succ]
    refine Outcome.bind_eq_ok.mpr ⟨_, _, first.complete binds.closed, ?_⟩
    simp only [operation, binds_iff.mp binds, if_true]
    exact Outcome.map_eq_ok.mpr ⟨_, rest, second.complete (closed.mono (Nat.le_succ _)), rfl⟩

private theorem Arguments.complete {tokens : List Token} {values : List Expression} (inner : Arguments tokens values)
    (rest : List Token) : (arguments (tokens ++ rest)).outcome = .ok (values, rest) := by
  match inner with
  | .close closes => exact arguments_close rest closes
  | .last phrase opens closes =>
    rw [List.append_assoc]
    obtain ⟨token, tail, split, begins⟩ := phrase.begins opens
    rw [split, List.cons_append, arguments_cons _ begins, ← List.cons_append, ← split]
    refine Outcome.bind_eq_ok.mpr ⟨_, _, phrase.complete (.of_literal closes _), ?_⟩
    simp [continuation, closes]
  | .more phrase opens separates follows later =>
    rw [List.append_assoc]
    obtain ⟨token, tail, split, begins⟩ := phrase.begins opens
    rw [split, List.cons_append, arguments_cons _ begins, ← List.cons_append, ← split]
    refine Outcome.bind_eq_ok.mpr ⟨_, _, phrase.complete (.of_literal separates _), ?_⟩
    have accepted : ¬ (_ ++ rest).head?.any (·.kind = .operator) = true := later.not_operator follows rest
    simp only [continuation, List.cons_append, separates, if_true, accepted, Bool.false_eq_true, if_false]
    exact Outcome.map_eq_ok.mpr ⟨_, rest, later.complete rest, rfl⟩
end

end PlcJava.Grammar
