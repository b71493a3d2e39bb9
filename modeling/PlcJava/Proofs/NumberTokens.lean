import Mathlib
import PlcJava.Proofs.FaultPlaces
import PlcJava.Proofs.NumeralValue
import PlcJava.Proofs.ProperTree
import PlcJava.Proofs.ViablePrefix

/-! Number tokens and the numbers that they are read as. Every integer token of a text can be read, but a
decimal token may have several points, and then it is no number. A program has no such token, and where
parsing stops at one, none stands before it. -/

set_option autoImplicit false

namespace PlcJava

def points (text : String) : Nat := text.toList.count '.'

/-- Every point stands between two digits. -/
def PointsEnclosed (text : List Char) : Prop :=
  ∀ before after, text = before ++ '.' :: after →
    (∃ c ∈ before.getLast?, c.isDigit = true) ∧ ∃ c ∈ after.head?, c.isDigit = true

namespace DigitGroups

private theorem pointsEnclosed {text : List Char} (groups : DigitGroups text) : PointsEnclosed text := by
  induction groups with
  | nil =>
    intro before after split
    simp at split
  | @digit c cs digit _ ih =>
    intro before after split
    cases before with
    | nil => exact absurd (List.cons.inj split).1 (isDigit_ne_point digit)
    | cons _ before =>
      obtain ⟨⟨d, last, isDigit⟩, next⟩ := ih before after (List.cons.inj split).2
      exact ⟨⟨d, List.mem_getLast?_cons last, isDigit⟩, next⟩
  | @pair c d cs digit digit' _ ih =>
    intro before after split
    match before with
    | [] => exact absurd (List.cons.inj split).1 (isDigit_ne_point digit)
    | [_] =>
      cases split
      exact ⟨⟨c, rfl, digit⟩, d, rfl, digit'⟩
    | [_, _] =>
      cases split
      exact absurd rfl (isDigit_ne_point digit')
    | _ :: _ :: _ :: before =>
      cases split
      obtain ⟨⟨e, last, isDigit⟩, next⟩ := ih before after rfl
      exact ⟨⟨e, List.mem_getLast?_cons (List.mem_getLast?_cons (List.mem_getLast?_cons last)), isDigit⟩, next⟩

private theorem digit_or_point {text : List Char} (groups : DigitGroups text) :
    ∀ c ∈ text, c.isDigit = true ∨ c = '.' := by
  induction groups with
  | nil => simp
  | digit digit _ ih => simpa [digit] using ih
  | pair digit digit' _ ih => simpa [digit, digit'] using ih

end DigitGroups

private theorem IsRow.point_not_mem {row : List Char} (isRow : IsRow row) : '.' ∉ row :=
  fun member => isDigit_ne_point (isRow.2 '.' member) rfl

private theorem Integer.read?_of_shape {text : String} (shape : Kind.Shape .integer text.toList) :
    (read? text).isSome :=
  (read?_isSome text).mpr ⟨[], text.toList, rfl, .inl rfl, shape⟩

private theorem Decimal.read?_of_shape {text : String} (shape : Kind.Shape .decimal text.toList) :
    (read? text).isSome ↔ points text = 1 := by
  rw [read?_isSome, points]
  constructor
  · rintro ⟨sign, integral, fraction, spelt, isSign, before, after⟩
    have none : '.' ∉ sign := by rcases isSign with rfl | rfl <;> decide
    rw [spelt, List.count_append, List.count_append, List.count_cons_self, List.count_eq_zero.mpr none,
      List.count_eq_zero.mpr before.point_not_mem, List.count_eq_zero.mpr after.point_not_mem]
  · intro single
    obtain ⟨groups, point⟩ := shape
    obtain ⟨before, after, split⟩ := List.append_of_mem point
    obtain ⟨⟨c, last, _⟩, d, next, _⟩ := groups.pointsEnclosed before after split
    have digits := groups.digit_or_point
    rw [split] at digits single
    rw [List.count_append, List.count_cons_self] at single
    have noneBefore : '.' ∉ before := List.count_eq_zero.mp (by omega)
    have noneAfter : '.' ∉ after := List.count_eq_zero.mp (by omega)
    refine ⟨[], before, after, split, .inl rfl, ⟨?_, ?_⟩, ?_, ?_⟩
    · rintro rfl
      cases last
    · intro e member
      exact (digits e (by simp [member])).resolve_right fun same => noneBefore (same ▸ member)
    · rintro rfl
      cases next
    · intro e member
      exact (digits e (by simp [member])).resolve_right fun same => noneAfter (same ▸ member)

namespace Grammar

/-- The texts that the grammar asks for. -/
def marks : List String :=
  ["(", ")", ",", ";", ":", "=", "*", "/", "+", "-", "==", "!=", "THEN", "DO", "ELSE", "END"]

end Grammar

/-- What a token can be in a program: a name or a string, a number that can be read, or one of the texts that
the grammar asks for. -/
inductive Token.Usable (token : Token) : Prop where
  | identifier (kind : token.kind = .identifier)
  | string (kind : token.kind = .string)
  | integer (kind : token.kind = .integer) (read : (Integer.read? token.literal).isSome)
  | decimal (kind : token.kind = .decimal) (read : (Decimal.read? token.literal).isSome)
  | mark (known : token.literal ∈ Grammar.marks)

namespace Grammar

private theorem usable_of_literal {token : Token} {literal : String} (same : token.literal = literal)
    (known : literal ∈ marks) : token.Usable :=
  .mark (same ▸ known)

private theorem Binds.usable {level : Nat} {token : Token} (binds : Binds level token.literal) : token.Usable := by
  apply Token.Usable.mark
  generalize token.literal = literal at binds
  cases binds <;> decide

mutual
private theorem Phrase.usable {level : Nat} {tokens : List Token} {value : Expression}
    (phrase : Phrase level tokens value) : ∀ token ∈ tokens, token.Usable := by
  match phrase with
  | .integer kind read => exact List.forall_mem_singleton.mpr (.integer kind (by rw [read]; rfl))
  | .decimal kind read => exact List.forall_mem_singleton.mpr (.decimal kind (by rw [read]; rfl))
  | .string kind => exact List.forall_mem_singleton.mpr (.string kind)
  | .truth kind _ | .falsity kind _ | .reference kind _ _ => exact List.forall_mem_singleton.mpr (.identifier kind)
  | .call kind opens inner =>
    have callee : Token.Usable _ := .identifier kind
    have opening := usable_of_literal opens (by decide)
    exact List.forall_mem_cons.mpr ⟨callee, List.forall_mem_cons.mpr ⟨opening, inner.usable⟩⟩
  | .group kind opens inner closes =>
    have opening := usable_of_literal opens (by decide)
    have closing := usable_of_literal closes (by decide)
    simpa [or_imp, forall_and] using ⟨opening, inner.usable, closing⟩
  | .lift inner => exact inner.usable
  | .binary first binds second => simpa [or_imp, forall_and] using ⟨first.usable, binds.usable, second.usable⟩

private theorem Arguments.usable {tokens : List Token} {values : List Expression} (inner : Arguments tokens values) :
    ∀ token ∈ tokens, token.Usable := by
  match inner with
  | .close closes => exact List.forall_mem_singleton.mpr (usable_of_literal closes (by decide))
  | .last phrase _ closes =>
    have closing := usable_of_literal closes (by decide)
    simpa [or_imp, forall_and] using ⟨phrase.usable, closing⟩
  | .more phrase _ separates _ later =>
    have comma := usable_of_literal separates (by decide)
    simpa [or_imp, forall_and] using ⟨phrase.usable, comma, later.usable⟩
end

mutual
private theorem Clause.usable {tokens : List Token} {value : Statement} (clause : Clause tokens value) :
    ∀ token ∈ tokens, token.Usable := by
  match clause with
  | .expression inner _ ends =>
    have semicolon := usable_of_literal ends (by decide)
    simpa [or_imp, forall_and] using ⟨inner.usable, semicolon⟩
  | .declaration keywordKind _ nameKind separates typeKind ends =>
    have colon := usable_of_literal separates (by decide)
    have semicolon := usable_of_literal ends (by decide)
    simpa using ⟨.identifier keywordKind, .identifier nameKind, colon, .identifier typeKind, semicolon⟩
  | .initialized keywordKind _ nameKind separates typeKind equals inner ends =>
    have colon := usable_of_literal separates (by decide)
    have sign := usable_of_literal equals (by decide)
    have semicolon := usable_of_literal ends (by decide)
    simpa [or_imp, forall_and] using
      ⟨.identifier keywordKind, .identifier nameKind, colon, .identifier typeKind, sign, inner.usable, semicolon⟩
  | .assignment kind _ equals inner ends =>
    have sign := usable_of_literal equals (by decide)
    have semicolon := usable_of_literal ends (by decide)
    simpa [or_imp, forall_and] using ⟨.identifier kind, sign, inner.usable, semicolon⟩
  | .conditional kind _ inner begins first ends =>
    have thenWord := usable_of_literal begins (by decide)
    have endWord := usable_of_literal ends (by decide)
    simpa [or_imp, forall_and] using ⟨.identifier kind, inner.usable, thenWord, first.usable, endWord⟩
  | .alternative kind _ inner begins first turns second ends =>
    have thenWord := usable_of_literal begins (by decide)
    have elseWord := usable_of_literal turns (by decide)
    have endWord := usable_of_literal ends (by decide)
    simpa [or_imp, forall_and] using
      ⟨.identifier kind, inner.usable, thenWord, first.usable, elseWord, second.usable, endWord⟩
  | .loop kind _ inner begins first ends =>
    have doWord := usable_of_literal begins (by decide)
    have endWord := usable_of_literal ends (by decide)
    simpa [or_imp, forall_and] using ⟨.identifier kind, inner.usable, doWord, first.usable, endWord⟩

private theorem Body.usable {stops : List String} {tokens : List Token} {statements : List Statement}
    (body : Body stops tokens statements) : ∀ token ∈ tokens, token.Usable := by
  match body with
  | .nil => simp
  | .cons first _ later => simpa [or_imp, forall_and] using ⟨first.usable, later.usable⟩
end

end Grammar

private theorem DigitGroups.not_mark {literal : String} (groups : DigitGroups literal.toList)
    (some : literal.toList ≠ []) : literal ∉ Grammar.marks := by
  intro known
  have plain : Grammar.marks.all (fun mark => !mark.toList.head?.any Char.isDigit) = true := by decide
  have other := List.all_eq_true.mp plain literal known
  obtain ⟨c, cs, text⟩ := List.exists_cons_of_ne_nil some
  rw [text] at groups other
  simp [groups.first] at other

private theorem Token.Shaped.points_of_usable {token : Token} (shaped : token.Shaped) (usable : token.Usable)
    (kind : token.kind = .decimal) : points token.literal = 1 := by
  have shape := shaped.of_kind kind
  cases usable with
  | identifier other | string other | integer other _ =>
    rw [other] at kind
    cases kind
  | decimal _ read => exact (Decimal.read?_of_shape shape).mp read
  | mark known => exact absurd known (shape.1.not_mark (List.ne_nil_of_mem shape.2))

def Token.Overpointed (token : Token) : Prop := token.kind = .decimal ∧ 2 ≤ points token.literal

private theorem Token.Shaped.overpointed {token : Token} (shaped : token.Shaped) (malformed : token.Malformed) :
    token.Overpointed := by
  rcases malformed with ⟨kind, unread⟩ | ⟨kind, unread⟩
  · have read := Integer.read?_of_shape (shaped.of_kind kind)
    rw [unread] at read
    cases read
  · have shape := shaped.of_kind kind
    have several : points token.literal ≠ 1 := by
      intro single
      have read := (Decimal.read?_of_shape shape).mpr single
      rw [unread] at read
      cases read
    have some : 0 < points token.literal := List.count_pos_iff.mpr shape.2
    exact ⟨kind, by omega⟩

/-- Where a number is malformed, the tokens before it can still become a program. -/
theorem parse_malformed {tokens : List Token} {index : Nat} (failed : parse tokens = .error ⟨.malformedNumber, index⟩) :
    StandsBefore 1 tokens index Token.Malformed ∧ ∀ token ∈ tokens.take (index - 1), token.Usable := by
  have inside : index ≤ tokens.length := (parse_eq_error failed).1.inside
  have answer : (Parsing.pass tokens).outcome = .error (.malformedNumber, tokens.drop index) :=
    (parse_eq_error failed).2
  have accounts := Parsing.pass_accounts tokens
  rw [answer] at accounts
  obtain ⟨seen, split, shown⟩ := accounts
  have read : seen = tokens.take index := by
    apply List.append_cancel_right
    rw [← split, List.take_append_drop]
  rw [read, List.length_take_of_le inside] at shown
  refine ⟨shown, ?_⟩
  obtain ⟨used, behind, more, cut, place, ⟨program, body⟩, _⟩ := Grammar.pass_breaks tokens answer
  have first := shown.1
  have size := congrArg List.length cut
  simp only [List.length_append, List.length_drop, Fault.window] at size place
  have fits : tokens.take (index - 1) = used := by
    rw [cut]
    exact List.take_left' (by omega)
  intro token member
  rw [fits] at member
  exact body.usable token (List.mem_append_left more member)

/-- What is scanned as a number and what can be read as one. Every integer token can be read. Each point of a
decimal token stands between digits, and the token can be read if it has no second one. So a program has
only such decimals, and a malformed number is the first decimal with several points. -/
theorem lex_numbers_readable {source : String} {tokens : List Token} (lexed : lex source = .ok tokens) :
    (∀ token ∈ tokens, token.kind = .integer → (Integer.read? token.literal).isSome) ∧
    (∀ token ∈ tokens, token.kind = .decimal →
      0 < points token.literal ∧ PointsEnclosed token.literal.toList ∧
        ((Decimal.read? token.literal).isSome ↔ points token.literal = 1)) ∧
    (∀ program, parse tokens = .ok program → ∀ token ∈ tokens, token.kind = .decimal → points token.literal = 1) ∧
    ∀ index, parse tokens = .error ⟨.malformedNumber, index⟩ →
      0 < index ∧ (∃ token, tokens[index - 1]? = some token ∧ token.Overpointed) ∧
        ∀ token ∈ tokens.take (index - 1), ¬ token.Overpointed := by
  have shaped := lex_shaped lexed
  refine ⟨?_, ?_, ?_, ?_⟩
  · intro token member kind
    exact Integer.read?_of_shape ((shaped token member).of_kind kind)
  · intro token member kind
    have shape := (shaped token member).of_kind kind
    exact ⟨List.count_pos_iff.mpr shape.2, shape.1.pointsEnclosed, Decimal.read?_of_shape shape⟩
  · intro program read token member kind
    have body := Grammar.pass_sound tokens (Grammar.parse_eq_ok.mp read)
    exact (shaped token member).points_of_usable (body.usable token member) kind
  · intro index failed
    obtain ⟨⟨first, token, here, malformed⟩, usable⟩ := parse_malformed failed
    refine ⟨first, ⟨token, here, ?_⟩, ?_⟩
    · exact (shaped token (List.mem_of_getElem? here)).overpointed malformed
    · intro earlier member overpointed
      have clean := shaped earlier (List.mem_of_mem_take member)
      have single := clean.points_of_usable (usable earlier member) overpointed.1
      have several := overpointed.2
      omega

theorem lex_numbers_readable_points :
    (∃ tokens, lex "x = 1.5 + 1.23.4;" = .ok tokens ∧ parse tokens = .error ⟨.malformedNumber, 5⟩ ∧
      (∃ token, tokens[4]? = some token ∧ token.Overpointed) ∧ ∀ token ∈ tokens.take 4, ¬ token.Overpointed) ∧
    ∃ tokens program, lex "x = 1.5 + 2;" = .ok tokens ∧ parse tokens = .ok program ∧
      points "1.5" = 1 ∧ (Decimal.read? "1.5").isSome ∧ (Integer.read? "2").isSome := by
  have several : lex "x = 1.5 + 1.23.4;" = .ok [⟨.identifier, "x", 0⟩, ⟨.operator, "=", 2⟩, ⟨.decimal, "1.5", 4⟩,
      ⟨.operator, "+", 8⟩, ⟨.decimal, "1.23.4", 10⟩, ⟨.operator, ";", 16⟩] := by cbv
  have single : lex "x = 1.5 + 2;" = .ok [⟨.identifier, "x", 0⟩, ⟨.operator, "=", 2⟩, ⟨.decimal, "1.5", 4⟩,
      ⟨.operator, "+", 8⟩, ⟨.integer, "2", 10⟩, ⟨.operator, ";", 11⟩] := by cbv
  constructor
  · have failed : parse [⟨.identifier, "x", 0⟩, ⟨.operator, "=", 2⟩, ⟨.decimal, "1.5", 4⟩, ⟨.operator, "+", 8⟩,
        ⟨.decimal, "1.23.4", 10⟩, ⟨.operator, ";", 16⟩] = .error ⟨.malformedNumber, 5⟩ := by cbv
    exact ⟨_, several, failed, ((lex_numbers_readable several).2.2.2 5 failed).2⟩
  · have read : parse [⟨.identifier, "x", 0⟩, ⟨.operator, "=", 2⟩, ⟨.decimal, "1.5", 4⟩, ⟨.operator, "+", 8⟩,
        ⟨.integer, "2", 10⟩, ⟨.operator, ";", 11⟩] =
        .ok [.assignment "x" (.binary "+" (.literal (.decimal ⟨15, 1, Nat.one_pos⟩)) (.literal (.integer 2)))] := by cbv
    obtain ⟨integers, decimals, programs, _⟩ := lex_numbers_readable single
    have point := programs _ read ⟨.decimal, "1.5", 4⟩ (by simp) rfl
    exact ⟨_, _, single, read, point, (decimals ⟨.decimal, "1.5", 4⟩ (by simp) rfl).2.2.mpr point,
      integers ⟨.integer, "2", 10⟩ (by simp) rfl⟩

end PlcJava
