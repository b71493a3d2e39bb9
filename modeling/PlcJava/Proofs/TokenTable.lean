import Mathlib
import PlcJava.Proofs.Delimiting
import PlcJava.Proofs.ProperTree
import PlcJava.Token.Table

/-! The table of the tokens of a text determines the tokens. Nothing is escaped in it, and a string may
hold what looks like further rows; but a string ends at its second quote, and no other token holds
a line break. -/

set_option autoImplicit false

namespace PlcJava

private theorem isBlank_of_isWordPart {c : Char} (part : isWordPart c = true) : isBlank c = false := by
  rw [Bool.eq_false_iff]
  intro blank
  exact (isBlank_apart blank).1 part

private theorem DigitGroups.visible {text : List Char} (groups : DigitGroups text) : ∀ c ∈ text, isBlank c = false := by
  induction groups with
  | nil => simp
  | digit digit _ ih => simpa [isBlank_of_isWordPart (isWordPart_of_isDigit digit)] using ih
  | pair before after _ ih =>
    have point : isBlank '.' = false := by decide
    simpa [isBlank_of_isWordPart (isWordPart_of_isDigit before), point,
      isBlank_of_isWordPart (isWordPart_of_isDigit after)] using ih

namespace Kind

/-- Only a string can hold blanks. -/
theorem Shape.visible {kind : Kind} {text : List Char} (shape : kind.Shape text) (other : kind ≠ .string) :
    ∀ c ∈ text, isBlank c = false := by
  cases kind with
  | identifier =>
    obtain ⟨first, others, rfl, start, parts⟩ := shape
    intro c member
    rcases List.mem_cons.mp member with rfl | member
    · exact isBlank_of_isWordPart (isWordPart_of_isWordStart start)
    · exact isBlank_of_isWordPart (parts c member)
  | integer => exact (DigitGroups.of_digits shape.2).visible
  | decimal => exact shape.1.visible
  | string => exact absurd rfl other
  | operator =>
    rcases shape with rfl | rfl | ⟨c, rfl, visible, _⟩
    · simp [isBlank]
    · simp [isBlank]
    · simpa using visible

/-- In a row that says the kind, the text of a token shows where it ends. -/
theorem Shape.tells {kind : Kind} {first second : List Char} (shape : kind.Shape first) (shaped : kind.Shape second) :
    Tells (first ++ ['\n']) (second ++ ['\n']) (first = second) := by
  by_cases string : kind = .string
  · subst string
    obtain ⟨contents, rfl, plain⟩ := shape
    obtain ⟨others, rfl, free⟩ := shaped
    apply ((Tells.stop plain free).enclosed ['"'] ['\n']).imp
    intro same
    rw [same]
  · apply Tells.stop
    · intro member
      cases shape.visible string '\n' member
    · intro member
      cases shaped.visible string '\n' member

private theorem name_tells (first second : Kind) :
    Tells (first.name.toList ++ ['\t']) (second.name.toList ++ ['\t']) (first = second) := by
  have plain (kind : Kind) : '\t' ∉ kind.name.toList := by
    cases kind <;> decide
  apply (Tells.stop (plain first) (plain second)).imp
  intro same
  replace same := String.toList_inj.mp same
  cases first <;> cases second <;> simp_all [name]

end Kind

namespace Token

private theorem toList_row (token : Token) :
    token.row.toList = (Nat.toDigits 10 token.start ++ ['\t']) ++
      ((token.kind.name.toList ++ ['\t']) ++ (token.literal.toList ++ ['\n'])) := by
  simp [row, Nat.toList_repr]

private theorem toList_table (tokens : List Token) :
    (table tokens).toList = tokens.flatMap fun token => token.row.toList := by
  rw [table, String.toList_join, List.flatMap_map]

private theorem start_tells (first second : Nat) :
    Tells (Nat.toDigits 10 first ++ ['\t']) (Nat.toDigits 10 second ++ ['\t']) (first = second) := by
  have plain (number : Nat) : '\t' ∉ Nat.toDigits 10 number := by
    intro member
    cases isDigit_toDigits number '\t' member
  apply (Tells.stop (plain first) (plain second)).imp
  intro same
  have value := congrArg (Nat.ofDigitChars 10 · 0) same
  simpa only [Nat.ofDigitChars_ten_toDigits] using value

private theorem Shaped.row_tells {first second : Token} (shape : first.Shaped) (shaped : second.Shaped) :
    Tells first.row.toList second.row.toList (first = second) := by
  have texts (same : first.kind = second.kind) := Kind.Shape.tells shape (shaped.of_kind same.symm)
  rw [toList_row, toList_row]
  apply ((start_tells _ _).append fun _ => (Kind.name_tells _ _).append texts).imp
  intro parts
  obtain ⟨start, kind, literal⟩ := parts
  replace literal := String.toList_inj.mp literal
  cases first
  cases second
  simp_all

private theorem row_ended (token : Token) : Tells token.row.toList ['\n'] False := by
  obtain ⟨c, cs, digits⟩ := List.exists_cons_of_ne_nil (Nat.toDigits_ne_nil (n := token.start) (b := 10))
  have digit : c.isDigit = true := isDigit_toDigits token.start c (by simp [digits])
  rw [toList_row, digits]
  apply Tells.apart rfl rfl
  rintro rfl
  cases digit

/-- Two texts with the same table have the same tokens, at the same places. -/
theorem table_eq_iff_lexed {first second : String} {tokens others : List Token} (lexed : lex first = .ok tokens)
    (lexedAgain : lex second = .ok others) : table tokens = table others ↔ tokens = others := by
  constructor
  · intro same
    have each : ∀ token ∈ tokens, ∀ other ∈ others, Tells token.row.toList other.row.toList (token = other) :=
      fun token member other also => Shaped.row_tells (lex_shaped lexed token member) (lex_shaped lexedAgain other also)
    have tells := Tells.values ['\n'] each row_ended
    rw [← toList_table, ← toList_table, same] at tells
    exact (tells [] [] rfl).1
  · intro same
    rw [same]

theorem table_eq_iff_lexed_string :
    lex "\"\n3\tinteger\t7\"" = .ok [⟨.string, "\"\n3\tinteger\t7\"", 0⟩] ∧
    lex "\"\" 7" = .ok [⟨.string, "\"\"", 0⟩, ⟨.integer, "7", 3⟩] ∧
    table [⟨.string, "\"\n3\tinteger\t7\"", 0⟩] ≠ table [⟨.string, "\"\"", 0⟩, ⟨.integer, "7", 3⟩] := by
  have imitated : lex "\"\n3\tinteger\t7\"" = .ok [⟨.string, "\"\n3\tinteger\t7\"", 0⟩] := by cbv
  have real : lex "\"\" 7" = .ok [⟨.string, "\"\"", 0⟩, ⟨.integer, "7", 3⟩] := by cbv
  refine ⟨imitated, real, ?_⟩
  intro same
  simpa using (table_eq_iff_lexed imitated real).mp same

end Token

end PlcJava
