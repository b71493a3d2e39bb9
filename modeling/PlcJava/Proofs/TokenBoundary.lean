import Mathlib
import PlcJava.Proofs.Lookahead
import PlcJava.Proofs.ProperTree

/-! Texts cut between two tokens. Each part is lexed as it was in the whole, although the token
before the cut no longer sees what followed it, so blanks at the cut change nothing but the
places of the later tokens. -/

set_option autoImplicit false

namespace PlcJava

def Token.shifted (count : Nat) (token : Token) : Token := { token with start := token.start + count }

private theorem Token.map_word_shifted (count : Nat) (tokens : List Token) :
    (tokens.map (shifted count)).map word = tokens.map word := by
  rw [List.map_map]
  rfl

def Sweep.shifted (count : Nat) (sweep : Sweep) : Sweep where
  tokens := sweep.tokens.map (Token.shifted count)
  error? := sweep.error?.map fun error => { error with offset := error.offset + count }
  cursor := { sweep.cursor with offset := sweep.cursor.offset + count }

private theorem Sweep.shifted_behind (count : Nat) (tokens : List Token) (sweep : Sweep) :
    (sweep.behind tokens).shifted count = (sweep.shifted count).behind (tokens.map (Token.shifted count)) := by
  simp [shifted, behind]

private theorem Sweep.answer_shifted {count : Nat} {tokens : List Token} {sweep : Sweep} :
    (sweep.shifted count).answer = .ok tokens ↔
      ∃ earlier, sweep.answer = .ok earlier ∧ tokens = earlier.map (Token.shifted count) := by
  unfold answer shifted
  cases sweep.error? with
  | none => simp [eq_comm]
  | some error => simp

namespace Cursor

/-- Where a pass begins shows only in the places it gives. -/
theorem sweep_shifted (count offset : Nat) (rest : List Char) :
    sweep ⟨offset + count, [], rest⟩ = (sweep ⟨offset, [], rest⟩).shifted count := by
  match rest with
  | [] =>
    rw [sweep_nil, sweep_nil]
    rfl
  | c :: cs =>
    cases blank : isBlank c with
    | true =>
      rw [sweep_blank blank, sweep_blank blank, Nat.add_right_comm]
      exact sweep_shifted count (offset + 1) cs
    | false =>
      have shorter : (Lexeme.scan c cs).rest.length < cs.length + 1 := Lexeme.scan_rest_shorter c cs
      cases sorted : (Lexeme.scan c cs).sort with
      | error fault =>
        rw [sweep_fault blank sorted, sweep_fault blank sorted]
        cases fault <;> simp [Sweep.shifted, Cursor.error, Nat.add_right_comm]
      | ok kind =>
        have munch := Lexeme.scan_sound blank sorted
        rw [← Lexeme.scan_text_append c cs, sweep_token munch, sweep_token munch, Sweep.shifted_behind,
          Nat.add_right_comm, sweep_shifted count (offset + (Lexeme.scan c cs).text.length) (Lexeme.scan c cs).rest]
        rfl
termination_by rest.length

private theorem sweep_at_eq_ok {place : Nat} {rest : List Char} {tokens : List Token} :
    (sweep ⟨0 + place, [], rest⟩).answer = .ok tokens ↔
      ∃ earlier, (sweep ⟨0, [], rest⟩).answer = .ok earlier ∧ tokens = earlier.map (Token.shifted place) := by
  rw [sweep_shifted place 0 rest]
  exact Sweep.answer_shifted

end Cursor

private theorem Apart.of_blank {rest : List Char} (blank : ∀ next ∈ rest.head?, isBlank next = true) : Apart rest := by
  intro next member
  obtain ⟨noPart, noSign⟩ := isBlank_apart (blank next member)
  simp only [List.mem_cons, List.not_mem_nil, or_false, not_or] at noSign
  exact ⟨by simpa using noPart, noSign.2.2.2, noSign.2.1⟩

/-- What may stand behind a cut: the text that stood there, a blank or nothing. -/
def Follows (after rest : List Char) : Prop := rest = after ∨ ∀ next ∈ rest.head?, isBlank next = true

private theorem Follows.blanks {blanks : List Char} (blank : ∀ c ∈ blanks, isBlank c = true) (after : List Char) :
    Follows after (blanks ++ after) := by
  cases blanks with
  | nil => exact .inl rfl
  | cons c cs =>
    refine .inr fun next member => ?_
    obtain rfl : c = next := by simpa using member
    exact blank c List.mem_cons_self

private theorem Munch.cut {kind : Kind} {text before after rest : List Char} (munch : Munch kind text (before ++ after))
    (follows : Follows after rest) : Munch kind text (before ++ rest) := by
  rcases follows with rfl | blank
  · exact munch
  · cases before with
    | nil => exact .of_apart munch.shape (.of_blank blank)
    | cons c cs => exact ⟨munch.shape, munch.longest⟩

/-- No token reaches over the place. -/
def Boundary (place : Nat) (tokens : List Token) : Prop :=
  ∀ token ∈ tokens, ¬ (token.start < place ∧ place < token.stop)

namespace Cursor

/-- What stands before a cut is lexed without regard to what stands behind it. -/
theorem sweep_cut {before after : List Char} {offset : Nat} {tokens : List Token}
    (read : (sweep ⟨offset, [], before ++ after⟩).answer = .ok tokens)
    (boundary : Boundary (offset + before.length) tokens) :
    ∃ first, ∀ rest, Follows after rest →
      sweep ⟨offset, [], before ++ rest⟩ = (sweep ⟨offset + before.length, [], rest⟩).behind first := by
  match before with
  | [] => exact ⟨[], fun rest _ => rfl⟩
  | c :: cs =>
    cases blank : isBlank c with
    | true =>
      rw [List.cons_append, sweep_blank blank] at read
      rw [List.length_cons, ← Nat.add_assoc, Nat.add_right_comm] at boundary
      obtain ⟨first, cut⟩ := sweep_cut read boundary
      refine ⟨first, fun rest follows => ?_⟩
      rw [List.cons_append, sweep_blank blank, cut rest follows, List.length_cons, Nat.add_assoc, Nat.add_comm 1]
    | false =>
      obtain ⟨kind, text, behind, whole, munch⟩ := sweep_visible blank read
      replace whole : c :: cs ++ after = text ++ behind := whole
      have nonempty := List.length_pos_iff.mpr munch.ne_nil
      rw [whole, sweep_token munch] at read
      obtain ⟨later, readLater, rfl⟩ := Sweep.answer_behind_eq_ok.mp read
      have ends : text.length ≤ (c :: cs).length := by
        have apart := boundary _ List.mem_cons_self
        simp only [Cursor.token, Token.stop, String.length_ofList, List.length_nil, Nat.sub_zero, List.nil_append,
          List.length_cons] at apart ⊢
        omega
      obtain ⟨others, split, rfl⟩ : ∃ others, c :: cs = text ++ others ∧ behind = others ++ after := by
        rcases List.append_eq_append_iff.mp whole with ⟨others, same, tail⟩ | ⟨others, same, tail⟩
        · have size := congrArg List.length same
          rw [List.length_append] at size
          have none := List.length_eq_zero_iff.mp (show others.length = 0 by omega)
          subst none
          exact ⟨[], by simpa using same.symm, by simpa using tail.symm⟩
        · exact ⟨others, same, tail⟩
      have size := congrArg List.length split
      rw [List.length_append] at size
      have shorter : others.length < cs.length + 1 := by
        rw [List.length_cons] at size
        omega
      have boundaryLater : Boundary (offset + text.length + others.length) later := by
        intro token member
        have apart := boundary token (List.mem_append_right _ member)
        rwa [size, ← Nat.add_assoc] at apart
      obtain ⟨first, cut⟩ := sweep_cut readLater boundaryLater
      refine ⟨[⟨kind, String.ofList text, offset⟩] ++ first, fun rest follows => ?_⟩
      rw [split, List.append_assoc, sweep_token (munch.cut follows), cut rest follows, ← Sweep.behind_append,
        List.length_append, Nat.add_assoc]
      rfl
termination_by before.length

private theorem sweep_blanks {blanks : List Char} (blank : ∀ c ∈ blanks, isBlank c = true) (offset : Nat)
    (rest : List Char) :
    sweep ⟨offset, [], blanks ++ rest⟩ = sweep ⟨offset + blanks.length, [], rest⟩ := by
  obtain ⟨tokens, words, swept⟩ := Spells.blanks blank rest offset
  rwa [List.map_eq_nil_iff.mp words, Sweep.behind_nil] at swept

end Cursor

/-- Texts with the same words are the same program, or fail to be one in the same way. -/
theorem Program.read_eq_of_words {first second : String} {tokens others : List Token} (lexed : lex first = .ok tokens)
    (lexedAgain : lex second = .ok others) (same : tokens.map Token.word = others.map Token.word) :
    Program.read first = Program.read second := by
  rw [read_eq_parse lexed, read_eq_parse lexedAgain, parse_eq_of_words same]

/-- Blanks inside no token change nothing: the parts before and behind them are lexed alone as in
the whole, up to the places of the later tokens, and the compiler gives the same text or fails
with the same error. -/
theorem compile_insert_blanks {before after blanks : String} {tokens : List Token}
    (read : lex (before ++ after) = .ok tokens) (boundary : Boundary before.length tokens)
    (blank : ∀ c ∈ blanks.toList, isBlank c = true) :
    ∃ first second, lex before = .ok first ∧ lex after = .ok second ∧
      lex (before ++ blanks ++ after) =
        .ok (first ++ second.map (Token.shifted (before.length + blanks.length))) ∧
      (first ++ second.map (Token.shifted (before.length + blanks.length))).map Token.word =
        tokens.map Token.word ∧
      compile (before ++ blanks ++ after) = compile (before ++ after) := by
  have swept : (Cursor.sweep ⟨0, [], before.toList ++ after.toList⟩).answer = .ok tokens := by
    rw [← String.toList_append]
    exact read
  obtain ⟨first, cut⟩ := Cursor.sweep_cut swept (by rwa [String.length_toList, Nat.zero_add])
  rw [cut after.toList (.inl rfl)] at swept
  obtain ⟨later, sweptLater, rfl⟩ := Sweep.answer_behind_eq_ok.mp swept
  obtain ⟨second, lexedAfter, rfl⟩ := Cursor.sweep_at_eq_ok.mp sweptLater
  have lexedBefore : lex before = .ok first := by
    have alone := cut [] (.inr (by simp))
    rw [List.append_nil, Cursor.sweep_nil] at alone
    have answer := congrArg Sweep.answer alone
    rw [Sweep.answer_behind] at answer
    exact answer.trans (congrArg Except.ok (List.append_nil first))
  have lexed : lex (before ++ blanks ++ after) =
      .ok (first ++ second.map (Token.shifted (before.length + blanks.length))) := by
    change (Cursor.sweep ⟨0, [], (before ++ blanks ++ after).toList⟩).answer = _
    rw [String.toList_append, String.toList_append, List.append_assoc, cut _ (.blanks blank after.toList),
      Cursor.sweep_blanks blank, Nat.add_assoc, String.length_toList, String.length_toList]
    exact Sweep.answer_behind_eq_ok.mpr ⟨_, Cursor.sweep_at_eq_ok.mpr ⟨second, lexedAfter, rfl⟩, rfl⟩
  have words : (first ++ second.map (Token.shifted (before.length + blanks.length))).map Token.word =
      (first ++ second.map (Token.shifted before.toList.length)).map Token.word := by
    rw [List.map_append, List.map_append, Token.map_word_shifted, Token.map_word_shifted]
  refine ⟨first, second, lexedBefore, lexedAfter, lexed, words, ?_⟩
  rw [compile, compile, Program.read_eq_of_words lexed read words]

theorem compile_insert_blanks_comparison :
    lex "x==1=2" = .ok [⟨.identifier, "x", 0⟩, ⟨.operator, "==", 1⟩, ⟨.integer, "1", 3⟩, ⟨.operator, "=", 4⟩,
      ⟨.integer, "2", 5⟩] ∧
    ∃ first second, lex "x==1" = .ok first ∧ lex "=2" = .ok second ∧
      lex "x==1\n =2" = .ok (first ++ second.map (Token.shifted 6)) ∧
      (first ++ second.map (Token.shifted 6)).map Token.word =
        [⟨.identifier, "x"⟩, ⟨.operator, "=="⟩, ⟨.integer, "1"⟩, ⟨.operator, "="⟩, ⟨.integer, "2"⟩] ∧
      compile "x==1\n =2" = compile "x==1=2" := by
  have lexed : lex ("x==1" ++ "=2") = .ok [⟨.identifier, "x", 0⟩, ⟨.operator, "==", 1⟩, ⟨.integer, "1", 3⟩,
      ⟨.operator, "=", 4⟩, ⟨.integer, "2", 5⟩] := by cbv
  have boundary : Boundary 4 [⟨.identifier, "x", 0⟩, ⟨.operator, "==", 1⟩, ⟨.integer, "1", 3⟩, ⟨.operator, "=", 4⟩,
      ⟨.integer, "2", 5⟩] := by
    simp only [Boundary, List.forall_mem_cons, Token.stop]
    decide
  have blank : ∀ c ∈ "\n ".toList, isBlank c = true := List.all_eq_true.mp (by decide)
  have inserted := compile_insert_blanks lexed boundary blank
  have joined : "x==1" ++ "=2" = "x==1=2" := by decide
  have parted : "x==1" ++ "\n " ++ "=2" = "x==1\n =2" := by decide
  have place : "x==1".length + "\n ".length = 6 := by decide
  rw [joined, parted, place] at inserted
  rw [joined] at lexed
  exact ⟨lexed, inserted⟩

end PlcJava
