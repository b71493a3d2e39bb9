import PlcJava.Proofs.TokenShape
import PlcJava.Token.Lexer

/-! One pass of the lexer, step by step. A pass drops a blank, or takes the token at the head of
the text, and goes on. -/

set_option autoImplicit false

namespace PlcJava

/-- Texts piece by piece: a text is empty, begins with a blank or with a token, or with a piece that is no token,
where every pass ends. -/
@[elab_as_elim]
theorem piecewise {motive : List Char → Prop} (cs : List Char) (nil : motive [])
    (blank : ∀ c cs, isBlank c = true → motive cs → motive (c :: cs))
    (token : ∀ kind text rest, Munch kind text rest → motive rest → motive (text ++ rest))
    (fault : ∀ c cs fault, isBlank c = false → (Lexeme.scan c cs).sort = .error fault → motive (c :: cs)) :
    motive cs := by
  match cs with
  | [] => exact nil
  | c :: cs =>
    cases visible : isBlank c with
    | true => exact blank c cs visible (piecewise cs nil blank token fault)
    | false =>
      have shorter : (Lexeme.scan c cs).rest.length < cs.length + 1 := Lexeme.scan_rest_shorter c cs
      cases sorted : (Lexeme.scan c cs).sort with
      | error reason => exact fault c cs reason visible sorted
      | ok kind =>
        have later := piecewise (Lexeme.scan c cs).rest nil blank token fault
        rw [← Lexeme.scan_text_append c cs]
        exact token kind _ _ (Lexeme.scan_sound visible sorted) later
termination_by cs.length

/-- A pass with tokens that were completed before it. -/
def Sweep.behind (tokens : List Token) (sweep : Sweep) : Sweep := { sweep with tokens := tokens ++ sweep.tokens }

theorem Sweep.behind_nil (sweep : Sweep) : sweep.behind [] = sweep := rfl

theorem Sweep.behind_append (first second : List Token) (sweep : Sweep) :
    sweep.behind (first ++ second) = (sweep.behind second).behind first := by
  simp [behind]

theorem Sweep.answer_behind (tokens : List Token) (sweep : Sweep) :
    (sweep.behind tokens).answer = sweep.answer.map (tokens ++ ·) := by
  unfold answer behind
  cases sweep.error? <;> rfl

theorem Sweep.answer_behind_eq_ok {before tokens : List Token} {sweep : Sweep} :
    (sweep.behind before).answer = .ok tokens ↔ ∃ later, sweep.answer = .ok later ∧ tokens = before ++ later := by
  rw [answer_behind]
  cases sweep.answer with
  | error error => simp [Except.map]
  | ok later => simp [Except.map, eq_comm]

namespace Cursor

theorem sweep_nil (offset : Nat) (pending : List Char) :
    (sweep ⟨offset, pending, []⟩) = ⟨[], none, ⟨offset, pending, []⟩⟩ := by
  rw [sweep]

theorem sweep_blank {c : Char} (blank : isBlank c = true) (offset : Nat) (pending cs : List Char) :
    sweep ⟨offset, pending, c :: cs⟩ = sweep ⟨offset + 1, [], cs⟩ := by
  rw [sweep, if_pos blank]

theorem sweep_token {kind : Kind} {text rest : List Char} (munch : Munch kind text rest) (offset : Nat)
    (pending : List Char) :
    sweep ⟨offset, pending, text ++ rest⟩ =
      (sweep ⟨offset + text.length, [], rest⟩).behind
        [(Cursor.mk offset pending (text ++ rest)).token kind text] := by
  obtain ⟨c, cs, rfl⟩ := List.exists_cons_of_ne_nil munch.ne_nil
  rw [List.cons_append, sweep, munch.visible, if_neg (by simp)]
  simp only [munch.scan]
  rfl

theorem sweep_fault {c : Char} {cs : List Char} {fault : LexFault} (visible : isBlank c = false)
    (sorted : (Lexeme.scan c cs).sort = .error fault) (offset : Nat) (pending : List Char) :
    sweep ⟨offset, pending, c :: cs⟩ =
      ⟨[], some ((Cursor.mk offset pending (c :: cs)).error fault (Lexeme.scan c cs).text),
        ⟨offset + (Lexeme.scan c cs).text.length, pending ++ (Lexeme.scan c cs).text, (Lexeme.scan c cs).rest⟩⟩ := by
  rw [sweep, visible, if_neg (by simp)]
  simp only [sorted]

theorem sweep_visible {c : Char} {cs : List Char} (visible : isBlank c = false) {offset : Nat}
    {pending : List Char} {tokens : List Token}
    (read : (sweep ⟨offset, pending, c :: cs⟩).answer = .ok tokens) :
    ∃ kind text rest, c :: cs = text ++ rest ∧ Munch kind text rest := by
  rw [sweep, visible, if_neg (by simp)] at read
  cases sorted : (Lexeme.scan c cs).sort with
  | error fault =>
    simp only [sorted] at read
    cases read
  | ok kind => exact ⟨kind, _, _, (Lexeme.scan_text_append c cs).symm, Lexeme.scan_sound visible sorted⟩

end Cursor

end PlcJava
