import Mathlib
import PlcJava.Proofs.Lookahead
import PlcJava.Proofs.ProgramRecognition

/-! Programs one after the other. A program ends where its last statement ends and an error
stands where its tokens go wrong, so neither depends on the tokens that follow. -/

set_option autoImplicit false

namespace PlcJava

open Parsing

/-- Behind statements, a pass goes on as if it began there. -/
theorem Grammar.Body.pass_append {stops : List String} {tokens : List Token} {program : Program}
    (body : Body stops tokens program) (rest : List Token) :
    (Parsing.pass (tokens ++ rest)).outcome =
      (Parsing.pass rest).outcome.map fun (later, left) => (program ++ later, left) := by
  match body with
  | .nil =>
    rw [List.nil_append]
    cases (Parsing.pass rest).outcome <;> rfl
  | @Body.cons _ tokens others first later clause _ remaining =>
    have shorter := List.length_pos_iff.mpr clause.ne_nil
    have onward := remaining.pass_append rest
    have complete := clause.complete (others ++ rest)
    obtain ⟨token, tail, rfl⟩ := List.exists_cons_of_ne_nil clause.ne_nil
    rw [List.append_assoc, List.cons_append, pass_cons, ← List.cons_append, complete]
    simp only [Except.bind, onward]
    cases (Parsing.pass rest).outcome <;> rfl
termination_by tokens.length
decreasing_by
  rw [List.length_append]
  omega

private theorem parse_append_of_error {first : List Token} {error : ParseError} (failed : parse first = .error error)
    (within : error.index < first.length) (second : List Token) : parse (first ++ second) = .error error := by
  obtain ⟨settles, answer⟩ := parse_eq_error failed
  have looked : error.index + error.fault.window ≤ first.length := by
    have seen := settles.seen
    rw [answer] at seen
    cases fault : error.fault with
    | trailingComma =>
      rw [fault] at seen
      exact seen rfl
    | _ =>
      simp only [Fault.window]
      omega
  apply parse_error_again failed
  have alike := Alike.take_append looked (first.drop (error.index + error.fault.window) ++ second)
  rwa [← List.append_assoc, List.take_append_drop] at alike

/-- Parsing goes from left to right: behind a program it begins anew, and behind an error it
sees nothing. -/
theorem parse_append (first second : List Token) :
    (∀ program, parse first = .ok program →
      (∀ later, parse second = .ok later → parse (first ++ second) = .ok (program ++ later)) ∧
      ∀ error, parse second = .error error →
        parse (first ++ second) = .error ⟨error.fault, first.length + error.index⟩) ∧
    ∀ error, parse first = .error error → error.index < first.length →
      parse (first ++ second) = .error error := by
  refine ⟨?_, fun error failed within => parse_append_of_error failed within second⟩
  intro program read
  have whole := (Grammar.pass_sound first (Grammar.parse_eq_ok.mp read)).pass_append second
  constructor
  · intro later readLater
    have body := Grammar.pass_sound second (Grammar.parse_eq_ok.mp readLater)
    have behind := body.pass_append []
    rw [List.append_nil, pass_nil] at behind
    rw [parse_eq_report, whole, behind]
    simp [Except.map, Outcome.report]
  · intro error failed
    obtain ⟨settles, answer⟩ := parse_eq_error failed
    have inside := settles.inside
    rw [parse_eq_report, whole, answer]
    have place : first.length + second.length - (second.length - error.index) = first.length + error.index := by
      omega
    simp only [Except.map, Outcome.report, List.length_append, List.length_drop, place]

theorem parse_append_expression :
    parse [⟨.identifier, "x", 0⟩, ⟨.operator, ";", 1⟩] = .ok [.expression (.reference "x")] ∧
      parse [⟨.operator, ")", 0⟩] = .error ⟨.expectedExpression, 0⟩ ∧
      parse ([⟨.identifier, "x", 0⟩, ⟨.operator, ";", 1⟩] ++ [⟨.operator, ")", 0⟩]) =
        .error ⟨.expectedExpression, 2⟩ ∧
      parse ([⟨.operator, ")", 0⟩] ++ [⟨.identifier, "x", 0⟩, ⟨.operator, ";", 1⟩]) =
        .error ⟨.expectedExpression, 0⟩ := by
  have program : parse [⟨.identifier, "x", 0⟩, ⟨.operator, ";", 1⟩] = .ok [.expression (.reference "x")] := by cbv
  have failure : parse [⟨.operator, ")", 0⟩] = .error ⟨.expectedExpression, 0⟩ := by cbv
  exact ⟨program, failure, ((parse_append _ _).1 _ program).2 _ failure,
    (parse_append _ _).2 _ failure (by decide)⟩

end PlcJava
