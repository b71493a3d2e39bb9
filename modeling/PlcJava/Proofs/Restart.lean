import Mathlib
import PlcJava.Proofs.Concatenation
import PlcJava.Proofs.Passes

/-! Passes of one parser, each begun where the one before ended. A pass sees only the tokens from
its place on, so it answers as for a list of its own; and it ends at the token that it reports, so
the reports alone tell where the next pass begins. -/

set_option autoImplicit false

namespace PlcJava

def ParseError.shifted (count : Nat) (error : ParseError) : ParseError := ⟨error.fault, error.index + count⟩

/-- What is answered to the tokens from a place on, as errors in the whole list. -/
def parseFrom (tokens : List Token) (position : Nat) : Except ParseError Program :=
  (parse (tokens.drop position)).mapError (ParseError.shifted position)

/-- The place that an answer names: that of the error, or the end of the tokens. -/
def reported (total : Nat) : Except ParseError Program → Nat
  | .ok _ => total
  | .error error => error.index

private theorem parseFrom_length (tokens : List Token) : parseFrom tokens tokens.length = .ok [] := by
  have empty : parse [] = .ok [] := by rw [parse_eq_report, Parsing.pass_nil]; rfl
  rw [parseFrom, List.drop_length, empty]
  rfl

private theorem Parsing.pass_of_parse {tokens : List Token} {program : Program} (read : parse tokens = .ok program) :
    (pass tokens).outcome = .ok (program, []) := by
  have whole := (Grammar.pass_sound tokens (Grammar.parse_eq_ok.mp read)).pass_append []
  rw [List.append_nil, pass_nil] at whole
  rw [whole]
  simp [Except.map]

private theorem Pass.left_outcome (pass : Pass) : pass.outcome.left = pass.rest := by
  unfold outcome
  cases pass.result <;> rfl

namespace Parser

/-! One pass. -/

section step

variable {parser : Parser} (inside : parser.position ≤ parser.tokens.length)

include inside

private theorem pass_stop :
    parser.position ≤ parser.next.position ∧ parser.next.position ≤ parser.tokens.length ∧
      parser.pass.rest = parser.tokens.drop parser.next.position := by
  obtain ⟨taken, settles, _⟩ := Parsing.pass_local (parser.tokens.drop parser.position)
  have rest : parser.pass.rest = parser.tokens.drop (parser.position + taken) := by
    rw [← List.drop_drop, ← settles.left, Pass.left_outcome]
    rfl
  have bound := settles.inside
  rw [List.length_drop] at bound
  have stop : parser.next.position = parser.position + taken := by
    change parser.tokens.length - parser.pass.rest.length = _
    rw [rest, List.length_drop]
    omega
  rw [stop]
  exact ⟨by omega, by omega, rest⟩

private theorem answer_eq : parser.answer = parseFrom parser.tokens parser.position := by
  have answered : parse (parser.tokens.drop parser.position) =
      parser.pass.answer (parser.tokens.drop parser.position).length := rfl
  have ends : parser.tokens.length - parser.pass.rest.length =
      (parser.tokens.drop parser.position).length - parser.pass.rest.length + parser.position := by
    obtain ⟨_, within, rest⟩ := pass_stop inside
    rw [rest, List.length_drop, List.length_drop]
    omega
  rw [parseFrom, answered, answer, Pass.answer, Pass.answer]
  cases parser.pass.result with
  | ok program => rfl
  | error fault => exact congrArg (fun index => Except.error (ParseError.mk fault index)) ends

private theorem next_position : parser.next.position = reported parser.tokens.length parser.answer := by
  cases read : parser.answer with
  | error error =>
    have failed := read
    rw [answer, Pass.answer] at failed
    cases result : parser.pass.result with
    | ok program =>
      rw [result] at failed
      cases failed
    | error fault =>
      rw [result] at failed
      cases failed
      rfl
  | ok program =>
    have alone : parse (parser.tokens.drop parser.position) = .ok program := by
      rw [answer_eq inside, parseFrom] at read
      exact Outcome.mapError_eq_ok.mp read
    have rest : parser.pass.rest = [] := by
      have left := Pass.left_outcome parser.pass
      rw [pass, Parsing.pass_of_parse alone] at left
      exact left.symm
    change parser.tokens.length - parser.pass.rest.length = _
    rw [rest]
    rfl

end step

/-! Passes one after the other. -/

def after (parser : Parser) (passes : Nat) : Parser := next^[passes] parser

private theorem after_succ (parser : Parser) (passes : Nat) : parser.after (passes + 1) = (parser.after passes).next :=
  Function.iterate_succ_apply' next passes parser

def answerAfter (parser : Parser) (passes : Nat) : Except ParseError Program := (parser.after passes).answer

private theorem session_eq (parser : Parser) (calls : Nat) :
    parser.session calls = (List.range calls).map parser.answerAfter :=
  Passes.session_eq_map next answer (fun _ => rfl) (fun _ _ => rfl) parser calls

def Reaches (tokens : List Token) (parser : Parser) : Prop :=
  parser.tokens = tokens ∧ parser.position ≤ tokens.length

private theorem Reaches.next {tokens : List Token} {parser : Parser} (reaches : Reaches tokens parser) :
    Reaches tokens parser.next := by
  obtain ⟨rfl, inside⟩ := reaches
  exact ⟨rfl, (pass_stop inside).2.1⟩

private theorem Reaches.after (tokens : List Token) (pass : Nat) : Reaches tokens ((ofTokens tokens).after pass) :=
  Passes.iterate_keeps (fun _ reaches => reaches.next) ⟨rfl, Nat.zero_le _⟩ pass

private theorem after_step (tokens : List Token) (pass : Nat) :
    (ofTokens tokens).answerAfter pass = parseFrom tokens ((ofTokens tokens).after pass).position ∧
    ((ofTokens tokens).after (pass + 1)).position = reported tokens.length ((ofTokens tokens).answerAfter pass) ∧
    ((ofTokens tokens).after pass).position ≤ ((ofTokens tokens).after (pass + 1)).position ∧
    ((ofTokens tokens).after (pass + 1)).position ≤ tokens.length ∧
    ((ofTokens tokens).after pass).pass.rest = tokens.drop ((ofTokens tokens).after (pass + 1)).position := by
  obtain ⟨same, inside⟩ := Reaches.after tokens pass
  rw [answerAfter, after_succ]
  generalize (ofTokens tokens).after pass = parser at same inside
  subst same
  exact ⟨answer_eq inside, next_position inside, pass_stop inside⟩

/-- A pass that ends where it began is repeated forever. -/
theorem answerAfter_of_stays {tokens : List Token} {pass later : Nat}
    (stays : ((ofTokens tokens).after (pass + 1)).position = ((ofTokens tokens).after pass).position)
    (order : pass ≤ later) : (ofTokens tokens).answerAfter later = (ofTokens tokens).answerAfter pass := by
  rw [after_succ] at stays
  have same : ((ofTokens tokens).after pass).next = (ofTokens tokens).after pass :=
    congrArg (Parser.mk ((ofTokens tokens).after pass).tokens) stays
  exact congrArg answer (Passes.iterate_of_stays same order)

private theorem answerAfter_of_end {tokens : List Token} {pass later : Nat}
    (ends : ((ofTokens tokens).after pass).position = tokens.length) (order : pass ≤ later) :
    (ofTokens tokens).answerAfter later = .ok [] := by
  obtain ⟨answer, place, _⟩ := after_step tokens pass
  rw [ends, parseFrom_length] at answer
  rw [answer] at place
  rw [answerAfter_of_stays (place.trans ends.symm) order, answer]

/-- Parsing goes on after a failure. A pass answers as for the tokens from its place on alone and ends
where its answer says, so each answer is determined by the place that the one before named. -/
theorem session_restarts (tokens : List Token) (calls : Nat) :
    (ofTokens tokens).session calls = (List.range calls).map (ofTokens tokens).answerAfter ∧
    (∀ pass, (ofTokens tokens).answerAfter pass = parseFrom tokens ((ofTokens tokens).after pass).position) ∧
    (∀ pass program, (ofTokens tokens).answerAfter pass = .ok program →
      ((ofTokens tokens).after (pass + 1)).position = tokens.length) ∧
    (∀ pass error, (ofTokens tokens).answerAfter pass = .error error →
      ((ofTokens tokens).after (pass + 1)).position = error.index ∧
        ((ofTokens tokens).after pass).position ≤ error.index ∧ error.index ≤ tokens.length) ∧
    (∀ pass, ((ofTokens tokens).after pass).pass.rest = tokens.drop ((ofTokens tokens).after (pass + 1)).position) ∧
    (ofTokens tokens).answerAfter 0 = parse tokens ∧
    (∀ pass, (ofTokens tokens).answerAfter (pass + 1) =
      parseFrom tokens (reported tokens.length ((ofTokens tokens).answerAfter pass))) ∧
    (∀ pass later program, pass < later → (ofTokens tokens).answerAfter pass = .ok program →
      (ofTokens tokens).answerAfter later = .ok []) ∧
    (∀ pass later error, pass < later → (ofTokens tokens).answerAfter pass = .error error →
      error.index = tokens.length → (ofTokens tokens).answerAfter later = .ok []) ∧
    ∀ pass later error, pass < later → (ofTokens tokens).answerAfter pass = .error error →
      error.index = ((ofTokens tokens).after pass).position → (ofTokens tokens).answerAfter later = .error error := by
  have place {pass : Nat} {answer : Except ParseError Program} (answered : (ofTokens tokens).answerAfter pass = answer) :
      ((ofTokens tokens).after (pass + 1)).position = reported tokens.length answer := by
    rw [← answered]
    exact (after_step tokens pass).2.1
  refine ⟨session_eq _ calls, fun pass => (after_step tokens pass).1, fun pass program read => place read, ?_,
    fun pass => (after_step tokens pass).2.2.2.2, rfl, ?_, ?_, ?_, ?_⟩
  · intro pass error failed
    obtain ⟨_, _, onward, within, _⟩ := after_step tokens pass
    have ends : ((ofTokens tokens).after (pass + 1)).position = error.index := place failed
    rw [ends] at onward within
    exact ⟨ends, onward, within⟩
  · intro pass
    rw [(after_step tokens (pass + 1)).1, place rfl]
  · intro pass later program order read
    exact answerAfter_of_end (place read) order
  · intro pass later error order failed last
    exact answerAfter_of_end ((place failed).trans last) order
  · intro pass later error order failed stays
    rw [answerAfter_of_stays ((place failed).trans stays) (Nat.le_of_lt order), failed]

theorem session_restarts_group :
    (ofTokens [⟨.operator, ")", 0⟩, ⟨.operator, ";", 1⟩]).answerAfter 0 = .error ⟨.expectedExpression, 0⟩ ∧
    (ofTokens [⟨.operator, ")", 0⟩, ⟨.operator, ";", 1⟩]).answerAfter 5 = .error ⟨.expectedExpression, 0⟩ ∧
    (ofTokens [⟨.operator, "(", 0⟩, ⟨.identifier, "x", 1⟩]).answerAfter 0 = .error ⟨.unclosedGroup, 2⟩ ∧
    ((ofTokens [⟨.operator, "(", 0⟩, ⟨.identifier, "x", 1⟩]).after 1).position = 2 ∧
    (ofTokens [⟨.operator, "(", 0⟩, ⟨.identifier, "x", 1⟩]).answerAfter 1 = .ok [] ∧
    ((ofTokens [⟨.operator, "(", 0⟩, ⟨.identifier, "x", 1⟩]).after 2).position = 2 ∧
    (ofTokens [⟨.operator, "(", 0⟩, ⟨.identifier, "x", 1⟩]).answerAfter 2 = .ok [] := by
  have blocked : (ofTokens [⟨.operator, ")", 0⟩, ⟨.operator, ";", 1⟩]).answerAfter 0 =
      .error ⟨.expectedExpression, 0⟩ := by cbv
  have unclosed : (ofTokens [⟨.operator, "(", 0⟩, ⟨.identifier, "x", 1⟩]).answerAfter 0 =
      .error ⟨.unclosedGroup, 2⟩ := by cbv
  obtain ⟨_, _, _, _, _, _, _, _, _, stuck⟩ := session_restarts [⟨.operator, ")", 0⟩, ⟨.operator, ";", 1⟩] 0
  obtain ⟨_, _, succeeds, fails, _, _, _, quiet, ended, _⟩ :=
    session_restarts [⟨.operator, "(", 0⟩, ⟨.identifier, "x", 1⟩] 0
  have empty := ended 0 1 _ (by decide) unclosed rfl
  exact ⟨blocked, stuck 0 5 _ (by decide) blocked rfl, unclosed, (fails 0 _ unclosed).1, empty, succeeds 1 _ empty,
    quiet 1 2 _ (by decide) empty⟩

end Parser

end PlcJava
