import Mathlib
import PlcJava.Proofs.Lookahead

/-! The loops of the parser. The statements of a program and of a body, those between `THEN` and the end of a
conditional, and the arguments of a call are read by loops that come back to their head behind each item. A
loop is a course of turns, each of which reads an item, and one last look at its head. Each turn of a course
takes at least one token, so a loop ends, and the tokens bound its turns. -/

set_option autoImplicit false

namespace PlcJava

private theorem Local.suffix {α : Type} {read : List Token → Outcome α} {tokens rest : List Token} {value : α}
    (settled : Local read tokens) (done : read tokens = .ok (value, rest)) : rest <:+ tokens := by
  obtain ⟨position, settles, _⟩ := settled
  have behind := settles.left
  rw [done] at behind
  change rest = tokens.drop position at behind
  rw [behind]
  exact List.drop_suffix position tokens

structure Loop (α β : Type) where
  /-- Whether the loop is left at these tokens, before an item is called for. -/
  closes : List Token → Bool
  item : List Token → Outcome α
  /-- What is answered where the loop is left. -/
  close : List Token → Outcome β
  /-- An item in front of what is read behind it. -/
  add : α → β → β

namespace Loop

variable {α β : Type}

/-- From one head of the loop to another by turns that read these items. -/
inductive Course (loop : Loop α β) : List Token → List α → List Token → Prop where
  | here (tokens : List Token) : Course loop tokens [] tokens
  | turn {tokens rest head : List Token} {item : α} {items : List α} (more : loop.closes tokens = false)
      (read : loop.item tokens = .ok (item, rest)) (later : Course loop rest items head) :
      Course loop tokens (item :: items) head

/-- A whole run of the loop: how often it calls for an item, and what it answers. A last look at the head that
leaves the loop, also where the tokens end, is not counted. -/
inductive Runs (loop : Loop α β) (tokens : List Token) : Nat → Outcome β → Prop where
  | leaves {items : List α} {head : List Token} (course : loop.Course tokens items head)
      (closes : loop.closes head = true) :
      Runs loop tokens items.length ((loop.close head).map fun (value, rest) => (items.foldr loop.add value, rest))
  | fails {items : List α} {head : List Token} {failure : Fault × List Token}
      (course : loop.Course tokens items head) (more : loop.closes head = false)
      (failed : loop.item head = .error failure) : Runs loop tokens (items.length + 1) (.error failure)

def step (loop : Loop α β) (read : List Token → Outcome β) (tokens : List Token) : Outcome β :=
  if loop.closes tokens then loop.close tokens
  else
    (loop.item tokens).bind fun (item, rest) => (read rest).map fun (value, left) => (loop.add item value, left)

/-- The reader is this loop, and a turn that it goes on from has taken a token. -/
structure Computes (loop : Loop α β) (read : List Token → Outcome β) : Prop where
  step : ∀ tokens, read tokens = loop.step read tokens
  forward : ∀ {tokens item rest}, loop.item tokens = .ok (item, rest) → rest <:+ tokens ∧ rest.length < tokens.length

namespace Computes

variable {loop : Loop α β} {read : List Token → Outcome β} {tokens head : List Token} {items : List α}

theorem read_closed (computes : loop.Computes read) (closes : loop.closes tokens = true) :
    read tokens = loop.close tokens := by
  rw [computes.step, Loop.step, if_pos closes]

theorem read_open (computes : loop.Computes read) (more : loop.closes tokens = false) :
    read tokens =
      (loop.item tokens).bind fun (item, rest) => (read rest).map fun (value, left) => (loop.add item value, left) := by
  rw [computes.step, Loop.step, more]
  rfl

theorem read_failed (computes : loop.Computes read) {failure : Fault × List Token} (more : loop.closes tokens = false)
    (failed : loop.item tokens = .error failure) : read tokens = .error failure := by
  rw [computes.read_open more, failed]
  rfl

/-- A course takes at least one token for each of its items. -/
theorem course_suffix (computes : loop.Computes read) (course : loop.Course tokens items head) :
    head <:+ tokens ∧ items.length + head.length ≤ tokens.length := by
  induction course with
  | here tokens => exact ⟨List.suffix_rfl, by simp⟩
  | turn _ read _ ih =>
    obtain ⟨suffix, shorter⟩ := computes.forward read
    refine ⟨ih.1.trans suffix, ?_⟩
    rw [List.length_cons]
    omega

theorem course_read (computes : loop.Computes read) (course : loop.Course tokens items head) :
    read tokens = (read head).map fun (value, rest) => (items.foldr loop.add value, rest) := by
  induction course with
  | here tokens => cases read tokens <;> rfl
  | @turn tokens rest head item items more done _ ih =>
    rw [computes.read_open more, done]
    simp only [Except.bind, ih]
    cases read head <;> rfl

theorem course_ends (computes : loop.Computes read) (tokens : List Token) :
    ∃ items head, loop.Course tokens items head ∧
      (loop.closes head = true ∨ loop.closes head = false ∧ ∃ failure, loop.item head = .error failure) := by
  cases closes : loop.closes tokens with
  | true => exact ⟨[], tokens, .here tokens, .inl closes⟩
  | false =>
    rcases read : loop.item tokens with failure | ⟨item, rest⟩
    · exact ⟨[], tokens, .here tokens, .inr ⟨closes, failure, read⟩⟩
    · have shorter := (computes.forward read).2
      obtain ⟨items, head, course, ends⟩ := computes.course_ends rest
      exact ⟨item :: items, head, .turn closes read course, ends⟩
termination_by tokens.length
decreasing_by exact shorter

/-- The loop calls for an item at most once for each token. Only a loop that calls for one where the tokens
end may do so once more. -/
theorem runs (computes : loop.Computes read) (tokens : List Token) :
    ∃ turns, loop.Runs tokens turns (read tokens) ∧ turns ≤ tokens.length + 1 ∧
      (loop.closes [] = true → turns ≤ tokens.length) := by
  obtain ⟨items, head, course, ends⟩ := computes.course_ends tokens
  have count := (computes.course_suffix course).2
  rw [computes.course_read course]
  rcases ends with closes | ⟨more, failure, failed⟩
  · rw [computes.read_closed closes]
    exact ⟨items.length, .leaves course closes, by omega, fun _ => by omega⟩
  · rw [computes.read_failed more failed]
    refine ⟨items.length + 1, .fails course more failed, by omega, fun atEnd => ?_⟩
    have left : head ≠ [] := by
      rintro rfl
      rw [atEnd] at more
      cases more
    have tokensLeft := List.length_pos_iff.mpr left
    omega

end Computes

end Loop

namespace Parsing

/-! Statements. -/

/-- The loop that reads statements up to one of the closing words or the end of the tokens. -/
def statementLoop {β : Type} (closing : List String) (close : List Token → Outcome β) (add : Statement → β → β) :
    Loop Statement β where
  closes tokens := tokens.head?.all fun token => token.literal ∈ closing
  item tokens := (statement tokens).reading.outcome
  close := close
  add := add

/-- A reader is such a loop if it closes as the loop does and otherwise begins with a statement. -/
theorem statementLoop_computes {β : Type} {closing : List String} {close : List Token → Outcome β}
    {add : Statement → β → β} {read : List Token → Outcome β} (ended : read [] = close [])
    (closed : ∀ (token : Token) (rest : List Token), token.literal ∈ closing →
      read (token :: rest) = close (token :: rest))
    (opened : ∀ (token : Token) (rest : List Token), token.literal ∉ closing → read (token :: rest) =
      (statement (token :: rest)).reading.outcome.bind fun (first, left) =>
        (read left).map fun (value, left) => (add first value, left)) :
    (statementLoop closing close add).Computes read where
  step tokens := by
    cases tokens with
    | nil => exact ended
    | cons token rest =>
      by_cases closes : token.literal ∈ closing
      · simp [Loop.step, statementLoop, closes, closed token rest closes]
      · simp [Loop.step, statementLoop, closes, opened token rest closes]
  forward {tokens _ _} read := ⟨(statement_local tokens).suffix read, Reading.shorter_of_outcome read⟩

def programLoop : Loop Statement Program := statementLoop [] (fun tokens => .ok ([], tokens)) List.cons

/-- A body is left at its closing word, or it is not closed at all. -/
def closedBlock : List Token → Outcome (List Statement)
  | [] => .error (.missingKeyword "END", [])
  | _ :: rest => .ok ([], rest)

def blockLoop : Loop Statement (List Statement) := statementLoop ["END"] closedBlock List.cons

/-- The statements behind `THEN` are left at `END`, or for the block behind `ELSE`. -/
def closedBranches : List Token → Outcome (List Statement × List Statement)
  | [] => .error (.missingKeyword "END", [])
  | token :: rest =>
    if token.literal = "END" then .ok (([], []), rest)
    else (block rest).reading.outcome.map fun (elseBody, left) => (([], elseBody), left)

def branchesLoop : Loop Statement (List Statement × List Statement) :=
  statementLoop ["END", "ELSE"] closedBranches fun first bodies => (first :: bodies.1, bodies.2)

theorem programLoop_computes : programLoop.Computes fun tokens => (pass tokens).outcome :=
  statementLoop_computes pass_nil (fun _ _ closes => absurd closes List.not_mem_nil) fun token rest _ =>
    pass_cons token rest

theorem blockLoop_computes : blockLoop.Computes fun tokens => (block tokens).reading.outcome :=
  statementLoop_computes block_nil (fun _ rest closes => block_end rest (List.mem_singleton.mp closes))
    fun _ rest other => block_cons rest (List.mem_singleton.not.mp other)

theorem branchesLoop_computes : branchesLoop.Computes fun tokens => (branches tokens).reading.outcome := by
  refine statementLoop_computes branches_nil (fun token rest closes => ?_) fun token rest other => ?_
  · simp only [List.mem_cons, List.not_mem_nil, or_false] at closes
    rcases closes with isEnd | isElse
    · rw [branches_end rest isEnd, closedBranches, if_pos isEnd]
    · have other : token.literal ≠ "END" := by simp [isElse]
      rw [branches_else rest isElse, closedBranches, if_neg other]
  · simp only [List.mem_cons, List.not_mem_nil, or_false, not_or] at other
    exact branches_cons rest other.1 other.2

/-! Arguments. -/

/-- What must follow an argument: a comma that is taken with it, or the closing parenthesis, which is left. -/
def separated (argument : Expression) : List Token → Outcome Expression
  | [] => .error (.invalidArgument, [])
  | token :: rest =>
    if token.literal = "," then
      if rest.head?.any (·.kind = .operator) then .error (.trailingComma, token :: rest)
      else .ok (argument, rest)
    else if token.literal = ")" then .ok (argument, token :: rest)
    else .error (.invalidArgument, token :: rest)

def argumentLoop : Loop Expression (List Expression) where
  closes tokens := tokens.head?.any fun token => token.literal = ")"
  item tokens := (tier 3 tokens).outcome.bind fun (argument, rest) => separated argument rest
  close tokens := .ok ([], tokens.tail)
  add := List.cons

private theorem continuation_eq (argument : Expression) (tokens : List Token) :
    continuation argument tokens =
      (separated argument tokens).bind fun (argument, rest) =>
        (arguments rest).outcome.map fun (others, left) => (argument :: others, left) := by
  cases tokens with
  | nil => rfl
  | cons token rest =>
    rw [continuation, separated]
    split_ifs with comma operator closes
    · rfl
    · rfl
    · simp only [Except.bind, arguments_close rest closes]
      rfl
    · rfl

private theorem separated_suffix {argument item : Expression} {tokens rest : List Token}
    (read : separated argument tokens = .ok (item, rest)) : rest <:+ tokens := by
  cases tokens with
  | nil => cases read
  | cons token tail =>
    rw [separated] at read
    split_ifs at read
    · cases read
      exact List.suffix_cons token rest
    · cases read
      exact List.suffix_rfl

private theorem expression_nil : (tier 3 []).outcome = .error (.unexpectedEnd, []) := by
  rw [tier_succ, tier_succ, tier_succ, primary_nil]
  rfl

theorem argumentLoop_computes : argumentLoop.Computes fun tokens => (arguments tokens).outcome where
  step tokens := by
    cases tokens with
    | nil =>
      rw [arguments_nil, Loop.step]
      simp only [argumentLoop, expression_nil]
      rfl
    | cons token rest =>
      by_cases closes : token.literal = ")"
      · simp [Loop.step, argumentLoop, closes, arguments_close rest closes]
      · rw [arguments_cons rest closes, Loop.step]
        simp only [argumentLoop, List.head?_cons, Option.any_some, closes, decide_false, Bool.false_eq_true, if_false]
        cases (tier 3 (token :: rest)).outcome with
        | error failure => rfl
        | ok result => exact continuation_eq result.1 result.2
  forward {tokens _ _} read := by
    obtain ⟨argument, left, first, later⟩ := Outcome.bind_eq_ok.mp read
    have suffix := separated_suffix later
    have shorter := Reading.shorter_of_outcome first
    exact ⟨suffix.trans ((tier_local 3 tokens).suffix first), Nat.lt_of_le_of_lt suffix.length_le shorter⟩

end Parsing

end PlcJava
