import Mathlib
import PlcJava.Proofs.FaultPlaces
import PlcJava.Proofs.Loops

/-! The two loops for bodies. The statements behind `THEN` and those of a block are read by loops of their own,
which differ in one thing: the first is left at `ELSE`, where the second would begin a statement. Up to there
they make the same turns, so one answers as the other does, and behind `ELSE` the first is the second. -/

set_option autoImplicit false

namespace PlcJava

/-- The loop that begins at the position comes to the word at `stop`, behind these items. -/
def Loop.Meets {α β : Type} (loop : Loop α β) (word : String) (tokens : List Token) (position : Nat) (items : List α)
    (stop : Nat) : Prop :=
  loop.Course (tokens.drop position) items (tokens.drop stop) ∧ StandsAt tokens stop (·.literal = word)

private theorem StandsAt.drop_eq {tokens : List Token} {place : Nat} {property : Token → Prop}
    (stands : StandsAt tokens place property) :
    ∃ token, property token ∧ tokens.drop place = token :: tokens.drop (place + 1) := by
  obtain ⟨token, member, holds⟩ := stands
  obtain ⟨inside, rfl⟩ := List.getElem?_eq_some_iff.mp member
  exact ⟨_, holds, List.drop_eq_getElem_cons inside⟩

private theorem Loop.Meets.of_suffix {α β : Type} {loop : Loop α β} {word : String} {tokens rest : List Token}
    {position : Nat}
    {items : List α} {token : Token} (course : loop.Course (tokens.drop position) items (token :: rest))
    (suffix : token :: rest <:+ tokens) (literal : token.literal = word) :
    ∃ stop, loop.Meets word tokens position items stop := by
  obtain ⟨before, rfl⟩ := suffix
  refine ⟨before.length, ?_, token, ?_, literal⟩
  · rwa [List.drop_left]
  · simp

namespace Parsing

/-- The loop behind `THEN` that begins at the position fails before it comes to `END` or `ELSE`: it is not closed
when the tokens end, or a statement of it fails. -/
def BreaksOff (tokens : List Token) (position : Nat) (failure : Fault × List Token) : Prop :=
  ∃ statements head, branchesLoop.Course (tokens.drop position) statements head ∧
    (head = [] ∧ failure = (.missingKeyword "END", []) ∨
      branchesLoop.closes head = false ∧ (statement head).reading.outcome = .error failure)

private theorem blockLoop_open {tokens : List Token} (more : branchesLoop.closes tokens = false) :
    blockLoop.closes tokens = false := by
  cases tokens with
  | nil => exact more
  | cons token rest =>
    simp only [branchesLoop, blockLoop, statementLoop, List.head?_cons, Option.all_some, decide_eq_false_iff_not,
      List.mem_cons, List.not_mem_nil, or_false, not_or] at more ⊢
    exact more.1

private theorem course_block {tokens head : List Token} {statements : List Statement}
    (course : branchesLoop.Course tokens statements head) : blockLoop.Course tokens statements head := by
  induction course with
  | here tokens => exact .here tokens
  | turn more read _ ih => exact .turn (blockLoop_open more) read ih

private theorem foldr_add (statements : List Statement) (bodies : List Statement × List Statement) :
    statements.foldr branchesLoop.add bodies = (statements ++ bodies.1, bodies.2) := by
  induction statements with
  | nil => rfl
  | cons first others ih =>
    rw [List.foldr_cons, ih]
    rfl

section course

variable {tokens head : List Token} {statements : List Statement} (course : branchesLoop.Course tokens statements head)

include course

private theorem branches_of_course :
    (branches tokens).reading.outcome =
      (branches head).reading.outcome.map fun (bodies, rest) => ((statements ++ bodies.1, bodies.2), rest) := by
  rw [branchesLoop_computes.course_read course]
  simp only [foldr_add]

private theorem block_of_course :
    (block tokens).reading.outcome =
      (block head).reading.outcome.map fun (body, rest) => (statements ++ body, rest) := by
  rw [blockLoop_computes.course_read (course_block course)]
  simp only [blockLoop, statementLoop, List.foldr_cons_eq_append']

end course

section agreement

variable {tokens : List Token} {position stop : Nat} {statements : List Statement} {failure : Fault × List Token}

private theorem bodies_of_end (meets : branchesLoop.Meets "END" tokens position statements stop) :
    (branches (tokens.drop position)).reading.outcome = .ok ((statements, []), tokens.drop (stop + 1)) ∧
      (block (tokens.drop position)).reading.outcome = .ok (statements, tokens.drop (stop + 1)) := by
  obtain ⟨course, stands⟩ := meets
  obtain ⟨token, isEnd, here⟩ := stands.drop_eq
  rw [here] at course
  rw [branches_of_course course, block_of_course course, branches_end _ isEnd, block_end _ isEnd]
  simp [Except.map]

private theorem bodies_of_failure (breaks : BreaksOff tokens position failure) :
    (branches (tokens.drop position)).reading.outcome = .error failure ∧
      (block (tokens.drop position)).reading.outcome = .error failure := by
  obtain ⟨_, head, course, ⟨rfl, rfl⟩ | ⟨more, failed⟩⟩ := breaks
  · rw [branches_of_course course, block_of_course course, branches_nil, block_nil]
    exact ⟨rfl, rfl⟩
  · rw [branches_of_course course, block_of_course course, branchesLoop_computes.read_failed more failed,
      blockLoop_computes.read_failed (blockLoop_open more) failed]
    exact ⟨rfl, rfl⟩

private theorem bodies_of_else (meets : branchesLoop.Meets "ELSE" tokens position statements stop) :
    (branches (tokens.drop position)).reading.outcome =
      (block (tokens.drop (stop + 1))).reading.outcome.map fun (elseBody, rest) => ((statements, elseBody), rest) := by
  obtain ⟨course, stands⟩ := meets
  obtain ⟨token, isElse, here⟩ := stands.drop_eq
  rw [here] at course
  rw [branches_of_course course, branches_else _ isElse]
  cases (block (tokens.drop (stop + 1))).reading.outcome with
  | error failure => rfl
  | ok read => simp [Except.map]

private theorem branches_cases (tokens : List Token) (position : Nat) :
    (∃ statements stop, branchesLoop.Meets "END" tokens position statements stop) ∨
      (∃ statements stop, branchesLoop.Meets "ELSE" tokens position statements stop) ∨
      ∃ failure, BreaksOff tokens position failure := by
  obtain ⟨statements, head, course, closes | ⟨more, failure, failed⟩⟩ :=
    branchesLoop_computes.course_ends (tokens.drop position)
  · cases head with
    | nil => exact .inr (.inr ⟨_, statements, [], course, .inl ⟨rfl, rfl⟩⟩)
    | cons token rest =>
      have suffix := (branchesLoop_computes.course_suffix course).1.trans (List.drop_suffix position tokens)
      have word : token.literal = "END" ∨ token.literal = "ELSE" := by
        simpa [branchesLoop, statementLoop] using closes
      rcases word with isEnd | isElse
      · exact .inl ⟨statements, Loop.Meets.of_suffix course suffix isEnd⟩
      · exact .inr (.inl ⟨statements, Loop.Meets.of_suffix course suffix isElse⟩)
  · exact .inr (.inr ⟨failure, statements, head, course, .inr ⟨more, failed⟩⟩)

end agreement

/-- The two loops for bodies agree. Where the loop behind `THEN` is left at `END`, a block that begins at the same
position has the same statements and ends at the same place. Where it breaks off, the block fails as it does,
at the same place. Where it comes to `ELSE`, the rest is a block that begins behind. And where the block begins
no statement at `ELSE`, both have the same outcome. -/
theorem branches_agree (tokens : List Token) (position : Nat) :
    ((∃ statements stop, branchesLoop.Meets "END" tokens position statements stop) ∨
      (∃ statements stop, branchesLoop.Meets "ELSE" tokens position statements stop) ∨
      ∃ failure, BreaksOff tokens position failure) ∧
    (∀ statements stop, branchesLoop.Meets "END" tokens position statements stop →
      (branches (tokens.drop position)).reading.outcome = .ok ((statements, []), tokens.drop (stop + 1)) ∧
        (block (tokens.drop position)).reading.outcome = .ok (statements, tokens.drop (stop + 1))) ∧
    (∀ failure, BreaksOff tokens position failure →
      (branches (tokens.drop position)).reading.outcome = .error failure ∧
        (block (tokens.drop position)).reading.outcome = .error failure) ∧
    (∀ statements stop, branchesLoop.Meets "ELSE" tokens position statements stop →
      (branches (tokens.drop position)).reading.outcome =
        (block (tokens.drop (stop + 1))).reading.outcome.map fun (elseBody, rest) => ((statements, elseBody), rest)) ∧
    ((∀ statements stop, ¬ blockLoop.Meets "ELSE" tokens position statements stop) →
      (branches (tokens.drop position)).reading.outcome =
        (block (tokens.drop position)).reading.outcome.map fun (body, rest) => ((body, []), rest)) := by
  refine ⟨branches_cases tokens position, fun _ _ => bodies_of_end, fun _ => bodies_of_failure,
    fun _ _ => bodies_of_else, fun never => ?_⟩
  rcases branches_cases tokens position with ⟨statements, stop, meets⟩ | ⟨statements, stop, meets⟩ | ⟨failure, breaks⟩
  · obtain ⟨first, second⟩ := bodies_of_end meets
    rw [first, second]
    rfl
  · -- up to `ELSE` the turns are those of the block, which would begin a statement there
    exact absurd ⟨course_block meets.1, meets.2⟩ (never statements stop)
  · obtain ⟨first, second⟩ := bodies_of_failure breaks
    rw [first, second]
    rfl

theorem branches_agree_words :
    ((branches [⟨.identifier, "x", 0⟩, ⟨.operator, ";", 1⟩, ⟨.identifier, "END", 3⟩]).reading.outcome =
        .ok (([.expression (.reference "x")], []), []) ∧
      (block [⟨.identifier, "x", 0⟩, ⟨.operator, ";", 1⟩, ⟨.identifier, "END", 3⟩]).reading.outcome =
        .ok ([.expression (.reference "x")], [])) ∧
    ((branches [⟨.identifier, "x", 0⟩]).reading.outcome = .error (.missingSemicolon, []) ∧
      (block [⟨.identifier, "x", 0⟩]).reading.outcome = .error (.missingSemicolon, [])) ∧
    (branches [⟨.identifier, "x", 0⟩, ⟨.operator, ";", 1⟩, ⟨.identifier, "ELSE", 3⟩,
        ⟨.identifier, "END", 8⟩]).reading.outcome = .ok (([.expression (.reference "x")], []), []) ∧
    (branches [⟨.operator, ")", 0⟩]).reading.outcome =
      (block [⟨.operator, ")", 0⟩]).reading.outcome.map fun (body, rest) => ((body, []), rest) := by
  have ended : (statement [⟨.identifier, "x", 0⟩, ⟨.operator, ";", 1⟩, ⟨.identifier, "END", 3⟩]).reading.outcome =
      .ok (.expression (.reference "x"), [⟨.identifier, "END", 3⟩]) := by cbv
  have unclosed : (statement [⟨.identifier, "x", 0⟩]).reading.outcome = .error (.missingSemicolon, []) := by cbv
  have parted : (statement [⟨.identifier, "x", 0⟩, ⟨.operator, ";", 1⟩, ⟨.identifier, "ELSE", 3⟩,
      ⟨.identifier, "END", 8⟩]).reading.outcome =
        .ok (.expression (.reference "x"), [⟨.identifier, "ELSE", 3⟩, ⟨.identifier, "END", 8⟩]) := by cbv
  have empty : (block [⟨.identifier, "END", 8⟩]).reading.outcome = .ok ([], []) := by cbv
  obtain ⟨_, atEnd, _, _, _⟩ :=
    branches_agree [⟨.identifier, "x", 0⟩, ⟨.operator, ";", 1⟩, ⟨.identifier, "END", 3⟩] 0
  obtain ⟨_, _, broken, _, _⟩ := branches_agree [⟨.identifier, "x", 0⟩] 0
  obtain ⟨_, _, _, atElse, _⟩ := branches_agree [⟨.identifier, "x", 0⟩, ⟨.operator, ";", 1⟩, ⟨.identifier, "ELSE", 3⟩,
    ⟨.identifier, "END", 8⟩] 0
  obtain ⟨_, _, _, _, never⟩ := branches_agree [⟨.operator, ")", 0⟩] 0
  refine ⟨atEnd _ 2 ⟨.turn (by decide) ended (.here _), _, rfl, rfl⟩,
    broken _ ⟨[], _, .here _, .inr ⟨by decide, unclosed⟩⟩, ?_, never ?_⟩
  · exact (atElse _ 2 ⟨.turn (by decide) parted (.here _), _, rfl, rfl⟩).trans (congrArg (Except.map _) empty)
  · rintro statements stop ⟨_, token, found, isElse⟩
    cases List.mem_singleton.mp (List.mem_of_getElem? found)
    exact absurd isElse (by decide)

end Parsing

end PlcJava
