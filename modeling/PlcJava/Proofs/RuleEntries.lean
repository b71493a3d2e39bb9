import Mathlib
import PlcJava.Proofs.StatementPlaces

/-! The rules that the parser enters, whether it succeeds or fails. It enters one at each place where a statement is
to begin and no closing word stands, and nowhere else. Whether a place is one of these is told by the tokens in front
of it, and which rule is entered there by the two tokens that follow. -/

set_option autoImplicit false

namespace PlcJava

/-- Where statements stand one after the other: in the program, behind `THEN`, or behind `ELSE` or `DO`. -/
inductive Sequence where
  | program
  | branch
  | body

def Sequence.stops : Sequence → List String
  | program => []
  | branch => ["END", "ELSE"]
  | body => ["END"]

namespace Grammar

open Parsing

/-- The rule for a statement that begins with the token, and how many tokens lie behind when the rule begins. -/
inductive Selects (token : Token) : List Token → Rule → Nat → Prop where
  | conditional {tail : List Token} (kind : token.kind = .identifier) (literal : token.literal = "IF") :
      Selects token tail .conditional 1
  | loop {tail : List Token} (kind : token.kind = .identifier) (literal : token.literal = "WHILE") :
      Selects token tail .loop 1
  | declaration {tail : List Token} (kind : token.kind = .identifier) (literal : token.literal = "LET") :
      Selects token tail .declaration 1
  | assignment {sign : Token} {tail : List Token} (kind : token.kind = .identifier)
      (plain : token.literal ∉ keywords) (equals : sign.literal = "=") : Selects token (sign :: tail) .assignment 0
  | expression {tail : List Token} (plain : token.kind = .identifier → token.literal ∉ keywords)
      (unassigned : token.kind = .identifier → ∀ sign ∈ tail.head?, sign.literal ≠ "=") :
      Selects token tail .expression 0

/-- Behind the tokens, the next statement of the sequence is to begin, or one of its closing words. -/
inductive Awaits : Sequence → List Token → Prop where
  | start : Awaits .program []
  | next {sequence : Sequence} {before tokens : List Token} {value : Statement} (here : Awaits sequence before)
      (clause : Clause tokens value) (begins : ∀ token ∈ tokens.head?, token.literal ∉ sequence.stops) :
      Awaits sequence (before ++ tokens)
  | thenBody {sequence : Sequence} {before tokens : List Token} {keyword thenWord : Token} {value : Expression}
      (here : Awaits sequence before) (kind : keyword.kind = .identifier) (introduces : keyword.literal = "IF")
      (inner : Phrase 3 tokens value) (begins : thenWord.literal = "THEN") :
      Awaits .branch (before ++ keyword :: tokens ++ [thenWord])
  | elseBody {before : List Token} {elseWord : Token} (here : Awaits .branch before)
      (turns : elseWord.literal = "ELSE") : Awaits .body (before ++ [elseWord])
  | loopBody {sequence : Sequence} {before tokens : List Token} {keyword doWord : Token} {value : Expression}
      (here : Awaits sequence before) (kind : keyword.kind = .identifier) (introduces : keyword.literal = "WHILE")
      (inner : Phrase 3 tokens value) (begins : doWord.literal = "DO") :
      Awaits .body (before ++ keyword :: tokens ++ [doWord])

/-- A statement is to begin among the tokens, and this is its rule and where the rule begins. -/
def Enters (tokens : List Token) (rule : Rule) (position : Nat) : Prop :=
  ∃ sequence before token tail lead, tokens = before ++ token :: tail ∧ Awaits sequence before ∧
    token.literal ∉ sequence.stops ∧ Selects token tail rule lead ∧ position = before.length + lead

end Grammar

/-! What one statement adds to the entries. -/

private theorem Traced.entries_bind_failed {tokens : List Token} {α β : Type} {traced : Traced tokens α}
    {error : Fault × List Token} (failed : traced.reading.outcome = .error error)
    (next : α → (rest : List Token) → rest.length < tokens.length → Traced tokens β) :
    (traced.bind next).entries = traced.entries := by
  obtain ⟨entries, reading⟩ := traced
  cases reading with
  | done value rest shorter => cases failed
  | stuck fault rest inside => rfl

namespace Parsing

private theorem pass_entries {token : Token} {tail rest : List Token} {first : Statement}
    (read : (statement (token :: tail)).reading.outcome = .ok (first, rest)) :
    (pass (token :: tail)).entries = (statement (token :: tail)).entries ++ (pass rest).entries := by
  rw [Parsing.pass]
  cases found : (statement (token :: tail)).reading with
  | stuck fault rest inside =>
    rw [found] at read
    cases read
  | done first rest shorter =>
    rw [found] at read
    cases read
    rfl

private theorem pass_entries_failed {token : Token} {tail : List Token} {error : Fault × List Token}
    (failed : (statement (token :: tail)).reading.outcome = .error error) :
    (pass (token :: tail)).entries = (statement (token :: tail)).entries := by
  rw [Parsing.pass]
  cases found : (statement (token :: tail)).reading with
  | done first rest shorter =>
    rw [found] at failed
    cases failed
  | stuck fault rest inside => rfl

private theorem conditional_entries_failed {tokens : List Token} {error : Fault × List Token}
    (failed : (condition "THEN" tokens).outcome = .error error) :
    (conditional tokens).entries = [⟨.conditional, tokens.length⟩] := by
  rw [conditional, Traced.entries_bind_failed failed]
  rfl

private theorem loop_entries_failed {tokens : List Token} {error : Fault × List Token}
    (failed : (condition "DO" tokens).outcome = .error error) :
    (loop tokens).entries = [⟨.loop, tokens.length⟩] := by
  rw [loop, Traced.entries_bind_failed failed]
  rfl

end Parsing

namespace Sequence

open Parsing

def entries : Sequence → List Token → List Entry
  | program, tokens => (pass tokens).entries
  | branch, tokens => (branches tokens).entries
  | body, tokens => (block tokens).entries

variable (sequence : Sequence) {token : Token} {tail : List Token}

private theorem entries_read (goesOn : token.literal ∉ sequence.stops) {first : Statement} {rest : List Token}
    (read : (statement (token :: tail)).reading.outcome = .ok (first, rest)) :
    sequence.entries (token :: tail) = (statement (token :: tail)).entries ++ sequence.entries rest := by
  cases sequence with
  | program => exact pass_entries read
  | branch =>
    obtain ⟨notEnd, notElse⟩ : token.literal ≠ "END" ∧ token.literal ≠ "ELSE" := by simpa [stops] using goesOn
    exact branches_entries notEnd notElse read
  | body => exact block_entries (by simpa [stops] using goesOn) read

private theorem entries_failed (goesOn : token.literal ∉ sequence.stops) {error : Fault × List Token}
    (failed : (statement (token :: tail)).reading.outcome = .error error) :
    sequence.entries (token :: tail) = (statement (token :: tail)).entries := by
  cases sequence with
  | program => exact pass_entries_failed failed
  | branch =>
    obtain ⟨notEnd, notElse⟩ : token.literal ≠ "END" ∧ token.literal ≠ "ELSE" := by simpa [stops] using goesOn
    rw [entries, branches, if_neg notEnd, if_neg notElse, Traced.entries_bind_failed failed]
  | body =>
    have notEnd : token.literal ≠ "END" := by simpa [stops] using goesOn
    rw [entries, block, if_neg notEnd, Traced.entries_bind_failed failed]

private theorem statement_subset (goesOn : token.literal ∉ sequence.stops) :
    (statement (token :: tail)).entries ⊆ sequence.entries (token :: tail) := by
  cases outcome : (statement (token :: tail)).reading.outcome with
  | ok result =>
    rw [sequence.entries_read goesOn outcome]
    exact List.subset_append_left _ _
  | error error =>
    rw [sequence.entries_failed goesOn outcome]
    exact List.Subset.refl _

private theorem entries_nil : sequence.entries [] = [] := by
  cases sequence with
  | program => rw [entries, Parsing.pass]
  | branch => rw [entries, branches]
  | body => rw [entries, block]

private theorem entries_else (tail : List Token) (turns : token.literal = "ELSE") :
    branch.entries (token :: tail) = body.entries tail := by
  have notEnd : token.literal ≠ "END" := by simp [turns]
  rw [entries, branches, if_neg notEnd, if_pos turns]
  rfl

/-- At a closing word nothing is entered, unless the word is the `ELSE` of a conditional. -/
theorem entries_closed (tail : List Token) (closed : token.literal ∈ sequence.stops) :
    sequence.entries (token :: tail) = [] ∨ sequence = branch ∧ token.literal = "ELSE" := by
  cases sequence with
  | program => cases closed
  | branch =>
    rcases List.mem_pair.mp closed with isEnd | isElse
    · rw [entries, branches, if_pos isEnd]
      exact .inl rfl
    · exact .inr ⟨rfl, isElse⟩
  | body =>
    rw [entries, block, if_pos (List.mem_singleton.mp closed)]
    exact .inl rfl

private theorem keyword_goesOn (introduces : token.literal ∈ keywords) : token.literal ∉ sequence.stops := by
  intro closed
  cases sequence <;> grind [keywords, stops]

/-- What a keyword's statement enters behind its own rule is entered by the sequence. -/
private theorem nested_subset (introduces : token.literal ∈ keywords) (first : Entry) {nested : List Entry}
    (entered : (statement (token :: tail)).entries = first :: nested) :
    nested ⊆ sequence.entries (token :: tail) := by
  refine List.Subset.trans ?_ (sequence.statement_subset (sequence.keyword_goesOn introduces))
  rw [entered]
  exact List.subset_cons_self _ _

private theorem conditional_subset (kind : token.kind = .identifier) (introduces : token.literal = "IF")
    {value : Expression} {rest : List Token} (read : (condition "THEN" tail).outcome = .ok (value, rest)) :
    branch.entries rest ⊆ sequence.entries (token :: tail) := by
  refine sequence.nested_subset (by simp [keywords, introduces]) ⟨.conditional, tail.length⟩ ?_
  rw [statement_eq_conditional tail kind introduces, Traced.entries_behind, conditional_entries read]
  rfl

private theorem loop_subset (kind : token.kind = .identifier) (introduces : token.literal = "WHILE")
    {value : Expression} {rest : List Token} (read : (condition "DO" tail).outcome = .ok (value, rest)) :
    body.entries rest ⊆ sequence.entries (token :: tail) := by
  refine sequence.nested_subset (by simp [keywords, introduces]) ⟨.loop, tail.length⟩ ?_
  rw [statement_eq_loop tail kind introduces, Traced.entries_behind, loop_entries read]
  rfl

end Sequence

namespace Grammar

open Parsing

private theorem selects_of_plain {token : Token} {tail : List Token}
    (plain : ∀ first ∈ (token :: tail).head?, first.kind = .identifier → first.literal ∉ keywords)
    (unassigned : ∀ first sign rest, token :: tail = first :: sign :: rest → first.kind = .identifier →
      sign.literal ≠ "=") : Selects token tail .expression 0 := by
  refine .expression (plain token rfl) ?_
  intro kind sign member
  obtain ⟨rest, rfl⟩ : ∃ rest, tail = sign :: rest := List.head?_eq_some_iff.mp member
  exact unassigned token sign rest rfl kind

private theorem Selects.mem_entries {token : Token} {tail : List Token} {rule : Rule} {lead : Nat}
    (selects : Selects token tail rule lead) :
    ∃ left, ⟨rule, left⟩ ∈ (statement (token :: tail)).entries ∧ left + lead = tail.length + 1 := by
  cases selects with
  | conditional kind literal =>
    refine ⟨tail.length, ?_, rfl⟩
    rw [statement_eq_conditional tail kind literal, Traced.entries_behind]
    cases outcome : (condition "THEN" tail).outcome with
    | ok result => simp [conditional_entries outcome]
    | error error => simp [conditional_entries_failed outcome]
  | loop kind literal =>
    refine ⟨tail.length, ?_, rfl⟩
    rw [statement_eq_loop tail kind literal, Traced.entries_behind]
    cases outcome : (condition "DO" tail).outcome with
    | ok result => simp [loop_entries outcome]
    | error error => simp [loop_entries_failed outcome]
  | declaration kind literal =>
    refine ⟨tail.length, ?_, rfl⟩
    rw [statement_eq_declaration tail kind literal, Traced.entries_behind]
    exact List.mem_singleton_self _
  | assignment kind plain equals =>
    refine ⟨_, ?_, rfl⟩
    rw [statement_eq_assignment _ kind plain equals]
    exact List.mem_singleton_self _
  | expression plain unassigned =>
    refine ⟨_, ?_, rfl⟩
    rw [statement_eq_expression]
    · exact List.mem_singleton_self _
    · intro first member
      cases member
      exact plain
    · intro first sign rest split kind
      cases split
      exact unassigned kind sign rfl

/-- Whatever is entered from a place on is entered when the whole is read. -/
theorem Awaits.entries_subset {sequence : Sequence} {before : List Token} (here : Awaits sequence before)
    (rest : List Token) : sequence.entries rest ⊆ (pass (before ++ rest)).entries := by
  induction here generalizing rest with
  | start => exact List.Subset.refl _
  | @next sequence before tokens value here clause begins ih =>
    obtain ⟨token, tail, rfl⟩ := List.exists_cons_of_ne_nil clause.ne_nil
    have onward : sequence.entries (token :: tail ++ rest) = _ :=
      sequence.entries_read (begins token rfl) (clause.complete rest)
    rw [List.append_assoc]
    refine List.Subset.trans ?_ (ih (token :: tail ++ rest))
    rw [onward]
    exact List.subset_append_right _ _
  | @thenBody sequence before tokens keyword thenWord value here kind introduces inner begins ih =>
    have read := inner.condition_outcome begins (by decide) rest
    rw [List.append_assoc, List.append_assoc]
    exact List.Subset.trans (sequence.conditional_subset kind introduces read) (ih _)
  | @elseBody before elseWord here turns ih =>
    rw [List.append_assoc, ← Sequence.entries_else rest turns]
    exact ih (elseWord :: rest)
  | @loopBody sequence before tokens keyword doWord value here kind introduces inner begins ih =>
    have read := inner.condition_outcome begins (by decide) rest
    rw [List.append_assoc, List.append_assoc]
    exact List.Subset.trans (sequence.loop_subset kind introduces read) (ih _)

/-- The entry is that of a statement that is to begin among the tokens. -/
def Lawful (tokens : List Token) (entry : Entry) : Prop :=
  ∃ position, Enters tokens entry.rule position ∧ entry.left + position = tokens.length

private theorem Awaits.lawful {sequence : Sequence} {before tail : List Token} {token : Token}
    (here : Awaits sequence before) (goesOn : token.literal ∉ sequence.stops) {entry : Entry} {lead : Nat}
    (selects : Selects token tail entry.rule lead) (place : entry.left + lead = tail.length + 1) :
    Lawful (before ++ token :: tail) entry := by
  refine ⟨before.length + lead, ⟨sequence, before, token, tail, lead, rfl, here, goesOn, selects, rfl⟩, ?_⟩
  rw [List.length_append, List.length_cons]
  omega

mutual
private theorem Awaits.statement_lawful {sequence : Sequence} {before : List Token} (here : Awaits sequence before)
    (token : Token) (tail : List Token) (goesOn : token.literal ∉ sequence.stops) :
    ∀ entry ∈ (statement (token :: tail)).entries, Lawful (before ++ token :: tail) entry := by
  intro entry member
  cases dispatch token tail with
  | conditional kind isIf =>
    have first : Lawful (before ++ token :: tail) ⟨.conditional, tail.length⟩ :=
      here.lawful goesOn (.conditional kind isIf) rfl
    rw [statement_eq_conditional tail kind isIf, Traced.entries_behind] at member
    cases outcome : (condition "THEN" tail).outcome with
    | error error =>
      rw [conditional_entries_failed outcome] at member
      cases List.mem_singleton.mp member
      exact first
    | ok result =>
      have shorter := Reading.shorter_of_outcome outcome
      rw [conditional_entries outcome] at member
      rcases List.mem_cons.mp member with rfl | member
      · exact first
      · obtain ⟨used, thenWord, split, phrase, begins⟩ := condition_sound outcome
        have inside := (here.thenBody kind isIf phrase begins).sequence_lawful result.2 entry member
        simpa [split] using inside
  | loop kind isWhile =>
    have first : Lawful (before ++ token :: tail) ⟨.loop, tail.length⟩ :=
      here.lawful goesOn (.loop kind isWhile) rfl
    rw [statement_eq_loop tail kind isWhile, Traced.entries_behind] at member
    cases outcome : (condition "DO" tail).outcome with
    | error error =>
      rw [loop_entries_failed outcome] at member
      cases List.mem_singleton.mp member
      exact first
    | ok result =>
      have shorter := Reading.shorter_of_outcome outcome
      rw [loop_entries outcome] at member
      rcases List.mem_cons.mp member with rfl | member
      · exact first
      · obtain ⟨used, doWord, split, phrase, begins⟩ := condition_sound outcome
        have inside := (here.loopBody kind isWhile phrase begins).sequence_lawful result.2 entry member
        simpa [split] using inside
  | declaration kind isLet =>
    rw [statement_eq_declaration tail kind isLet] at member
    cases List.mem_singleton.mp member
    exact here.lawful goesOn (.declaration kind isLet) rfl
  | assignment kind plain split equals =>
    subst split
    rw [statement_eq_assignment _ kind plain equals] at member
    cases List.mem_singleton.mp member
    exact here.lawful goesOn (.assignment kind plain equals) rfl
  | expression plain unassigned =>
    rw [statement_eq_expression plain unassigned] at member
    cases List.mem_singleton.mp member
    exact here.lawful goesOn (selects_of_plain plain unassigned) rfl
termination_by 2 * tail.length + 1
decreasing_by all_goals omega

private theorem Awaits.sequence_lawful {sequence : Sequence} {before : List Token} (here : Awaits sequence before)
    (tokens : List Token) : ∀ entry ∈ sequence.entries tokens, Lawful (before ++ tokens) entry := by
  intro entry member
  match tokens with
  | [] =>
    rw [sequence.entries_nil] at member
    cases member
  | token :: tail =>
    by_cases closed : token.literal ∈ sequence.stops
    · rcases sequence.entries_closed tail closed with nothing | ⟨rfl, isElse⟩
      · rw [nothing] at member
        cases member
      · rw [Sequence.entries_else tail isElse] at member
        have inside := (here.elseBody isElse).sequence_lawful tail entry member
        rwa [List.append_assoc] at inside
    · cases outcome : (statement (token :: tail)).reading.outcome with
      | error error =>
        rw [sequence.entries_failed closed outcome] at member
        exact here.statement_lawful token tail closed entry member
      | ok result =>
        have shorter := Reading.shorter_of_outcome outcome
        rw [sequence.entries_read closed outcome] at member
        rcases List.mem_append.mp member with member | member
        · exact here.statement_lawful token tail closed entry member
        · obtain ⟨used, split, clause⟩ := statement_sound (token :: tail) outcome
          have begins : ∀ first ∈ used.head?, first.literal ∉ sequence.stops := begins_of_split split closed
          have later := (here.next clause begins).sequence_lawful result.2 entry member
          rwa [List.append_assoc, ← split] at later
termination_by 2 * tokens.length
decreasing_by all_goals simp only [List.length_cons] at *; omega
end

/-- The rules of a pass are those of the statements that are to begin, whether it succeeds or fails. -/
theorem mem_trace_iff {tokens : List Token} {rule : Rule} {position : Nat} :
    (rule, position) ∈ (pass tokens).trace tokens.length ↔ Enters tokens rule position := by
  constructor
  · intro member
    obtain ⟨entry, found, same⟩ := List.mem_map.mp member
    obtain ⟨place, enters, left⟩ := Awaits.start.sequence_lawful tokens entry found
    cases same
    rw [List.nil_append] at enters left
    have here : tokens.length - entry.left = place := by omega
    rw [here]
    exact enters
  · rintro ⟨sequence, before, token, tail, lead, rfl, here, goesOn, selects, rfl⟩
    obtain ⟨left, found, place⟩ := selects.mem_entries
    refine List.mem_map.mpr ⟨_, here.entries_subset _ (sequence.statement_subset goesOn found), ?_⟩
    have position : (before ++ token :: tail).length - left = before.length + lead := by
      rw [List.length_append, List.length_cons]
      omega
    rw [position]

end Grammar

end PlcJava
