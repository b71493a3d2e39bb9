import Mathlib
import PlcJava.Proofs.RuleOrder

/-! Where the statements of a program begin. The grammar with the index of each statement's first token gives
the statements in the order in which they begin, and these are the rules that the parser enters when it
reads the program. -/

set_option autoImplicit false

namespace PlcJava

namespace Statement

def rule : Statement → Rule
  | expression _ => .expression
  | declaration _ _ _ => .declaration
  | assignment _ _ => .assignment
  | conditional _ _ _ => .conditional
  | loop _ _ => .loop

/-- How many tokens of the statement lie behind when its rule begins: the keyword, if it has one. -/
def lead : Statement → Nat
  | expression _ | assignment _ _ => 0
  | declaration _ _ _ | conditional _ _ _ | loop _ _ => 1

mutual
/-- The statement itself and then all that are inside it. -/
def preorder : Statement → List Statement
  | expression value => [expression value]
  | declaration name typeName value => [declaration name typeName value]
  | assignment name value => [assignment name value]
  | conditional condition thenBody elseBody =>
    conditional condition thenBody elseBody :: (preorderAll thenBody ++ preorderAll elseBody)
  | loop condition body => loop condition body :: preorderAll body

def preorderAll : List Statement → List Statement
  | [] => []
  | first :: others => first.preorder ++ preorderAll others
end

private theorem preorder_simple {value : Statement} (simple : value.rule ≠ .conditional ∧ value.rule ≠ .loop) :
    value.preorder = [value] := by
  cases value with
  | expression | declaration | assignment => rfl
  | conditional => exact absurd rfl simple.1
  | loop => exact absurd rfl simple.2

end Statement

/-- A statement of a program, with the index of its first token. -/
structure Visit where
  statement : Statement
  first : Nat

namespace Grammar

open Parsing

mutual
/-- The tokens from the index `start` on form a statement, and the visits are to that statement and to all
that are inside it. -/
inductive Located : Nat → List Token → Statement → List Visit → Prop where
  | simple {start : Nat} {tokens : List Token} {value : Statement} (clause : Clause tokens value)
      (plain : value.rule ≠ .conditional ∧ value.rule ≠ .loop) : Located start tokens value [⟨value, start⟩]
  | conditional {start : Nat} {keyword thenWord : Token} {tokens inside : List Token} {value : Expression}
      {thenBody elseBody : List Statement} {visits : List Visit} (kind : keyword.kind = .identifier)
      (introduces : keyword.literal = "IF") (inner : Phrase 3 tokens value) (begins : thenWord.literal = "THEN")
      (bodies : LocatedBranches (start + tokens.length + 2) inside thenBody elseBody visits) :
      Located start (keyword :: tokens ++ thenWord :: inside) (.conditional value thenBody elseBody)
        (⟨.conditional value thenBody elseBody, start⟩ :: visits)
  | loop {start : Nat} {keyword doWord endWord : Token} {tokens inside : List Token} {value : Expression}
      {body : List Statement} {visits : List Visit} (kind : keyword.kind = .identifier)
      (introduces : keyword.literal = "WHILE") (inner : Phrase 3 tokens value) (begins : doWord.literal = "DO")
      (first : LocatedBody ["END"] (start + tokens.length + 2) inside body visits) (ends : endWord.literal = "END") :
      Located start (keyword :: tokens ++ doWord :: inside ++ [endWord]) (.loop value body)
        (⟨.loop value body, start⟩ :: visits)

/-- The same of the bodies of a conditional behind its `THEN`. -/
inductive LocatedBranches : Nat → List Token → List Statement → List Statement → List Visit → Prop where
  | single {start : Nat} {inside : List Token} {endWord : Token} {thenBody : List Statement} {visits : List Visit}
      (first : LocatedBody ["END", "ELSE"] start inside thenBody visits) (ends : endWord.literal = "END") :
      LocatedBranches start (inside ++ [endWord]) thenBody [] visits
  | double {start : Nat} {inside others : List Token} {elseWord endWord : Token}
      {thenBody elseBody : List Statement} {visits later : List Visit}
      (first : LocatedBody ["END", "ELSE"] start inside thenBody visits) (turns : elseWord.literal = "ELSE")
      (second : LocatedBody ["END"] (start + inside.length + 1) others elseBody later)
      (ends : endWord.literal = "END") :
      LocatedBranches start (inside ++ elseWord :: others ++ [endWord]) thenBody elseBody (visits ++ later)

/-- The same of statements one after the other, none of which begins with one of the given words. -/
inductive LocatedBody : List String → Nat → List Token → List Statement → List Visit → Prop where
  | nil {stops : List String} {start : Nat} : LocatedBody stops start [] [] []
  | cons {stops : List String} {start : Nat} {tokens others : List Token} {first : Statement}
      {later : List Statement} {visits more : List Visit} (statement : Located start tokens first visits)
      (begins : ∀ token ∈ tokens.head?, token.literal ∉ stops)
      (rest : LocatedBody stops (start + tokens.length) others later more) :
      LocatedBody stops start (tokens ++ others) (first :: later) (visits ++ more)
end

mutual
private theorem Located.preorder {start : Nat} {tokens : List Token} {value : Statement} {visits : List Visit}
    (located : Located start tokens value visits) : visits.map Visit.statement = value.preorder := by
  match located with
  | .simple _ plain => exact (Statement.preorder_simple plain).symm
  | .conditional _ _ _ _ bodies => simp [bodies.preorder, Statement.preorder]
  | .loop _ _ _ _ body _ => simp [body.preorder, Statement.preorder]

private theorem LocatedBranches.preorder {start : Nat} {tokens : List Token} {thenBody elseBody : List Statement}
    {visits : List Visit} (bodies : LocatedBranches start tokens thenBody elseBody visits) :
    visits.map Visit.statement = Statement.preorderAll thenBody ++ Statement.preorderAll elseBody := by
  match bodies with
  | .single first _ => simp [first.preorder, Statement.preorderAll]
  | .double first _ second _ => simp [first.preorder, second.preorder]

theorem LocatedBody.preorder {stops : List String} {start : Nat} {tokens : List Token} {statements : List Statement}
    {visits : List Visit} (body : LocatedBody stops start tokens statements visits) :
    visits.map Visit.statement = Statement.preorderAll statements := by
  match body with
  | .nil => rfl
  | .cons first _ rest => simp [first.preorder, rest.preorder, Statement.preorderAll]
end

mutual
private theorem Located.clause {start : Nat} {tokens : List Token} {value : Statement} {visits : List Visit}
    (located : Located start tokens value visits) : Clause tokens value := by
  match located with
  | .simple clause _ => exact clause
  | .conditional kind introduces inner begins bodies => exact bodies.branches.clause kind introduces inner begins
  | .loop kind introduces inner begins first ends => exact .loop kind introduces inner begins first.body ends

private theorem LocatedBranches.branches {start : Nat} {tokens : List Token} {thenBody elseBody : List Statement}
    {visits : List Visit} (bodies : LocatedBranches start tokens thenBody elseBody visits) :
    Branches tokens thenBody elseBody := by
  match bodies with
  | .single first ends => exact .single first.body ends
  | .double first turns second ends => exact .double first.body turns second.body ends

private theorem LocatedBody.body {stops : List String} {start : Nat} {tokens : List Token} {statements : List Statement}
    {visits : List Visit} (located : LocatedBody stops start tokens statements visits) :
    Body stops tokens statements := by
  match located with
  | .nil => exact .nil
  | .cons first begins rest => exact .cons first.clause begins rest.body
end

/-- The statement is formed by the tokens from its index on, where the first of the tokens has the index
`start`. -/
def Stands (start : Nat) (tokens : List Token) (visit : Visit) : Prop :=
  ∃ before used after, tokens = before ++ used ++ after ∧ visit.first = start + before.length ∧
    Clause used visit.statement

private theorem Stands.self {start : Nat} {tokens : List Token} {value : Statement} (clause : Clause tokens value) :
    Stands start tokens ⟨value, start⟩ :=
  ⟨[], tokens, [], by simp, rfl, clause⟩

private theorem Stands.within {start inner : Nat} {tokens whole : List Token} {visit : Visit}
    (stands : Stands inner tokens visit) (before after : List Token) (split : whole = before ++ tokens ++ after)
    (place : inner = start + before.length) : Stands start whole visit := by
  obtain ⟨front, used, back, rfl, first, clause⟩ := stands
  refine ⟨before ++ front, used, back ++ after, by simp [split], ?_, clause⟩
  rw [first, place, List.length_append, Nat.add_assoc]

mutual
private theorem Located.stands {start : Nat} {tokens : List Token} {value : Statement} {visits : List Visit}
    (located : Located start tokens value visits) : ∀ visit ∈ visits, Stands start tokens visit := by
  have self : Stands start tokens ⟨value, start⟩ := .self located.clause
  match located with
  | .simple _ _ =>
    intro visit member
    cases List.mem_singleton.mp member
    exact self
  | @Located.conditional _ keyword thenWord tokens inside _ _ _ _ _ _ _ _ bodies =>
    intro visit member
    rcases List.mem_cons.mp member with rfl | member
    · exact self
    · exact (bodies.stands visit member).within (keyword :: tokens ++ [thenWord]) [] (by simp) (by simp; omega)
  | @Located.loop _ keyword doWord endWord tokens inside _ _ _ _ _ _ _ first _ =>
    intro visit member
    rcases List.mem_cons.mp member with rfl | member
    · exact self
    · exact (first.stands visit member).within (keyword :: tokens ++ [doWord]) [endWord] (by simp) (by simp; omega)

private theorem LocatedBranches.stands {start : Nat} {tokens : List Token} {thenBody elseBody : List Statement}
    {visits : List Visit} (bodies : LocatedBranches start tokens thenBody elseBody visits) :
    ∀ visit ∈ visits, Stands start tokens visit := by
  match bodies with
  | @LocatedBranches.single _ inside endWord _ _ first _ =>
    intro visit member
    exact (first.stands visit member).within [] [endWord] rfl rfl
  | @LocatedBranches.double _ inside others elseWord endWord _ _ _ _ first _ second _ =>
    intro visit member
    rcases List.mem_append.mp member with member | member
    · exact (first.stands visit member).within [] (elseWord :: others ++ [endWord]) (by simp) rfl
    · exact (second.stands visit member).within (inside ++ [elseWord]) [endWord] (by simp) (by simp; omega)

theorem LocatedBody.stands {stops : List String} {start : Nat} {tokens : List Token} {statements : List Statement}
    {visits : List Visit} (located : LocatedBody stops start tokens statements visits) :
    ∀ visit ∈ visits, Stands start tokens visit := by
  match located with
  | .nil => exact nofun
  | @LocatedBody.cons _ _ tokens others _ _ _ _ first _ rest =>
    intro visit member
    rcases List.mem_append.mp member with member | member
    · exact (first.stands visit member).within [] others rfl rfl
    · exact (rest.stands visit member).within tokens [] (by simp) rfl
end

private theorem LocatedBranches.cons {start : Nat} {tokens others : List Token} {first : Statement}
    {thenBody elseBody : List Statement} {visits more : List Visit} (located : Located start tokens first visits)
    (begins : ∀ token ∈ tokens.head?, token.literal ∉ ["END", "ELSE"])
    (later : LocatedBranches (start + tokens.length) others thenBody elseBody more) :
    LocatedBranches start (tokens ++ others) (first :: thenBody) elseBody (visits ++ more) := by
  cases later with
  | single body ends =>
    rw [← List.append_assoc]
    exact .single (.cons located begins body) ends
  | @double _ inside _ _ _ _ _ _ _ body turns second ends =>
    rw [← List.append_assoc, ← List.append_assoc, ← List.append_assoc]
    have place : start + tokens.length + inside.length + 1 = start + (tokens ++ inside).length + 1 := by
      rw [List.length_append, Nat.add_assoc start]
    rw [place] at second
    exact .double (.cons located begins body) turns second ends

end Grammar

/-- The entry of the rule that reads the visited statement, among so many tokens. -/
def Visit.Marked (total : Nat) (entry : Entry) (visit : Visit) : Prop :=
  entry.rule = visit.statement.rule ∧ entry.left + (visit.first + visit.statement.lead) = total

namespace Traced

variable {tokens : List Token} {α β : Type}

theorem entries_behind {token : Token} (traced : Traced tokens α) :
    (traced.behind : Traced (token :: tokens) α).entries = traced.entries := rfl

private theorem entries_bind {traced : Traced tokens α} {value : α} {rest : List Token}
    (read : traced.reading.outcome = .ok (value, rest))
    (next : α → (rest : List Token) → rest.length < tokens.length → Traced tokens β) :
    (traced.bind next).entries =
      traced.entries ++ (next value rest (Reading.shorter_of_outcome read)).entries := by
  obtain ⟨entries, reading⟩ := traced
  cases reading with
  | done value rest shorter =>
    cases read
    rfl
  | stuck fault rest inside => cases read

end Traced

namespace Parsing

theorem conditional_entries {tokens rest : List Token} {value : Expression}
    (read : (condition "THEN" tokens).outcome = .ok (value, rest)) :
    (conditional tokens).entries = ⟨.conditional, tokens.length⟩ :: (branches rest).entries := by
  rw [conditional, Traced.entries_bind read]
  rfl

theorem loop_entries {tokens rest : List Token} {value : Expression}
    (read : (condition "DO" tokens).outcome = .ok (value, rest)) :
    (loop tokens).entries = ⟨.loop, tokens.length⟩ :: (block rest).entries := by
  rw [loop, Traced.entries_bind read]
  rfl

theorem block_entries {token : Token} {tail rest : List Token} {first : Statement} (other : token.literal ≠ "END")
    (read : (statement (token :: tail)).reading.outcome = .ok (first, rest)) :
    (block (token :: tail)).entries = (statement (token :: tail)).entries ++ (block rest).entries := by
  rw [block, if_neg other, Traced.entries_bind read]
  rfl

theorem branches_entries {token : Token} {tail rest : List Token} {first : Statement} (notEnd : token.literal ≠ "END")
    (notElse : token.literal ≠ "ELSE") (read : (statement (token :: tail)).reading.outcome = .ok (first, rest)) :
    (branches (token :: tail)).entries = (statement (token :: tail)).entries ++ (branches rest).entries := by
  rw [branches, if_neg notEnd, if_neg notElse, Traced.entries_bind read]
  rfl

end Parsing

namespace Grammar

open Parsing

/-- The entries are those of the visited statements, one by one, among so many tokens. -/
def Shows (total : Nat) (entries : List Entry) (visits : List Visit) : Prop :=
  List.Forall₂ (Visit.Marked total) entries visits

private theorem Shows.append {total : Nat} {first second : List Entry} {visits more : List Visit}
    (one : Shows total first visits) (other : Shows total second more) :
    Shows total (first ++ second) (visits ++ more) :=
  List.rel_append one other

private theorem Shows.simple {total start : Nat} {tokens rest : List Token} {value : Statement} {entries : List Entry}
    {left : Nat} (sound : ∃ used, tokens = used ++ rest ∧ Clause used value)
    (plain : value.rule ≠ .conditional ∧ value.rule ≠ .loop) (alone : entries = [⟨value.rule, left⟩])
    (place : left + (start + value.lead) = total) :
    ∃ used visits, tokens = used ++ rest ∧ Located start used value visits ∧ Shows total entries visits := by
  obtain ⟨used, split, clause⟩ := sound
  subst alone
  exact ⟨used, _, split, .simple clause plain, List.Forall₂.cons ⟨rfl, place⟩ .nil⟩

mutual
private theorem statement_located (tokens : List Token) (start total : Nat) (whole : start + tokens.length = total)
    {value : Statement} {rest : List Token} (read : (statement tokens).reading.outcome = .ok (value, rest)) :
    ∃ used visits, tokens = used ++ rest ∧ Located start used value visits ∧
      Shows total (statement tokens).entries visits := by
  match tokens with
  | [] =>
    obtain ⟨used, split, clause⟩ := statement_sound [] read
    exact absurd (List.append_eq_nil_iff.mp split.symm).1 clause.ne_nil
  | token :: tail =>
    have sound := statement_sound (token :: tail) read
    rw [List.length_cons] at whole
    have atToken : tail.length + 1 + (start + 0) = total := by omega
    have behindToken : tail.length + (start + 1) = total := by omega
    cases dispatch token tail with
    | conditional kind isIf =>
      rw [statement_conditional tail kind isIf, conditional_outcome] at read
      obtain ⟨value, behind, found, read⟩ := Outcome.bind_eq_ok.mp read
      have shorter := Reading.shorter_of_outcome found
      obtain ⟨⟨thenBody, elseBody⟩, _, readBodies, same⟩ := Outcome.map_eq_ok.mp read
      cases same
      obtain ⟨used, thenWord, split, phrase, begins⟩ := condition_sound found
      have size := congrArg List.length split
      rw [List.length_append, List.length_cons] at size
      obtain ⟨inside, visits, rfl, bodies, shows⟩ :=
        branches_located behind (start + used.length + 2) total (by omega) readBodies
      refine ⟨token :: used ++ thenWord :: inside, _, by simp [split],
        .conditional kind isIf phrase begins bodies, ?_⟩
      rw [statement_eq_conditional tail kind isIf, Traced.entries_behind, conditional_entries found]
      exact List.Forall₂.cons ⟨rfl, behindToken⟩ shows
    | loop kind isWhile =>
      rw [statement_loop tail kind isWhile, loop_outcome] at read
      obtain ⟨value, behind, found, read⟩ := Outcome.bind_eq_ok.mp read
      have shorter := Reading.shorter_of_outcome found
      obtain ⟨body, _, readBody, same⟩ := Outcome.map_eq_ok.mp read
      cases same
      obtain ⟨used, doWord, split, phrase, begins⟩ := condition_sound found
      have size := congrArg List.length split
      rw [List.length_append, List.length_cons] at size
      obtain ⟨inside, endWord, visits, rfl, statements, ends, shows⟩ :=
        block_located behind (start + used.length + 2) total (by omega) readBody
      refine ⟨token :: used ++ doWord :: inside ++ [endWord], _, by simp [split],
        .loop kind isWhile phrase begins statements ends, ?_⟩
      rw [statement_eq_loop tail kind isWhile, Traced.entries_behind, loop_entries found]
      exact List.Forall₂.cons ⟨rfl, behindToken⟩ shows
    | declaration kind isLet =>
      rw [statement_declaration tail kind isLet] at read
      obtain ⟨_, _, _, _, _, _, rfl, _, _, _, _, same⟩ := declaration_eq_ok.mp read
      cases same
      rw [statement_eq_declaration _ kind isLet]
      exact Shows.simple sound ⟨nofun, nofun⟩ rfl behindToken
    | assignment kind plain split equals =>
      subst split
      rw [statement_assignment _ kind plain equals] at read
      obtain ⟨_, _, _, _, _, same⟩ := assignment_eq_ok.mp read
      cases same
      rw [statement_eq_assignment _ kind plain equals]
      exact Shows.simple sound ⟨nofun, nofun⟩ rfl atToken
    | expression plain unassigned =>
      rw [statement_expression plain unassigned] at read
      obtain ⟨_, _, _, _, _, same⟩ := expressionStatement_eq_ok.mp read
      cases same
      rw [statement_eq_expression plain unassigned]
      exact Shows.simple sound ⟨nofun, nofun⟩ rfl atToken
termination_by 2 * tokens.length
decreasing_by all_goals simp only [List.length_cons]; omega

private theorem branches_located (tokens : List Token) (start total : Nat) (whole : start + tokens.length = total)
    {thenBody elseBody : List Statement} {rest : List Token}
    (read : (branches tokens).reading.outcome = .ok ((thenBody, elseBody), rest)) :
    ∃ used visits, tokens = used ++ rest ∧ LocatedBranches start used thenBody elseBody visits ∧
      Shows total (branches tokens).entries visits := by
  match tokens with
  | [] =>
    rw [branches_nil] at read
    cases read
  | token :: tail =>
    by_cases isEnd : token.literal = "END"
    · rw [branches_end tail isEnd] at read
      cases read
      refine ⟨[token], _, rfl, .single .nil isEnd, ?_⟩
      rw [branches, if_pos isEnd]
      exact .nil
    · by_cases isElse : token.literal = "ELSE"
      · rw [branches_else tail isElse] at read
        obtain ⟨body, _, readBody, same⟩ := Outcome.map_eq_ok.mp read
        cases same
        rw [List.length_cons] at whole
        obtain ⟨inside, endWord, visits, rfl, statements, ends, shows⟩ :=
          block_located tail (start + 1) total (by omega) readBody
        refine ⟨token :: inside ++ [endWord], _, by simp, .double .nil isElse statements ends, ?_⟩
        rw [branches, if_neg isEnd, if_pos isElse]
        exact shows
      · rw [branches_cons tail isEnd isElse] at read
        obtain ⟨first, behind, found, read⟩ := Outcome.bind_eq_ok.mp read
        have shorter := Reading.shorter_of_outcome found
        obtain ⟨⟨thenBody, elseBody⟩, _, readBodies, same⟩ := Outcome.map_eq_ok.mp read
        cases same
        obtain ⟨used, visits, split, located, shows⟩ := statement_located (token :: tail) start total whole found
        have size := congrArg List.length split
        rw [List.length_append] at size
        obtain ⟨inside, more, rfl, bodies, showsLater⟩ :=
          branches_located behind (start + used.length) total (by omega) readBodies
        have begins : ∀ first ∈ used.head?, first.literal ∉ ["END", "ELSE"] :=
          begins_of_split split (by simp [isEnd, isElse])
        refine ⟨used ++ inside, _, by simp [split], bodies.cons located begins, ?_⟩
        rw [branches_entries isEnd isElse found]
        exact shows.append showsLater
termination_by 2 * tokens.length + 1
decreasing_by all_goals simp only [List.length_cons] at *; omega

private theorem block_located (tokens : List Token) (start total : Nat) (whole : start + tokens.length = total)
    {body : List Statement} {rest : List Token} (read : (block tokens).reading.outcome = .ok (body, rest)) :
    ∃ inside endWord visits, tokens = inside ++ endWord :: rest ∧ LocatedBody ["END"] start inside body visits ∧
      endWord.literal = "END" ∧ Shows total (block tokens).entries visits := by
  match tokens with
  | [] =>
    rw [block_nil] at read
    cases read
  | token :: tail =>
    by_cases isEnd : token.literal = "END"
    · rw [block_end tail isEnd] at read
      cases read
      refine ⟨[], token, _, rfl, .nil, isEnd, ?_⟩
      rw [block, if_pos isEnd]
      exact .nil
    · rw [block_cons tail isEnd] at read
      obtain ⟨first, behind, found, read⟩ := Outcome.bind_eq_ok.mp read
      have shorter := Reading.shorter_of_outcome found
      obtain ⟨later, _, readLater, same⟩ := Outcome.map_eq_ok.mp read
      cases same
      obtain ⟨used, visits, split, located, shows⟩ := statement_located (token :: tail) start total whole found
      have size := congrArg List.length split
      rw [List.length_append] at size
      obtain ⟨inside, endWord, more, rfl, statements, ends, showsLater⟩ :=
        block_located behind (start + used.length) total (by omega) readLater
      have begins : ∀ first ∈ used.head?, first.literal ∉ ["END"] := begins_of_split split (by simp [isEnd])
      refine ⟨used ++ inside, endWord, _, by simp [split], .cons located begins statements, ends, ?_⟩
      rw [block_entries isEnd found]
      exact shows.append showsLater
termination_by 2 * tokens.length + 1
decreasing_by all_goals simp only [List.length_cons] at *; omega
end

/-- The rules of a pass that succeeds are those of its statements. -/
theorem pass_located (tokens : List Token) (start total : Nat) (whole : start + tokens.length = total)
    {program : Program} (read : (pass tokens).result = .ok program) :
    ∃ visits, LocatedBody [] start tokens program visits ∧ Shows total (pass tokens).entries visits := by
  match tokens with
  | [] =>
    rw [Parsing.pass] at read ⊢
    cases read
    exact ⟨[], .nil, .nil⟩
  | token :: tail =>
    rw [Parsing.pass] at read ⊢
    cases found : (statement (token :: tail)).reading with
    | stuck fault rest inside =>
      rw [found] at read
      cases read
    | done first rest shorter =>
      have readFirst : (statement (token :: tail)).reading.outcome = .ok (first, rest) := by rw [found]; rfl
      obtain ⟨used, visits, split, located, shows⟩ := statement_located (token :: tail) start total whole readFirst
      have size := congrArg List.length split
      rw [List.length_append] at size
      cases later : (pass rest).result with
      | error fault =>
        simp only [found, later] at read
        cases read
      | ok others =>
        simp only [found, later] at read ⊢
        cases read
        obtain ⟨more, body, showsLater⟩ := pass_located rest (start + used.length) total (by omega) later
        rw [split]
        exact ⟨visits ++ more, .cons located (by simp) body, by rw [← split]; exact shows.append showsLater⟩
termination_by tokens.length
decreasing_by exact shorter

end Grammar

end PlcJava
