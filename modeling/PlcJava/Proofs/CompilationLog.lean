import Mathlib
import PlcJava.Compilation.Log
import PlcJava.Proofs.Resumption
import PlcJava.Proofs.RuleEntries

/-! What a compilation reports. The log tells the tokens as far as they were read, then the statements in the
order in which they begin, and then the size of the result; where a stage fails, it stops. -/

set_option autoImplicit false

namespace PlcJava

/-! Tokens before a fault. -/

/-- The tokens that are complete before the fault: those in front of an open string, or those in front of the
number with the dangling point. -/
def CompleteBefore (source : String) (error : LexError) (tokens : List Token) : Prop :=
  match error.fault with
  | .openString => lex (excerpt source 0 error.offset) = .ok tokens
  | .danglingPoint =>
    ∃ number, (number.kind = .integer ∨ number.kind = .decimal) ∧
      lex (excerpt source 0 (error.offset - 1)) = .ok (tokens ++ [number])

namespace Cursor

private theorem complete_of_dangling {source : String} {stop : Nat}
    (failed : lex source = .error ⟨.danglingPoint, stop⟩) :
    CompleteBefore source ⟨.danglingPoint, stop⟩ (ofString source).sweep.tokens := by
  obtain ⟨read, digits, after, tokens, kind, split, _, _, isNumber, place, lexed, complete, _⟩ := sweep_dangling failed
  have stops : stop - 1 = (read ++ digits).length := by
    rw [place, List.length_append]
    exact congrArg (· + digits.length) (Nat.zero_add read.length)
  rw [complete rfl]
  exact ⟨_, isNumber, (lex_excerpt (read ++ digits) ('.' :: after) split stops).trans lexed⟩

private theorem complete_of_open {source : String} {start : Nat} (failed : lex source = .error ⟨.openString, start⟩) :
    CompleteBefore source ⟨.openString, start⟩ (ofString source).sweep.tokens := by
  obtain ⟨read, left, whole, ends, reads⟩ := sweep_course 0 source.toList
  obtain ⟨tokens, swept⟩ := reads []
  have here : (ofString source).sweep = (sweep ⟨read.length, [], left⟩).behind tokens := by
    rw [ofString, whole, swept left (.inr rfl), Nat.zero_add, ite_self]
  have alone : (sweep ⟨0, [], read⟩).answer = .ok tokens := by
    have ended := swept [] (.inl rfl)
    rw [List.append_nil, sweep_nil] at ended
    rw [ended]
    exact congrArg Except.ok (List.append_nil tokens)
  rw [lex, here] at failed
  rcases ends with rfl | ⟨c, cs, fault, rfl, visible, sorted⟩
  · rw [sweep_nil] at failed
    cases failed
  · rw [sweep_fault visible sorted] at failed here
    have place : start = read.length := by
      rcases Lexeme.scan_fault sorted with ⟨rfl, _⟩ | ⟨rfl, _⟩
      · exact (congrArg LexError.offset (Except.error.inj failed)).symm
      · cases congrArg LexError.fault (Except.error.inj failed)
    have tokensHere : (ofString source).sweep.tokens = tokens := by
      rw [here]
      exact List.append_nil tokens
    rw [tokensHere]
    exact (lex_excerpt read (c :: cs) whole place).trans alone

private theorem sweep_complete {source : String} {error : LexError} (failed : lex source = .error error) :
    CompleteBefore source error (ofString source).sweep.tokens := by
  obtain ⟨fault, offset⟩ := error
  cases fault with
  | danglingPoint => exact complete_of_dangling failed
  | openString => exact complete_of_open failed

end Cursor

/-! The texts of the records. -/

def Token.report (token : Token) : Record :=
  let described :=
    match token.kind with
    | .identifier => "identifier '" ++ token.literal ++ "'"
    | .integer => "integer '" ++ token.literal ++ "'"
    | .decimal => "decimal '" ++ token.literal ++ "'"
    | .string => "string literal " ++ token.literal
    | .operator => "operator '" ++ token.literal ++ "'"
  ⟨.trace, .lexer, "lexed " ++ described ++ " at " ++ token.start.repr⟩

def Rule.report (rule : Rule) (position : Nat) : Record :=
  match rule with
  | .expression => ⟨.trace, .statements, "expression statement at token " ++ position.repr⟩
  | .declaration => ⟨.trace, .statements, "declaration at token " ++ position.repr⟩
  | .assignment => ⟨.trace, .statements, "assignment at token " ++ position.repr⟩
  | .conditional => ⟨.trace, .statements, "if statement at token " ++ position.repr⟩
  | .loop => ⟨.trace, .statements, "while statement at token " ++ position.repr⟩

private theorem Record.lexed_eq : Record.lexed = Token.report := by
  funext ⟨kind, literal, start⟩
  cases kind <;> rfl

private theorem Record.began_eq : Record.began = Rule.report := by
  funext rule position
  cases rule <;> rfl

private theorem Rule.report_injective :
    Function.Injective fun ((rule, position) : Rule × Nat) => rule.report position := by
  rintro ⟨first, position⟩ ⟨second, place⟩ same
  have message := congrArg Record.message same
  cases first <;> cases second <;> simp [Rule.report, String.ext_iff] at message ⊢
  all_goals exact Nat.repr_inj.mp (String.ext_iff.mpr (by simp [message]))

/-! The log. -/

/-- Where the rule of the visited statement begins: at its first token, or behind its keyword. -/
def Visit.position (visit : Visit) : Nat := visit.first + visit.statement.lead

private theorem Grammar.Shows.trace {total : Nat} {entries : List Entry} {visits : List Visit}
    (shows : Shows total entries visits) :
    entries.map (fun entry => (entry.rule, total - entry.left)) =
      visits.map fun visit => (visit.statement.rule, visit.position) := by
  induction shows with
  | nil => rfl
  | cons marked _ ih =>
    obtain ⟨rule, place⟩ := marked
    rw [List.map_cons, List.map_cons, ih, rule, Visit.position, ← place, Nat.add_sub_cancel_left]

private theorem compileLog_of_fault {source : String} {error : LexError} (failed : lex source = .error error) :
    compileLog source = (Cursor.ofString source).sweep.tokens.map Token.report := by
  unfold lex Sweep.answer at failed
  unfold compileLog
  cases found : (Cursor.ofString source).sweep.error? with
  | none =>
    rw [found] at failed
    cases failed
  | some fault => simp only [found, List.append_nil, Record.lexed_eq]

private theorem compileLog_of_tokens {source : String} {tokens : List Token} (lexed : lex source = .ok tokens) :
    compileLog source =
      tokens.map Token.report ++
        [⟨.debug, .lexer, "lexed " ++ tokens.length.repr ++ " tokens"⟩,
          ⟨.debug, .compiler, "lexing finished with " ++ tokens.length.repr ++ " tokens"⟩] ++
        parseLog tokens := by
  unfold lex Sweep.answer at lexed
  unfold compileLog
  cases found : (Cursor.ofString source).sweep.error? with
  | some fault =>
    rw [found] at lexed
    cases lexed
  | none =>
    rw [found] at lexed
    cases lexed
    simp only [found, List.append_assoc, Record.lexed_eq]
    rfl

private theorem parseLog_of_fault {tokens : List Token} {error : ParseError} (failed : parse tokens = .error error) :
    parseLog tokens =
        ((Parsing.pass tokens).trace tokens.length).map (fun (rule, position) => rule.report position) ∧
      error.index = (Parsing.pass tokens).stop tokens.length := by
  have whole : (Parser.ofTokens tokens).pass = Parsing.pass tokens := rfl
  rw [parse, Parser.answer, whole, Pass.answer] at failed
  cases result : (Parsing.pass tokens).result with
  | ok program =>
    rw [result] at failed
    cases failed
  | error fault =>
    rw [result] at failed
    cases failed
    refine ⟨?_, rfl⟩
    simp only [parseLog, whole, result, List.append_nil, Record.began_eq]

private theorem parseLog_of_program {tokens : List Token} {statements : Program}
    (read : parse tokens = .ok statements) : parseLog tokens =
      ((Parsing.pass tokens).trace tokens.length).map (fun (rule, position) => rule.report position) ++
        [⟨.debug, .program, "parsed " ++ statements.length.repr ++ " top-level statements"⟩,
          ⟨.debug, .compiler, "parsing finished with " ++ statements.length.repr ++ " statements"⟩,
          ⟨.debug, .generator, "generated " ++ (Java.program statements).render.toUTF8.size.repr ++
            " bytes for " ++ statements.length.repr ++ " statements"⟩] := by
  have whole : (Parser.ofTokens tokens).pass = Parsing.pass tokens := rfl
  simp only [parseLog, whole, Grammar.parse_eq_ok.mp read, Record.began_eq]
  rfl

/-- The log is a faithful account. A text that is no row of tokens is reported up to its fault; otherwise its
tokens and their number come first. Then follow the rules that are entered, in order and each where its statement
is to begin: in a program one for each statement of the tree, and in a failed reading none behind the error. A
program ends with its size and that of the Java text. -/
theorem compileLog_faithful (source : String) :
    (∀ error, lex source = .error error →
      ∃ tokens, CompleteBefore source error tokens ∧ compileLog source = tokens.map Token.report) ∧
    ∀ tokens, lex source = .ok tokens →
      ∃ rules : List (Rule × Nat),
        rules.Pairwise (fun first second => first.2 < second.2) ∧
        (∀ rule position, (rule, position) ∈ rules ↔ Grammar.Enters tokens rule position) ∧
        (∀ error, parse tokens = .error error →
          (∀ rule position, (rule, position) ∈ rules → position ≤ error.index) ∧
          compileLog source =
            tokens.map Token.report ++
              [⟨.debug, .lexer, "lexed " ++ tokens.length.repr ++ " tokens"⟩,
                ⟨.debug, .compiler, "lexing finished with " ++ tokens.length.repr ++ " tokens"⟩] ++
              rules.map fun (rule, position) => rule.report position) ∧
        ∀ statements, parse tokens = .ok statements →
          ∃ visits java, Grammar.LocatedBody [] 0 tokens statements visits ∧
            visits.map Visit.statement = Statement.preorderAll statements ∧
            (∀ visit ∈ visits, Grammar.Stands 0 tokens visit) ∧
            rules = visits.map (fun visit => (visit.statement.rule, visit.position)) ∧
            compile source = .ok java ∧
            compileLog source =
              tokens.map Token.report ++
                [⟨.debug, .lexer, "lexed " ++ tokens.length.repr ++ " tokens"⟩,
                  ⟨.debug, .compiler, "lexing finished with " ++ tokens.length.repr ++ " tokens"⟩] ++
                rules.map (fun (rule, position) => rule.report position) ++
                [⟨.debug, .program, "parsed " ++ statements.length.repr ++ " top-level statements"⟩,
                  ⟨.debug, .compiler, "parsing finished with " ++ statements.length.repr ++ " statements"⟩,
                  ⟨.debug, .generator, "generated " ++ java.toUTF8.size.repr ++ " bytes for " ++
                    statements.length.repr ++ " statements"⟩] := by
  constructor
  · intro error failed
    exact ⟨_, Cursor.sweep_complete failed, compileLog_of_fault failed⟩
  · intro tokens lexed
    have ordered := Parsing.pass_ordered tokens
    refine ⟨(Parsing.pass tokens).trace tokens.length, ordered.increasing, fun _ _ => Grammar.mem_trace_iff, ?_, ?_⟩
    · intro error failed
      obtain ⟨log, stop⟩ := parseLog_of_fault failed
      constructor
      · intro rule position member
        rw [stop]
        exact ordered.le_stop member
      · rw [compileLog_of_tokens lexed, log]
    · intro statements read
      obtain ⟨visits, located, shows⟩ :=
        Grammar.pass_located tokens 0 tokens.length (Nat.zero_add _) (Grammar.parse_eq_ok.mp read)
      have compiled : compile source = .ok (Java.program statements).render := by
        apply compile_eq_ok.mpr
        refine ⟨statements, ?_, rfl⟩
        rw [Program.read_eq_parse lexed, read]
        rfl
      refine ⟨visits, _, located, located.preorder, located.stands, shows.trace, compiled, ?_⟩
      rw [compileLog_of_tokens lexed, parseLog_of_program read, ← List.append_assoc]

set_option maxRecDepth 1024 in
theorem compileLog_faithful_conditional :
    compileLog "x \"é\" 1 2.5 3." =
      [⟨.trace, .lexer, "lexed identifier 'x' at 0"⟩, ⟨.trace, .lexer, "lexed string literal \"é\" at 2"⟩,
        ⟨.trace, .lexer, "lexed integer '1' at 6"⟩, ⟨.trace, .lexer, "lexed decimal '2.5' at 8"⟩] ∧
    compileLog "WHILE a DO LET n: I; c" =
      [⟨.trace, .lexer, "lexed identifier 'WHILE' at 0"⟩, ⟨.trace, .lexer, "lexed identifier 'a' at 6"⟩,
        ⟨.trace, .lexer, "lexed identifier 'DO' at 8"⟩, ⟨.trace, .lexer, "lexed identifier 'LET' at 11"⟩,
        ⟨.trace, .lexer, "lexed identifier 'n' at 15"⟩, ⟨.trace, .lexer, "lexed operator ':' at 16"⟩,
        ⟨.trace, .lexer, "lexed identifier 'I' at 18"⟩, ⟨.trace, .lexer, "lexed operator ';' at 19"⟩,
        ⟨.trace, .lexer, "lexed identifier 'c' at 21"⟩, ⟨.debug, .lexer, "lexed 9 tokens"⟩,
        ⟨.debug, .compiler, "lexing finished with 9 tokens"⟩, ⟨.trace, .statements, "while statement at token 1"⟩,
        ⟨.trace, .statements, "declaration at token 4"⟩, ⟨.trace, .statements, "expression statement at token 8"⟩] ∧
    (∀ rule position,
      Grammar.Enters
          [⟨.identifier, "WHILE", 0⟩, ⟨.identifier, "a", 6⟩, ⟨.identifier, "DO", 8⟩, ⟨.identifier, "LET", 11⟩,
            ⟨.identifier, "n", 15⟩, ⟨.operator, ":", 16⟩, ⟨.identifier, "I", 18⟩, ⟨.operator, ";", 19⟩,
            ⟨.identifier, "c", 21⟩] rule position ↔
        (rule, position) ∈ [(Rule.loop, 1), (Rule.declaration, 4), (Rule.expression, 8)]) ∧
    compileLog "IF a THEN s = \"é\"; ELSE b; END" =
      [⟨.trace, .lexer, "lexed identifier 'IF' at 0"⟩, ⟨.trace, .lexer, "lexed identifier 'a' at 3"⟩,
        ⟨.trace, .lexer, "lexed identifier 'THEN' at 5"⟩, ⟨.trace, .lexer, "lexed identifier 's' at 10"⟩,
        ⟨.trace, .lexer, "lexed operator '=' at 12"⟩, ⟨.trace, .lexer, "lexed string literal \"é\" at 14"⟩,
        ⟨.trace, .lexer, "lexed operator ';' at 17"⟩, ⟨.trace, .lexer, "lexed identifier 'ELSE' at 19"⟩,
        ⟨.trace, .lexer, "lexed identifier 'b' at 24"⟩, ⟨.trace, .lexer, "lexed operator ';' at 25"⟩,
        ⟨.trace, .lexer, "lexed identifier 'END' at 27"⟩, ⟨.debug, .lexer, "lexed 11 tokens"⟩,
        ⟨.debug, .compiler, "lexing finished with 11 tokens"⟩, ⟨.trace, .statements, "if statement at token 1"⟩,
        ⟨.trace, .statements, "assignment at token 3"⟩, ⟨.trace, .statements, "expression statement at token 8"⟩,
        ⟨.debug, .program, "parsed 1 top-level statements"⟩,
        ⟨.debug, .compiler, "parsing finished with 1 statements"⟩,
        ⟨.debug, .generator, "generated 162 bytes for 1 statements"⟩] ∧
    Grammar.LocatedBody [] 0
      [⟨.identifier, "IF", 0⟩, ⟨.identifier, "a", 3⟩, ⟨.identifier, "THEN", 5⟩, ⟨.identifier, "s", 10⟩,
        ⟨.operator, "=", 12⟩, ⟨.string, "\"é\"", 14⟩, ⟨.operator, ";", 17⟩, ⟨.identifier, "ELSE", 19⟩,
        ⟨.identifier, "b", 24⟩, ⟨.operator, ";", 25⟩, ⟨.identifier, "END", 27⟩]
      [.conditional (.reference "a") [.assignment "s" (.literal (.string "é"))] [.expression (.reference "b")]]
      [⟨.conditional (.reference "a") [.assignment "s" (.literal (.string "é"))] [.expression (.reference "b")], 0⟩,
        ⟨.assignment "s" (.literal (.string "é")), 3⟩, ⟨.expression (.reference "b"), 8⟩] := by
  have dangling : lex "x \"é\" 1 2.5 3." = .error ⟨.danglingPoint, 14⟩ := by cbv
  have before : lex (excerpt "x \"é\" 1 2.5 3." 0 13) =
      .ok [⟨.identifier, "x", 0⟩, ⟨.string, "\"é\"", 2⟩, ⟨.integer, "1", 6⟩, ⟨.decimal, "2.5", 8⟩,
        ⟨.integer, "3", 12⟩] := by cbv
  have unended : lex "WHILE a DO LET n: I; c" =
      .ok [⟨.identifier, "WHILE", 0⟩, ⟨.identifier, "a", 6⟩, ⟨.identifier, "DO", 8⟩, ⟨.identifier, "LET", 11⟩,
        ⟨.identifier, "n", 15⟩, ⟨.operator, ":", 16⟩, ⟨.identifier, "I", 18⟩, ⟨.operator, ";", 19⟩,
        ⟨.identifier, "c", 21⟩] := by cbv
  have lexed : lex "IF a THEN s = \"é\"; ELSE b; END" =
      .ok [⟨.identifier, "IF", 0⟩, ⟨.identifier, "a", 3⟩, ⟨.identifier, "THEN", 5⟩, ⟨.identifier, "s", 10⟩,
        ⟨.operator, "=", 12⟩, ⟨.string, "\"é\"", 14⟩, ⟨.operator, ";", 17⟩, ⟨.identifier, "ELSE", 19⟩,
        ⟨.identifier, "b", 24⟩, ⟨.operator, ";", 25⟩, ⟨.identifier, "END", 27⟩] := by cbv
  have compiled : compile "IF a THEN s = \"é\"; ELSE b; END" =
      .ok ("public final class Main \x7b\n\n    public static void main(String[] args) \x7b\n        if (a) \x7b\n" ++
        "            s = \"é\";\n        \x7d else \x7b\n            b;\n        \x7d\n    \x7d\n\n\x7d\n") := by cbv
  obtain ⟨tokens, ⟨number, _, found⟩, logBefore⟩ := (compileLog_faithful "x \"é\" 1 2.5 3.").1 _ dangling
  have complete := congrArg List.dropLast (Except.ok.inj (found.symm.trans before))
  rw [List.dropLast_concat] at complete
  subst complete
  obtain ⟨entered, _, enters, failed, _⟩ := (compileLog_faithful "WHILE a DO LET n: I; c").2 _ unended
  obtain ⟨_, logEntered⟩ := failed ⟨.missingSemicolon, 9⟩ (by cbv)
  have places : entered = [(.loop, 1), (.declaration, 4), (.expression, 8)] :=
    List.map_injective_iff.mpr Rule.report_injective (List.append_cancel_left (logEntered.symm.trans (by cbv)))
  subst places
  obtain ⟨rules, _, _, _, read⟩ := (compileLog_faithful "IF a THEN s = \"é\"; ELSE b; END").2 _ lexed
  obtain ⟨visits, java, located, preorder, _, shows, returned, log⟩ :=
    read [.conditional (.reference "a") [.assignment "s" (.literal (.string "é"))] [.expression (.reference "b")]]
      (by cbv)
  cases Except.ok.inj (returned.symm.trans compiled)
  have places : rules = [(.conditional, 1), (.assignment, 3), (.expression, 8)] :=
    List.map_injective_iff.mpr Rule.report_injective
      (List.append_cancel_left (List.append_cancel_right (log.symm.trans (by cbv))))
  subst places
  refine ⟨logBefore, logEntered, fun rule position => (enters rule position).symm, log, ?_⟩
  simp only [Statement.preorderAll, Statement.preorder, List.append_nil, List.cons_append, List.nil_append] at preorder
  obtain ⟨⟨_, first⟩, _, rfl, rfl, inside⟩ := List.map_eq_cons_iff.mp preorder
  obtain ⟨⟨_, second⟩, _, rfl, rfl, behind⟩ := List.map_eq_cons_iff.mp inside
  obtain ⟨⟨_, third⟩, _, rfl, rfl, nothing⟩ := List.map_eq_cons_iff.mp behind
  cases List.map_eq_nil_iff.mp nothing
  cases shows
  exact located

end PlcJava
