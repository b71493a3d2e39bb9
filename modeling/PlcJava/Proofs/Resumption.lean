import Mathlib
import PlcJava.Proofs.Passes
import PlcJava.Proofs.TokenBoundary

/-! Passes over one text, each begun where the one before ended. Only a number with a dangling
point leaves anything to read, and what waits for a token there is that number alone: a pass never
stops before a digit, so the next number cannot be taken for its continuation. -/

set_option autoImplicit false

namespace PlcJava

def excerpt (source : String) (start stop : Nat) : String := String.ofList ((source.toList.take stop).drop start)

/-- An answer to a text that stands so many characters later. -/
def relocated (count : Nat) : Except LexError (List Token) → Except LexError (List Token)
  | .ok tokens => .ok (tokens.map (Token.shifted count))
  | .error error => .error ⟨error.fault, error.offset + count⟩

private theorem Sweep.answer_shifted_eq (count : Nat) (sweep : Sweep) :
    (sweep.shifted count).answer = relocated count sweep.answer := by
  unfold answer shifted
  cases sweep.error? <;> rfl

/-- What was waiting before a visible character becomes the beginning of the first token. -/
def takenUp (pending : String) (start : Nat) (next : Option Char) :
    Except LexError (List Token) → Except LexError (List Token)
  | .ok (first :: others) =>
    if next.any (!isBlank ·) then .ok (⟨first.kind, pending ++ first.literal, start⟩ :: others) else .ok (first :: others)
  | answer => answer

private theorem takenUp_blank {c : Char} (blank : isBlank c = true) (pending : String) (start : Nat)
    (answer : Except LexError (List Token)) : takenUp pending start (some c) answer = answer := by
  match answer with
  | .error _ | .ok [] => rfl
  | .ok (first :: others) => simp [takenUp, blank]

namespace Cursor

/-! One pass. -/

/-- A pass reads tokens and blanks, up to the end of the text or to a piece that is no token. What it
reads of them depends on the rest of the text only by the next character, and the same is read if the
text ends there. -/
theorem sweep_course (offset : Nat) (rest : List Char) :
    ∃ read left, rest = read ++ left ∧
      (left = [] ∨ ∃ c cs fault, left = c :: cs ∧ isBlank c = false ∧ (Lexeme.scan c cs).sort = .error fault) ∧
      ∀ pending, ∃ tokens, ∀ other, other = [] ∨ other.head? = left.head? →
        sweep ⟨offset, pending, read ++ other⟩ =
          (sweep ⟨offset + read.length, if read = [] then pending else [], other⟩).behind tokens := by
  match rest with
  | [] => exact ⟨[], [], rfl, .inl rfl, fun _ => ⟨[], fun _ _ => rfl⟩⟩
  | c :: cs =>
    cases blank : isBlank c with
    | true =>
      obtain ⟨read, left, rfl, ends, reads⟩ := sweep_course (offset + 1) cs
      refine ⟨c :: read, left, rfl, ends, fun pending => ?_⟩
      obtain ⟨tokens, swept⟩ := reads []
      refine ⟨tokens, fun other same => ?_⟩
      rw [List.cons_append, sweep_blank blank, swept other same, List.length_cons, Nat.add_assoc, Nat.add_comm 1,
        ite_self, if_neg (List.cons_ne_nil c read)]
    | false =>
      have shorter : (Lexeme.scan c cs).rest.length < cs.length + 1 := Lexeme.scan_rest_shorter c cs
      cases sorted : (Lexeme.scan c cs).sort with
      | error fault => exact ⟨[], c :: cs, rfl, .inr ⟨c, cs, fault, rfl, blank, sorted⟩, fun _ => ⟨[], fun _ _ => rfl⟩⟩
      | ok kind =>
        have munch := Lexeme.scan_sound blank sorted
        have whole := Lexeme.scan_text_append c cs
        generalize Lexeme.scan c cs = lexeme at *
        obtain ⟨read, left, split, ends, reads⟩ := sweep_course (offset + lexeme.text.length) lexeme.rest
        refine ⟨lexeme.text ++ read, left, by rw [← whole, split, List.append_assoc], ends, fun pending => ?_⟩
        obtain ⟨tokens, swept⟩ := reads []
        refine ⟨(Cursor.mk offset pending []).token kind lexeme.text :: tokens, fun other same => ?_⟩
        have still : Munch kind lexeme.text (read ++ other) := by
          rcases same with rfl | same
          · refine ⟨munch.shape, fun next member => munch.longest next ?_⟩
            rw [List.append_nil] at member
            rw [split, List.head?_append, member]
            rfl
          · apply munch.of_head?
            rw [split, List.head?_append, List.head?_append, same]
        rw [List.append_assoc, sweep_token still, swept other same, ← Sweep.behind_append, List.length_append,
          Nat.add_assoc, ite_self, if_neg (List.append_ne_nil_of_left_ne_nil munch.ne_nil read)]
        rfl
termination_by rest.length

private theorem sweep_stop (offset : Nat) (rest : List Char) :
    ∃ read text after, rest = read ++ text ++ after ∧ (rest ≠ [] → read ++ text ≠ []) ∧
      (∀ next ∈ after.head?, next.isDigit = false) ∧
      ∀ pending, (sweep ⟨offset, pending, rest⟩).cursor =
        ⟨offset + (read ++ text).length, (if read = [] then pending else []) ++ text, after⟩ := by
  obtain ⟨read, left, rfl, ends, reads⟩ := sweep_course offset rest
  rcases ends with rfl | ⟨c, cs, fault, rfl, visible, sorted⟩
  · refine ⟨read, [], [], by simp, by simp, by simp, fun pending => ?_⟩
    obtain ⟨tokens, swept⟩ := reads pending
    rw [swept [] (.inl rfl), sweep_nil, List.append_nil, List.append_nil]
    rfl
  · have whole := Lexeme.scan_text_append c cs
    have nonempty := Lexeme.scan_text_ne_nil c cs
    refine ⟨read, (Lexeme.scan c cs).text, (Lexeme.scan c cs).rest, by rw [List.append_assoc, whole],
      fun _ => List.append_ne_nil_of_right_ne_nil read nonempty, ?_, fun pending => ?_⟩
    · rcases Lexeme.scan_fault sorted with ⟨_, ends⟩ | ⟨_, _, _, _, _, stop⟩
      · simp [ends]
      · exact stop
    · obtain ⟨tokens, swept⟩ := reads pending
      rw [swept _ (.inr rfl), sweep_fault visible sorted, List.length_append, Nat.add_assoc]
      rfl

/-- Only a dangling point leaves anything to read. -/
theorem sweep_rest {cursor : Cursor} (other : ∀ offset, cursor.sweep.answer ≠ .error ⟨.danglingPoint, offset⟩) :
    cursor.sweep.cursor.rest = [] := by
  obtain ⟨offset, pending, rest⟩ := cursor
  obtain ⟨read, left, rfl, ends, reads⟩ := sweep_course offset rest
  obtain ⟨tokens, swept⟩ := reads pending
  rw [swept left (.inr rfl)] at other ⊢
  rcases ends with rfl | ⟨c, cs, fault, rfl, visible, sorted⟩
  · rw [sweep_nil]
    rfl
  · rw [sweep_fault visible sorted] at other ⊢
    rcases Lexeme.scan_fault sorted with ⟨_, ends⟩ | ⟨rfl, _⟩
    · exact ends
    · exact absurd rfl (other _)

/-- The number of a dangling point is the last token of the text before the point, behind those that were
completed. -/
theorem sweep_dangling {cursor : Cursor} {stop : Nat}
    (failed : cursor.sweep.answer = .error ⟨.danglingPoint, stop⟩) :
    ∃ read digits after tokens kind, cursor.rest = read ++ digits ++ '.' :: after ∧ digits ≠ [] ∧
      DigitGroups digits ∧ (kind = .integer ∨ kind = .decimal) ∧
      stop = cursor.offset + read.length + digits.length + 1 ∧
      (sweep ⟨cursor.offset, [], read ++ digits⟩).answer =
        .ok (tokens ++ [⟨kind, String.ofList digits, cursor.offset + read.length⟩]) ∧
      (cursor.pending = [] → cursor.sweep.tokens = tokens) ∧
      cursor.sweep.cursor = ⟨stop, (if read = [] then cursor.pending else []) ++ (digits ++ ['.']), after⟩ := by
  obtain ⟨offset, pending, rest⟩ := cursor
  obtain ⟨read, left, rfl, ends, reads⟩ := sweep_course offset rest
  obtain ⟨tokens, swept⟩ := reads pending
  have here := swept left (.inr rfl)
  rcases ends with rfl | ⟨c, cs, fault, rfl, visible, sorted⟩
  · rw [here, sweep_nil] at failed
    cases failed
  · rw [sweep_fault visible sorted] at here
    rw [here] at failed ⊢
    rcases Lexeme.scan_fault sorted with ⟨rfl, _⟩ | ⟨rfl, digits, text, nonempty, groups, _⟩
    · cases failed
    · have place : stop = offset + read.length + digits.length + 1 := by
        have same := congrArg LexError.offset (Except.error.inj failed)
        simp only [Cursor.error, text, List.length_append, List.length_singleton] at same
        omega
      have whole := Lexeme.scan_text_append c cs
      have munch : Munch (Lexeme.numberKind .integer digits) digits [] :=
        Lexeme.number_munch groups nonempty (by simp [Lexeme.Ended])
      obtain ⟨fresh, sweptFresh⟩ := reads []
      have first : digits.head? = (c :: cs).head? := by
        rw [← whole, text, List.append_assoc, List.head?_append]
        obtain ⟨d, others, rfl⟩ := List.exists_cons_of_ne_nil nonempty
        rfl
      have kind : Lexeme.numberKind .integer digits = .integer ∨ Lexeme.numberKind .integer digits = .decimal := by
        unfold Lexeme.numberKind
        split
        · exact .inr rfl
        · exact .inl rfl
      refine ⟨read, digits, (Lexeme.scan c cs).rest, fresh, _, ?_, nonempty, groups, kind, place, ?_, ?_, ?_⟩
      · rw [← whole, text]
        simp
      · have token := sweep_token munch (offset + read.length) []
        rw [List.append_nil, sweep_nil] at token
        rw [sweptFresh digits (.inr first), ite_self, token, ← Sweep.behind_append]
        simp [Sweep.behind, Sweep.answer, Cursor.token]
      · intro none
        cases none
        rw [← here, sweptFresh (c :: cs) (.inr rfl), sweep_fault visible sorted]
        exact List.append_nil fresh
      · rw [text, place, List.length_append, List.length_singleton, ← Nat.add_assoc]
        rfl

private theorem answer_pending (offset : Nat) (pending rest : List Char) :
    (sweep ⟨offset, pending, rest⟩).answer =
      takenUp (String.ofList pending) (offset - pending.length) rest.head? (sweep ⟨offset, [], rest⟩).answer := by
  cases rest with
  | nil =>
    rw [sweep_nil, sweep_nil]
    rfl
  | cons c cs =>
    cases blank : isBlank c with
    | true => rw [sweep_blank blank, sweep_blank blank, List.head?_cons, takenUp_blank blank]
    | false =>
      cases sorted : (Lexeme.scan c cs).sort with
      | error fault =>
        rw [sweep_fault blank sorted, sweep_fault blank sorted]
        rfl
      | ok kind =>
        have munch := Lexeme.scan_sound blank sorted
        have cut := Lexeme.scan_text_append c cs
        generalize Lexeme.scan c cs = lexeme at munch cut
        rw [← cut, sweep_token munch, sweep_token munch, Sweep.answer_behind, Sweep.answer_behind, cut]
        cases (sweep ⟨offset + lexeme.text.length, [], lexeme.rest⟩).answer with
        | error error => rfl
        | ok later => simp [Except.map, takenUp, blank, Cursor.token, String.ofList_append]

/-! Passes one after the other. -/

def next (cursor : Cursor) : Cursor := cursor.sweep.cursor

def after (cursor : Cursor) (passes : Nat) : Cursor := next^[passes] cursor

theorem after_succ (cursor : Cursor) (passes : Nat) : cursor.after (passes + 1) = (cursor.after passes).next :=
  Function.iterate_succ_apply' next passes cursor

def answerAfter (cursor : Cursor) (passes : Nat) : Except LexError (List Token) := (cursor.after passes).sweep.answer

private theorem session_eq (cursor : Cursor) (calls : Nat) :
    cursor.session calls = (List.range calls).map cursor.answerAfter :=
  Passes.session_eq_map next (fun cursor => cursor.sweep.answer) (fun _ => rfl) (fun _ _ => rfl) cursor calls

/-- Where passes over a text come to. What waits for a token stands right before that place, and
no digit follows it. -/
structure Reached (source : List Char) (cursor : Cursor) : Prop where
  split : ∃ before, source = before ++ cursor.pending ++ cursor.rest ∧
    cursor.offset = (before ++ cursor.pending).length
  broken : cursor.pending = [] ∨ ∀ next ∈ cursor.rest.head?, next.isDigit = false

namespace Reached

variable {source : List Char} {cursor : Cursor}

theorem start (source : String) : Reached source.toList (ofString source) :=
  ⟨⟨[], rfl, rfl⟩, .inl rfl⟩

private theorem next (reached : Reached source cursor) : Reached source cursor.next := by
  obtain ⟨offset, pending, rest⟩ := cursor
  obtain ⟨before, whole, place⟩ := reached.split
  obtain ⟨read, text, left, split, _, stop, ends⟩ := sweep_stop offset rest
  rw [Cursor.next, ends pending]
  refine ⟨?_, .inr stop⟩
  simp only at whole place
  subst whole place split
  by_cases none : read = []
  · subst none
    exact ⟨before, by simp, by simp; omega⟩
  · exact ⟨before ++ pending ++ read, by simp [none], by simp [none]; omega⟩

theorem after (reached : Reached source cursor) (passes : Nat) : Reached source (cursor.after passes) :=
  Passes.iterate_keeps (fun _ reached => reached.next) reached passes

theorem inside (reached : Reached source cursor) : cursor.offset ≤ source.length := by
  obtain ⟨before, whole, place⟩ := reached.split
  rw [whole, place]
  exact (List.prefix_append _ _).length_le

end Reached

private theorem sweep_of_rest {cursor : Cursor} (done : cursor.rest = []) : cursor.sweep = ⟨[], none, cursor⟩ := by
  obtain ⟨offset, pending, rest⟩ := cursor
  subst done
  exact sweep_nil offset pending

private theorem answerAfter_of_rest {cursor : Cursor} {pass later : Nat} (done : (cursor.after pass).rest = [])
    (order : pass ≤ later) : cursor.answerAfter later = .ok [] := by
  have stays : (cursor.after pass).next = cursor.after pass := by rw [next, sweep_of_rest done]
  have still : cursor.after later = cursor.after pass := Passes.iterate_of_stays stays order
  rw [answerAfter, still, sweep_of_rest done]
  rfl

private theorem next_advances {cursor : Cursor} (busy : cursor.sweep.answer ≠ .ok []) :
    cursor.offset < cursor.next.offset := by
  have left : cursor.rest ≠ [] := by
    intro done
    rw [sweep_of_rest done] at busy
    exact busy rfl
  obtain ⟨offset, pending, rest⟩ := cursor
  obtain ⟨read, text, after, split, some, _, ends⟩ := sweep_stop offset rest
  rw [next, ends pending]
  exact Nat.lt_add_of_pos_right (List.length_pos_iff.mpr (some left))

/-- A success ends the work, so before a pass that does any work there were only failures, and each of
them went on in the text. -/
theorem lt_offset_of_busy {cursor : Cursor} {pass : Nat} (busy : cursor.answerAfter pass ≠ .ok []) :
    pass < (cursor.after (pass + 1)).offset := by
  induction pass with
  | zero => exact Nat.zero_lt_of_lt (next_advances busy)
  | succ pass ih =>
    have earlier : cursor.answerAfter pass ≠ .ok [] := by
      intro idle
      have done : (cursor.after (pass + 1)).rest = [] := by
        rw [after_succ]
        apply sweep_rest
        intro offset failed
        rw [answerAfter, failed] at idle
        cases idle
      exact busy (answerAfter_of_rest done (Nat.le_refl _))
    rw [after_succ]
    exact Nat.lt_of_le_of_lt (ih earlier) (next_advances busy)

end Cursor

theorem excerpt_eq {source : String} (before text after : List Char) (whole : source.toList = before ++ text ++ after)
    {start stop : Nat} (starts : start = before.length) (stops : stop = (before ++ text).length) :
    excerpt source start stop = String.ofList text := by
  rw [excerpt, whole, starts, stops, List.take_left, List.drop_left]

theorem lex_excerpt {source : String} (text after : List Char) (whole : source.toList = text ++ after) {stop : Nat}
    (stops : stop = text.length) : lex (excerpt source 0 stop) = (Cursor.sweep ⟨0, [], text⟩).answer := by
  have cut : excerpt source 0 stop = String.ofList text := excerpt_eq [] text after whole rfl stops
  rw [cut, lex, Cursor.ofString, String.toList_ofList]

private theorem relocated_lex (count : Nat) (text : List Char) :
    relocated count (lex (String.ofList text)) = (Cursor.sweep ⟨count, [], text⟩).answer := by
  have moved := Cursor.sweep_shifted count 0 text
  rw [Nat.zero_add] at moved
  rw [moved, Sweep.answer_shifted_eq, lex, Cursor.ofString, String.toList_ofList]

/-- A number begins at `start` and has its last point right before `stop`: up to that point, it is the
last token of the text that begins at `origin`. -/
def Spoiled (source : String) (origin start stop : Nat) : Prop :=
  ∃ tokens kind, (kind = .integer ∨ kind = .decimal) ∧
    relocated origin (lex (excerpt source origin (stop - 1))) =
      .ok (tokens ++ [⟨kind, excerpt source start (stop - 1), start⟩]) ∧
    excerpt source start stop = excerpt source start (stop - 1) ++ "."

/-- The answer of a fresh lexer to the text from `stop` on, except that a visible character there makes
the text from `start` the beginning of the first token. -/
def resumed (source : String) (start stop : Nat) : Except LexError (List Token) :=
  takenUp (excerpt source start stop) start source.toList[stop]?
    (relocated stop (lex (excerpt source stop source.length)))

private theorem Cursor.Reached.resumed {source : String} {cursor : Cursor} (reached : Reached source.toList cursor)
    {stop : Nat} (failed : cursor.sweep.answer = .error ⟨.danglingPoint, stop⟩) :
    ∃ start, Spoiled source cursor.offset start stop ∧
      cursor.next.sweep.answer = PlcJava.resumed source start stop := by
  obtain ⟨read, digits, after, tokens, kind, split, nonempty, groups, isNumber, place, lexed, _, ends⟩ :=
    sweep_dangling failed
  obtain ⟨before, whole, offset⟩ := reached.split
  -- Text that is waiting could only be taken up by the number if the number came first, and what
  -- follows such text is no digit.
  have fresh : (if read = [] then cursor.pending else []) = [] := by
    split
    next none =>
      rcases reached.broken with same | broken
      · exact same
      · obtain ⟨c, cs, rfl⟩ := List.exists_cons_of_ne_nil nonempty
        have other := broken c (by simp [split, none])
        rw [groups.first] at other
        cases other
    next => rfl
  generalize before ++ cursor.pending = front at whole offset
  have whole : source.toList = front ++ read ++ digits ++ ['.'] ++ after := by rw [whole, split]; simp
  have stops : stop = (front ++ read ++ digits ++ ['.']).length := by simp; omega
  have point : stop - 1 = (front ++ read ++ digits).length := by
    simp only [List.length_append, List.length_singleton] at stops ⊢
    omega
  have passed : excerpt source cursor.offset (stop - 1) = String.ofList (read ++ digits) :=
    excerpt_eq front (read ++ digits) ('.' :: after) (by simp [whole]) offset (by rw [point, List.append_assoc])
  have number : excerpt source (front ++ read).length (stop - 1) = String.ofList digits :=
    excerpt_eq (front ++ read) digits ('.' :: after) (by simp [whole]) rfl point
  have waiting : excerpt source (front ++ read).length stop = String.ofList (digits ++ ['.']) :=
    excerpt_eq (front ++ read) (digits ++ ['.']) after (by simp [whole]) rfl (by simp [stops])
  have later : excerpt source stop source.length = String.ofList after := by
    refine excerpt_eq (front ++ read ++ digits ++ ['.']) after [] (by simp [whole]) stops ?_
    rw [← whole, String.length_toList]
  refine ⟨(front ++ read).length, ⟨tokens, kind, isNumber, ?_, ?_⟩, ?_⟩
  · rw [passed, number, relocated_lex, lexed, List.length_append, offset]
  · rw [waiting, number, String.ofList_append]
  · have head : source.toList[stop]? = after.head? := by
      rw [← List.head?_drop, whole, stops, List.drop_left]
    have start : stop - (digits ++ ['.']).length = (front ++ read).length := by simp [stops]; omega
    rw [Cursor.next, ends, fresh, List.nil_append, answer_pending, PlcJava.resumed, waiting, later, head, relocated_lex, start]

/-- Lexing goes on after a failure. A text is read once, whatever happens: behind a success or an open
string there is nothing left, and behind a dangling point the rest is read as by itself, with the
number as the beginning of a token that follows it directly. Each failure takes some of the text,
so there are no more of them than characters. -/
theorem Cursor.session_resumes (source : String) (calls : Nat) :
    (ofString source).session calls = (List.range calls).map (ofString source).answerAfter ∧
    (∀ pass later tokens, pass < later → (ofString source).answerAfter pass = .ok tokens →
      (ofString source).answerAfter later = .ok []) ∧
    (∀ pass later offset, pass < later → (ofString source).answerAfter pass = .error ⟨.openString, offset⟩ →
      (ofString source).answerAfter later = .ok []) ∧
    (∀ pass stop, (ofString source).answerAfter pass = .error ⟨.danglingPoint, stop⟩ →
      ∃ start, Spoiled source ((ofString source).after pass).offset start stop ∧
        (ofString source).answerAfter (pass + 1) = resumed source start stop) ∧
    (∀ pass error, (ofString source).answerAfter pass = .error error →
      ((ofString source).after pass).offset < ((ofString source).after (pass + 1)).offset ∧
        ((ofString source).after (pass + 1)).offset ≤ source.length) ∧
    ((ofString source).session calls).countP (fun answer => !answer.isOk) ≤ source.length ∧
    ∀ pass, source.length ≤ pass → (ofString source).answerAfter pass = .ok [] := by
  have reached (pass : Nat) : Reached source.toList ((ofString source).after pass) := (Reached.start source).after pass
  have inside (pass : Nat) : ((ofString source).after pass).offset ≤ source.length := (reached pass).inside
  have ended (pass later : Nat) (order : pass < later)
      (other : ∀ offset, (ofString source).answerAfter pass ≠ .error ⟨.danglingPoint, offset⟩) :
      (ofString source).answerAfter later = .ok [] := by
    have done : ((ofString source).after (pass + 1)).rest = [] := by
      rw [after_succ]
      exact sweep_rest other
    exact answerAfter_of_rest done order
  have idle (pass : Nat) (late : source.length ≤ pass) : (ofString source).answerAfter pass = .ok [] := by
    apply Classical.byContradiction
    intro busy
    have further := lt_offset_of_busy busy
    have bound := inside (pass + 1)
    omega
  refine ⟨session_eq _ calls, ?_, ?_, ?_, ?_, ?_, idle⟩
  · intro pass later tokens order read
    exact ended pass later order (by simp [read])
  · intro pass later offset order failed
    exact ended pass later order (by simp [failed])
  · intro pass stop failed
    rw [answerAfter, after_succ]
    exact (reached pass).resumed failed
  · intro pass error failed
    refine ⟨?_, inside (pass + 1)⟩
    rw [after_succ]
    apply next_advances
    intro read
    rw [answerAfter, read] at failed
    cases failed
  · rw [session_eq, List.countP_map, List.countP_eq_length_filter]
    have early : (List.range calls).filter ((fun answer => !answer.isOk) ∘ (ofString source).answerAfter) ⊆
        List.range source.length := by
      intro pass member
      rw [List.mem_range]
      apply Nat.lt_of_not_le
      intro late
      have failed := (List.mem_filter.mp member).2
      simp [idle pass late, Except.isOk, Except.toBool] at failed
    simpa using (List.nodup_range.filter _).length_le_of_subset early

theorem Cursor.session_resumes_number :
    (ofString "x 12.;y").answerAfter 0 = .error ⟨.danglingPoint, 5⟩ ∧
    (∃ start, Spoiled "x 12.;y" 0 start 5 ∧ (ofString "x 12.;y").answerAfter 1 = resumed "x 12.;y" start 5) ∧
    0 < ((ofString "x 12.;y").after 1).offset ∧
    (ofString "x 12.;y").answerAfter 1 = .ok [⟨.operator, "12.;", 2⟩, ⟨.identifier, "y", 6⟩] ∧
    (ofString "x 12.;y").answerAfter 2 = .ok [] ∧ (ofString "x 12.;y").answerAfter 7 = .ok [] ∧
    (ofString "5\"").answerAfter 0 = .error ⟨.openString, 1⟩ ∧ (ofString "5\"").answerAfter 1 = .ok [] := by
  have failed : (ofString "x 12.;y").answerAfter 0 = .error ⟨.danglingPoint, 5⟩ := by cbv
  have read : (ofString "x 12.;y").answerAfter 1 = .ok [⟨.operator, "12.;", 2⟩, ⟨.identifier, "y", 6⟩] := by cbv
  have opened : (ofString "5\"").answerAfter 0 = .error ⟨.openString, 1⟩ := by cbv
  obtain ⟨_, success, _, dangling, advances, _, late⟩ := session_resumes "x 12.;y" 0
  obtain ⟨_, _, unclosed, _⟩ := session_resumes "5\"" 0
  exact ⟨failed, dangling 0 5 failed, (advances 0 _ failed).1, read, success 1 2 _ (by decide) read, late 7 (by decide),
    opened, unclosed 0 1 _ (by decide) opened⟩

end PlcJava
