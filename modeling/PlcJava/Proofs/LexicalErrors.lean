import Mathlib
import PlcJava.Proofs.Resumption

/-! Where lexing fails. The text before an error is lexed as if it stood alone, and conversely a text that
can be lexed stays so whatever is put behind it, as long as the first character put there does not
lengthen its last token. So an error is known from the text before it and the characters at its place. -/

set_option autoImplicit false

namespace PlcJava

private theorem Kind.Shape.groups {kind : Kind} {text : List Char} (shape : kind.Shape text)
    (number : kind = .integer ∨ kind = .decimal) : DigitGroups text := by
  rcases number with rfl | rfl
  · exact .of_digits shape.2
  · exact shape.1

namespace Lexeme

private theorem number_dangling {digits : List Char} (groups : DigitGroups digits) (nonempty : digits ≠ [])
    (plain : ¬ Pointed digits) (kind : Kind) {rest : List Char} (stop : ∀ next ∈ rest.head?, next.isDigit = false) :
    number kind (digits ++ '.' :: rest) = ⟨.error .danglingPoint, digits ++ ['.'], rest⟩ := by
  induction groups generalizing kind with
  | nil => exact absurd rfl nonempty
  | @digit c cs digit later ih =>
    by_cases last : cs = []
    · subst last
      rw [List.singleton_append, number.eq_def]
      cases rest with
      | nil => simp [digit]
      | cons d tail =>
        have other := stop d rfl
        simp [digit, other]
    · obtain ⟨d, ds, rfl⟩ := List.exists_cons_of_ne_nil last
      have noPoint : ∀ tail, d :: ds ++ '.' :: rest ≠ '.' :: tail := by
        intro tail same
        exact isDigit_ne_point later.first (List.cons.inj same).1
      rw [List.cons_append, number_digit digit noPoint, ih last (fun pointed => plain (pointed.cons c)) kind]
      rfl
  | @pair c d cs before after later ih =>
    have more : cs ≠ [] := by
      rintro rfl
      exact plain ⟨[c], d, rfl⟩
    have laterPlain : ¬ Pointed cs := fun pointed => plain (((pointed.cons d).cons '.').cons c)
    rw [List.cons_append, List.cons_append, List.cons_append, number_pair before after, ih more laterPlain .decimal]
    rfl

private theorem numberKind_cases (text : List Char) :
    numberKind .integer text = .integer ∨ numberKind .integer text = .decimal := by
  unfold numberKind
  split
  · exact .inr rfl
  · exact .inl rfl

/-- A number with a dangling point: the digit before the point is not itself the one behind a point. -/
theorem scan_dangling {c : Char} {cs : List Char} (read : (scan c cs).sort = .error .danglingPoint) :
    ∃ digits rest, scan c cs = ⟨.error .danglingPoint, digits ++ ['.'], rest⟩ ∧ digits ≠ [] ∧ DigitGroups digits ∧
      ¬ Pointed digits ∧ ∀ next ∈ rest.head?, next.isDigit = false := by
  obtain ⟨other, _⟩ | ⟨_, digits, text, nonempty, groups, stop⟩ := scan_fault read
  · cases other
  · have whole := scan_text_append c cs
    refine ⟨digits, (scan c cs).rest, ?_, nonempty, groups, ?_, stop⟩
    · rw [← text, ← read]
    · intro pointed
      obtain ⟨d, ds, rfl⟩ := List.exists_cons_of_ne_nil nonempty
      have first : d = c := by
        rw [text] at whole
        exact (List.cons.inj whole).1
      subst first
      have ended : Ended (d :: ds) ('.' :: (scan d cs).rest) := by
        intro next member
        cases member
        exact ⟨rfl, fun _ => .inr pointed⟩
      have complete := number_complete groups .integer ended
      rw [text, List.append_assoc, List.singleton_append] at whole
      rw [whole, ← scan_digit cs groups.first] at complete
      rw [complete] at read
      cases read

private theorem string_open {cs : List Char} (plain : '"' ∉ cs) : string cs = ⟨.error .openString, '"' :: cs, []⟩ := by
  have none : cs.dropWhile (· ≠ '"') = [] := by
    apply List.dropWhile_eq_nil_iff.mpr
    intro c member
    have other : c ≠ '"' := fun same => plain (same ▸ member)
    simpa using other
  rw [string, none]

private theorem scan_open {c : Char} {cs : List Char} (read : (scan c cs).sort = .error .openString) :
    c = '"' ∧ '"' ∉ cs := by
  by_cases quote : c = '"'
  · subst quote
    rw [scan_quote] at read
    unfold string at read
    split at read
    next none =>
      refine ⟨rfl, ?_⟩
      intro member
      simpa using List.dropWhile_eq_nil_iff.mp none '"' member
    next => cases read
  · unfold scan at read
    split_ifs at read
    · cases read
    · cases (number_fault read).1
    · unfold operator at read
      split at read
      · split_ifs at read
      · cases read

end Lexeme

/-! The text before an error. -/

namespace Cursor

/-- A text that can be lexed is lexed in the same way in front of a character that does not lengthen
its last token. -/
theorem sweep_continues {text : List Char} {offset : Nat} {tokens : List Token}
    (read : (sweep ⟨offset, [], text⟩).answer = .ok tokens) (rest : List Char)
    (closed : ∀ token ∈ tokens, token.stop = offset + text.length → ∀ next ∈ rest.head?,
      ¬ token.kind.Extends token.literal.toList next) :
    sweep ⟨offset, [], text ++ rest⟩ = (sweep ⟨offset + text.length, [], rest⟩).behind tokens := by
  match text with
  | [] =>
    rw [sweep_nil] at read
    cases read
    rfl
  | c :: cs =>
    cases blank : isBlank c with
    | true =>
      rw [sweep_blank blank] at read
      rw [List.length_cons, ← Nat.add_assoc, Nat.add_right_comm] at closed
      rw [List.cons_append, sweep_blank blank, sweep_continues read rest closed, List.length_cons, Nat.add_assoc,
        Nat.add_comm 1]
    | false =>
      obtain ⟨kind, piece, left, whole, munch⟩ := sweep_visible blank read
      have nonempty := List.length_pos_iff.mpr munch.ne_nil
      rw [whole] at read closed ⊢
      rw [sweep_token munch] at read
      obtain ⟨later, readLater, rfl⟩ := Sweep.answer_behind_eq_ok.mp read
      have shorter : left.length < cs.length + 1 := by
        have size := congrArg List.length whole
        rw [List.length_append, List.length_cons] at size
        omega
      have still : Munch kind piece (left ++ rest) := by
        refine ⟨munch.shape, ?_⟩
        cases left with
        | nil =>
          have ends := closed _ List.mem_cons_self
          simpa [Cursor.token, Token.stop] using ends
        | cons next left => exact munch.longest
      have closedLater : ∀ token ∈ later, token.stop = offset + piece.length + left.length → ∀ next ∈ rest.head?,
          ¬ token.kind.Extends token.literal.toList next := by
        intro token member ends
        apply closed token (List.mem_append_right _ member)
        rw [ends, List.length_append, Nat.add_assoc]
      rw [List.append_assoc, sweep_token still, sweep_continues readLater rest closedLater, ← Sweep.behind_append,
        List.length_append, Nat.add_assoc]
      rfl
termination_by text.length

private theorem sweep_before_last {text : List Char} {tokens : List Token} {last : Token}
    (read : (sweep ⟨0, [], text⟩).answer = .ok (tokens ++ [last])) (ends : last.stop = text.length) :
    ∃ before, text = before ++ last.literal.toList ∧ last.start = before.length ∧
      Munch last.kind last.literal.toList [] ∧ (sweep ⟨0, [], before⟩).answer = .ok tokens ∧
      ∀ token ∈ tokens, token.stop = 0 + before.length → ∀ next ∈ last.literal.toList.head?,
        ¬ token.kind.Extends token.literal.toList next := by
  have reads : MaximalMunch text 0 (tokens ++ [last]) := (sweep_iff text 0 _).mp read
  have member : last ∈ tokens ++ [last] := by simp
  have munch := reads.munch member
  have split := reads.split member
  rw [ends, List.drop_length] at munch split
  rw [List.append_nil] at split
  have begins := reads.start_lt_stop member
  have place : (text.take last.start).length = last.start := List.length_take_of_le (by omega)
  have whole : text = text.take last.start ++ last.literal.toList := by
    rw [← split, List.take_append_drop]
  generalize text.take last.start = before at whole place
  subst whole
  obtain ⟨_, _, apart⟩ := List.pairwise_append.mp reads.ordered
  have boundary : Boundary (0 + before.length) (tokens ++ [last]) := by
    intro token also
    rcases List.mem_append.mp also with earlier | final
    · have stops := apart token earlier last List.mem_cons_self
      omega
    · cases List.mem_singleton.mp final
      omega
  obtain ⟨first, cut⟩ := sweep_cut read boundary
  have alone : (sweep ⟨0, [], before⟩).answer = .ok first := by
    have ended := cut [] (.inr (by simp))
    rw [List.append_nil, sweep_nil] at ended
    rw [ended]
    exact congrArg Except.ok (List.append_nil first)
  have same : first = tokens := by
    have token := sweep_token munch (0 + before.length) []
    rw [List.append_nil, sweep_nil] at token
    rw [cut _ (.inl rfl), token] at read
    exact (List.append_inj' (Except.ok.inj read) rfl).1
  subst same
  refine ⟨before, rfl, place.symm, munch, alone, ?_⟩
  intro token earlier stops next head
  apply reads.longest token (List.mem_append_left _ earlier) next
  rw [stops, Nat.zero_add, List.getElem?_append_right (Nat.le_refl _), Nat.sub_self, ← List.head?_eq_getElem?]
  exact head

end Cursor

private theorem lex_fault {source : String} {error : LexError} (failed : lex source = .error error) :
    ∃ read c cs fault tokens, source.toList = read ++ c :: cs ∧ (Lexeme.scan c cs).sort = .error fault ∧
      error = (Cursor.mk read.length [] (c :: cs)).error fault (Lexeme.scan c cs).text ∧
      ∀ other, other = [] ∨ other.head? = some c →
        Cursor.sweep ⟨0, [], read ++ other⟩ = (Cursor.sweep ⟨read.length, [], other⟩).behind tokens := by
  obtain ⟨read, left, whole, ends, reads⟩ := Cursor.sweep_course 0 source.toList
  obtain ⟨tokens, swept⟩ := reads []
  simp only [ite_self, Nat.zero_add] at swept
  have here : lex source = ((Cursor.sweep ⟨read.length, [], left⟩).behind tokens).answer := by
    rw [lex, Cursor.ofString, whole, swept left (.inr rfl)]
  rw [here] at failed
  rcases ends with rfl | ⟨c, cs, fault, rfl, visible, sorted⟩
  · rw [Cursor.sweep_nil] at failed
    cases failed
  · rw [Cursor.sweep_fault visible sorted] at failed
    exact ⟨read, c, cs, fault, tokens, whole, sorted, (Except.error.inj failed).symm, swept⟩

private theorem lex_fault_offset {source : String} {error : LexError} (failed : lex source = .error error) :
    error.offset ≤ source.length := by
  obtain ⟨read, c, cs, fault, _, whole, _, rfl, _⟩ := lex_fault failed
  have size := congrArg List.length whole
  have piece := congrArg List.length (Lexeme.scan_text_append c cs)
  rw [List.length_append] at size piece
  rw [← String.length_toList, size]
  cases fault with
  | danglingPoint =>
    simp only [Cursor.error]
    omega
  | openString => exact Nat.le_add_right _ _

/-! Open strings. -/

private theorem Kind.not_extends_quote (kind : Kind) (text : List Char) : ¬ kind.Extends text '"' := by
  cases kind with
  | identifier => exact (by decide : ¬ isWordPart '"' = true)
  | integer | decimal | operator => simp [Extends]
  | string => exact id

/-- A quote with no other behind it, where the text before it can be lexed. -/
def OpensString (source : String) (place : Nat) : Prop :=
  source.toList[place]? = some '"' ∧ '"' ∉ source.toList.drop (place + 1) ∧
    ∃ tokens, lex (excerpt source 0 place) = .ok tokens

private theorem opensString_of_lex {source : String} {place : Nat} (failed : lex source = .error ⟨.openString, place⟩) :
    OpensString source place := by
  obtain ⟨read, c, cs, fault, tokens, whole, sorted, same, reads⟩ := lex_fault failed
  cases fault with
  | danglingPoint => cases congrArg LexError.fault same
  | openString =>
    obtain rfl : place = read.length := congrArg LexError.offset same
    obtain ⟨rfl, plain⟩ := Lexeme.scan_open sorted
    refine ⟨by simp [whole], by simpa [whole] using plain, tokens, ?_⟩
    have alone := reads [] (.inl rfl)
    rw [List.append_nil, Cursor.sweep_nil] at alone
    rw [lex_excerpt read _ whole rfl, alone]
    exact congrArg Except.ok (List.append_nil tokens)

private theorem split_at {text : List Char} {place : Nat} {c : Char} (here : text[place]? = some c) :
    text = text.take place ++ c :: text.drop (place + 1) ∧ place = (text.take place).length := by
  obtain ⟨inside, rfl⟩ := List.getElem?_eq_some_iff.mp here
  refine ⟨?_, (List.length_take_of_le (Nat.le_of_lt inside)).symm⟩
  rw [List.getElem_cons_drop, List.take_append_drop]

private theorem OpensString.lex {source : String} {place : Nat} (opens : OpensString source place) :
    lex source = .error ⟨.openString, place⟩ := by
  obtain ⟨here, plain, tokens, lexed⟩ := opens
  obtain ⟨whole, length⟩ := split_at here
  rw [lex_excerpt _ _ whole length] at lexed
  have closed : ∀ token ∈ tokens, token.stop = 0 + (source.toList.take place).length →
      ∀ next ∈ ('"' :: source.toList.drop (place + 1)).head?, ¬ token.kind.Extends token.literal.toList next := by
    intro token _ _ next member
    cases member
    exact token.kind.not_extends_quote _
  have sorted := congrArg Lexeme.sort ((Lexeme.scan_quote _).trans (Lexeme.string_open plain))
  rw [PlcJava.lex, Cursor.ofString, whole, Cursor.sweep_continues lexed _ closed, Cursor.sweep_fault (by decide) sorted,
    Nat.zero_add, ← length]
  rfl

/-! Dangling points. -/

/-- A point with no digit behind it, where the text before it can be lexed and ends with a number that the
point could go on with. -/
def DanglesPoint (source : String) (place : Nat) : Prop :=
  2 ≤ place ∧ source.toList[place - 1]? = some '.' ∧ (∀ next ∈ source.toList[place]?, next.isDigit = false) ∧
    ∃ tokens last, lex (excerpt source 0 (place - 1)) = .ok (tokens ++ [last]) ∧
      (last.kind = .integer ∨ last.kind = .decimal) ∧ last.stop = place - 1 ∧ ¬ Pointed last.literal.toList

private theorem danglesPoint_of_lex {source : String} {place : Nat}
    (failed : lex source = .error ⟨.danglingPoint, place⟩) : DanglesPoint source place := by
  obtain ⟨read, c, cs, fault, tokens, whole, sorted, same, reads⟩ := lex_fault failed
  cases fault with
  | openString => cases congrArg LexError.fault same
  | danglingPoint =>
    obtain ⟨digits, rest, scanned, nonempty, groups, plain, stop⟩ := Lexeme.scan_dangling sorted
    have piece := Lexeme.scan_text_append c cs
    rw [scanned] at piece same
    obtain rfl : place = (read ++ digits).length + 1 := by
      have offset := congrArg LexError.offset same
      simp only [Cursor.error, List.length_append, List.length_singleton] at offset ⊢
      omega
    have whole : source.toList = read ++ digits ++ '.' :: rest := by
      rw [whole, ← piece]
      simp
    have size := List.length_pos_iff.mpr nonempty
    have first : digits.head? = some c := by
      obtain ⟨d, others, rfl⟩ := List.exists_cons_of_ne_nil nonempty
      exact congrArg some (List.cons.inj piece).1
    have munch : Munch (Lexeme.numberKind .integer digits) digits [] :=
      Lexeme.number_munch groups nonempty (by simp [Lexeme.Ended])
    have token := Cursor.sweep_token munch read.length []
    rw [List.append_nil, Cursor.sweep_nil] at token
    have lexed := lex_excerpt (read ++ digits) _ whole rfl
    rw [reads digits (.inr first), token] at lexed
    have behind : source.toList[(read ++ digits).length + 1]? = rest.head? := by
      rw [whole, List.getElem?_append_right (Nat.le_add_right _ 1), Nat.add_sub_cancel_left, List.getElem?_cons_succ,
        List.head?_eq_getElem?]
    refine ⟨?_, ?_, ?_, tokens, _, lexed, Lexeme.numberKind_cases digits, ?_, ?_⟩
    · rw [List.length_append]
      omega
    · rw [whole, Nat.add_sub_cancel, List.getElem?_append_right (Nat.le_refl _), Nat.sub_self, List.getElem?_cons_zero]
    · rwa [behind]
    · simp [Cursor.token, Token.stop]
    · simpa [Cursor.token] using plain

private theorem DanglesPoint.lex {source : String} {place : Nat} (dangles : DanglesPoint source place) :
    lex source = .error ⟨.danglingPoint, place⟩ := by
  obtain ⟨least, here, stop, tokens, last, lexed, number, ends, plain⟩ := dangles
  obtain ⟨whole, length⟩ := split_at here
  rw [lex_excerpt _ _ whole length] at lexed
  rw [Nat.sub_add_cancel (by omega)] at whole
  obtain ⟨before, text, start, munch, lexedBefore, closed⟩ := Cursor.sweep_before_last lexed (ends.trans length)
  have groups := munch.shape.groups number
  have size : last.literal.toList.length = last.literal.length := String.length_toList
  have stops : last.start + last.literal.length = place - 1 := ends
  generalize last.literal.toList = digits at *
  obtain ⟨d, ds, rfl⟩ := List.exists_cons_of_ne_nil munch.ne_nil
  have scanned : Lexeme.scan d (ds ++ '.' :: source.toList.drop place) =
      ⟨.error .danglingPoint, d :: ds ++ ['.'], source.toList.drop place⟩ := by
    rw [Lexeme.scan_digit _ groups.first]
    apply Lexeme.number_dangling groups munch.ne_nil plain
    rwa [List.head?_drop]
  rw [PlcJava.lex, Cursor.ofString, whole, text, List.append_assoc, List.cons_append,
    Cursor.sweep_continues lexedBefore (d :: (ds ++ '.' :: source.toList.drop place)) closed,
    Cursor.sweep_fault munch.visible (congrArg Lexeme.sort scanned), scanned]
  have offset : 0 + before.length + (d :: ds ++ ['.']).length = place := by
    rw [List.length_append, List.length_singleton]
    omega
  exact congrArg (fun offset => Except.error (LexError.mk .danglingPoint offset)) offset

/-- Lexing fails at an open string or at a dangling point, and only there: the text before the place can be
lexed, and the characters at the place show the fault. -/
theorem lex_eq_error_iff (source : String) (place : Nat) :
    (lex source = .error ⟨.openString, place⟩ ↔ OpensString source place) ∧
    (lex source = .error ⟨.danglingPoint, place⟩ ↔ DanglesPoint source place) ∧
    ∀ error, lex source = .error error → error.offset ≤ source.length :=
  ⟨⟨opensString_of_lex, OpensString.lex⟩, ⟨danglesPoint_of_lex, DanglesPoint.lex⟩, fun _ => lex_fault_offset⟩

theorem lex_eq_error_iff_unfinished :
    OpensString "é \"1." 2 ∧ DanglesPoint "x 1.23." 7 ∧ ¬ DanglesPoint "1.2.;" 4 := by
  refine ⟨(lex_eq_error_iff _ _).1.mp (by cbv), (lex_eq_error_iff _ _).2.1.mp (by cbv), ?_⟩
  intro dangles
  have failed := (lex_eq_error_iff _ _).2.1.mpr dangles
  have lexed : lex "1.2.;" = .ok [⟨.decimal, "1.2", 0⟩, ⟨.operator, ".", 3⟩, ⟨.operator, ";", 4⟩] := by cbv
  rw [lexed] at failed
  cases failed

end PlcJava
