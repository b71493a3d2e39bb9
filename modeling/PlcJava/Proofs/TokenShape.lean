import PlcJava.Token.Scan

/-! What a token of each kind looks like and which character would make it longer. A scan takes
a piece that has the shape of its kind and that the next character does not lengthen, and there
is no other such piece at the head of a text. -/

set_option autoImplicit false

namespace PlcJava

/-- Digits and pairs of digits with a point between them. -/
inductive DigitGroups : List Char → Prop where
  | nil : DigitGroups []
  | digit {c : Char} {cs : List Char} (digit : c.isDigit = true) (later : DigitGroups cs) :
      DigitGroups (c :: cs)
  | pair {c d : Char} {cs : List Char} (before : c.isDigit = true) (after : d.isDigit = true)
      (later : DigitGroups cs) : DigitGroups (c :: '.' :: d :: cs)

/-- The last character directly follows a point. -/
def Pointed (text : List Char) : Prop := ∃ before last, text = before ++ ['.', last]

namespace Kind

def Shape : Kind → List Char → Prop
  | .identifier, text =>
    ∃ first others, text = first :: others ∧ isWordStart first = true ∧ ∀ c ∈ others, isWordPart c = true
  | .integer, text => text ≠ [] ∧ ∀ c ∈ text, c.isDigit = true
  | .decimal, text => DigitGroups text ∧ '.' ∈ text
  | .string, text => ∃ contents, text = '"' :: contents ++ ['"'] ∧ '"' ∉ contents
  | .operator, text =>
    text = ['=', '='] ∨ text = ['!', '='] ∨
      ∃ c, text = [c] ∧ isBlank c = false ∧ isWordPart c = false ∧ c ≠ '"'

/-- The next character belongs to the token as well. -/
def Extends : Kind → List Char → Char → Prop
  | .identifier, _, next => isWordPart next = true
  | .integer, text, next | .decimal, text, next => next.isDigit = true ∨ next = '.' ∧ ¬ Pointed text
  | .string, _, _ => False
  | .operator, text, next => (text = ['='] ∨ text = ['!']) ∧ next = '='

end Kind

/-- A token stands at the head of a text, and nothing of what follows belongs to it. -/
structure Munch (kind : Kind) (text rest : List Char) : Prop where
  shape : kind.Shape text
  longest : ∀ next ∈ rest.head?, ¬ kind.Extends text next

theorem isDigit_ne_point {c : Char} (digit : c.isDigit = true) : c ≠ '.' := by
  intro same
  subst same
  cases digit

theorem isWordPart_of_isWordStart {c : Char} (start : isWordStart c = true) : isWordPart c = true := by
  simp only [isWordStart, isWordPart, Char.isAlphanum, Bool.or_eq_true] at start ⊢
  exact start.imp_left .inl

theorem isWordStart_of_isDigit {c : Char} (digit : c.isDigit = true) : isWordStart c = false := by
  rw [Bool.eq_false_iff]
  intro start
  have below : c.val.toNat ≤ 57 := (Char.isDigit_iff_toNat.mp digit).2
  change ((decide (65 ≤ c.val ∧ c.val ≤ 90) || (decide (97 ≤ c.val) && decide (c.val ≤ 122))) || c == '_') = true
    at start
  simp only [Bool.or_eq_true, Bool.and_eq_true, decide_eq_true_eq, beq_iff_eq, UInt32.le_iff_toNat_le] at start
  change ((65 ≤ c.val.toNat ∧ c.val.toNat ≤ 90) ∨ (97 ≤ c.val.toNat ∧ c.val.toNat ≤ 122)) ∨ c = '_' at start
  rcases start with (upper | lower) | rfl
  · omega
  · omega
  · cases digit

theorem isWordPart_of_isDigit {c : Char} (digit : c.isDigit = true) : isWordPart c = true := by
  simp [isWordPart, Char.isAlphanum, digit]

theorem isWordPart_iff {c : Char} : isWordPart c = true ↔ isWordStart c = true ∨ c.isDigit = true := by
  simp only [isWordStart, isWordPart, Char.isAlphanum, Bool.or_eq_true]
  exact or_right_comm

theorem isBlank_apart {c : Char} (blank : isBlank c = true) :
    ¬ isWordPart c = true ∧ c ∉ ['"', '=', '!', '.'] := by
  simp only [isBlank, Bool.or_eq_true, beq_iff_eq] at blank
  rcases blank with ((((rfl | rfl) | rfl) | rfl) | rfl) | rfl
  all_goals decide

theorem DigitGroups.of_digits {text : List Char} (digits : ∀ c ∈ text, c.isDigit = true) : DigitGroups text := by
  induction text with
  | nil => exact .nil
  | cons c cs ih =>
    exact .digit (digits c (by simp)) (ih fun d member => digits d (by simp [member]))

private theorem DigitGroups.digits {text : List Char} (groups : DigitGroups text) (plain : '.' ∉ text) :
    ∀ c ∈ text, c.isDigit = true := by
  induction groups with
  | nil => simp
  | digit digit later ih =>
    intro c member
    rcases List.mem_cons.mp member with rfl | member
    · exact digit
    · exact ih (fun point => plain (by simp [point])) c member
  | pair => simp at plain

theorem DigitGroups.first {c : Char} {cs : List Char} (groups : DigitGroups (c :: cs)) : c.isDigit = true := by
  cases groups with
  | digit digit _ => exact digit
  | pair digit _ _ => exact digit

namespace Pointed

private theorem not_single (c : Char) : ¬ Pointed [c] := by
  intro ⟨before, last, same⟩
  have size := congrArg List.length same
  simp at size

private theorem of_cons {c : Char} {cs : List Char} (pointed : Pointed (c :: cs)) (other : c ≠ '.') :
    Pointed cs := by
  obtain ⟨before, last, same⟩ := pointed
  cases before with
  | nil => exact absurd (List.cons.inj same).1 other
  | cons _ before => exact ⟨before, last, (List.cons.inj same).2⟩

private theorem of_pair {c d : Char} {cs : List Char} (pointed : Pointed (c :: '.' :: d :: cs))
    (before : c.isDigit = true) (after : d.isDigit = true) : cs = [] ∨ Pointed cs := by
  obtain ⟨front, last, same⟩ := pointed.of_cons (isDigit_ne_point before)
  cases front with
  | nil => exact .inl (List.cons.inj (List.cons.inj same).2).2
  | cons _ front =>
    exact .inr (of_cons ⟨front, last, (List.cons.inj same).2⟩ (isDigit_ne_point after))

theorem cons {cs : List Char} (c : Char) (pointed : Pointed cs) : Pointed (c :: cs) := by
  obtain ⟨before, last, rfl⟩ := pointed
  exact ⟨c :: before, last, rfl⟩

end Pointed

namespace Lexeme

private theorem number_stop {kind : Kind} {rest : List Char} (stop : ∀ next ∈ rest.head?, next.isDigit = false) :
    number kind rest = ⟨.ok kind, [], rest⟩ := by
  cases rest with
  | nil => rw [number]
  | cons next rest =>
    have other := stop next rfl
    rw [number.eq_def]
    simp [other]

theorem number_digit {kind : Kind} {c : Char} {cs : List Char} (digit : c.isDigit = true)
    (plain : ∀ tail, cs ≠ '.' :: tail) : number kind (c :: cs) = (number kind cs).extend [c] := by
  rw [number.eq_def]
  simp only [digit, if_true]
  split
  · exact absurd rfl (plain _)
  · exact absurd rfl (plain _)
  · rfl

theorem number_pair {kind : Kind} {c d : Char} {cs : List Char} (before : c.isDigit = true)
    (after : d.isDigit = true) :
    number kind (c :: '.' :: d :: cs) = (number .decimal cs).extend [c, '.', d] := by
  rw [number.eq_def]
  simp [before, after]

/-- A point may follow the digits only where it cannot be read as one of their points. -/
def Ended (text rest : List Char) : Prop :=
  ∀ next ∈ rest.head?, next.isDigit = false ∧ (next = '.' → text = [] ∨ Pointed text)

/-- The kind of a number that began as the given kind. -/
def numberKind (kind : Kind) (text : List Char) : Kind := if '.' ∈ text then .decimal else kind

theorem number_complete {text : List Char} (groups : DigitGroups text) (kind : Kind) {rest : List Char}
    (ended : Ended text rest) : number kind (text ++ rest) = ⟨.ok (numberKind kind text), text, rest⟩ := by
  induction groups generalizing kind with
  | nil => exact number_stop fun next member => (ended next member).1
  | @digit c cs digit later ih =>
    have behind : Ended cs rest := by
      intro next member
      refine ⟨(ended next member).1, ?_⟩
      intro point
      have pointed := ((ended next member).2 point).resolve_left (List.cons_ne_nil _ _)
      exact .inr (pointed.of_cons (isDigit_ne_point digit))
    have plain : ∀ tail, cs ++ rest ≠ '.' :: tail := by
      intro tail same
      cases cs with
      | nil =>
        have pointed := ((ended '.' (by simpa using congrArg List.head? same)).2 rfl).resolve_left (List.cons_ne_nil _ _)
        exact Pointed.not_single c pointed
      | cons d cs =>
        exact isDigit_ne_point later.first (List.cons.inj same).1
    rw [List.cons_append, number_digit digit plain, ih kind behind]
    simp [extend, numberKind, (isDigit_ne_point digit).symm]
  | @pair c d cs before after later ih =>
    have behind : Ended cs rest := by
      intro next member
      refine ⟨(ended next member).1, ?_⟩
      intro point
      have pointed := ((ended next member).2 point).resolve_left (List.cons_ne_nil _ _)
      exact pointed.of_pair before after
    rw [List.cons_append, List.cons_append, List.cons_append, number_pair before after, ih .decimal behind]
    simp [extend, numberKind]

private theorem number_sound {kind sort : Kind} {cs : List Char} (read : (number kind cs).sort = .ok sort) :
    DigitGroups (number kind cs).text ∧ Ended (number kind cs).text (number kind cs).rest ∧
      sort = numberKind kind (number kind cs).text := by
  fun_induction number kind cs generalizing sort with
  | case1 kind =>
    cases read
    exact ⟨.nil, by simp [Ended], rfl⟩
  | case2 kind c before d tail after ih =>
    obtain ⟨groups, ended, sorted⟩ := ih read
    refine ⟨.pair before after groups, ?_, ?_⟩
    · intro next member
      refine ⟨(ended next member).1, ?_⟩
      intro point
      rcases (ended next member).2 point with last | pointed
      · exact .inr ⟨[c], d, by simp [last]⟩
      · exact .inr (((pointed.cons d).cons '.').cons c)
    · simpa [numberKind] using sorted
  | case3 => cases read
  | case4 => cases read
  | case5 kind c digit cs plain single ih =>
    obtain ⟨groups, ended, sorted⟩ := ih read
    refine ⟨.digit digit groups, ?_, ?_⟩
    · intro next member
      refine ⟨(ended next member).1, ?_⟩
      intro point
      rcases (ended next member).2 point with last | pointed
      · have whole := number_text_append kind cs
        rw [last, List.nil_append] at whole
        rw [rest_extend, whole] at member
        subst point
        cases cs with
        | nil => cases member
        | cons d tail =>
          cases member
          cases tail with
          | nil => exact absurd rfl single
          | cons e tail => exact absurd rfl (plain e tail)
      · exact .inr (pointed.cons c)
    · simpa [numberKind, (isDigit_ne_point digit).symm] using sorted
  | case6 kind c cs other =>
    cases read
    refine ⟨.nil, ?_, rfl⟩
    intro next member
    cases member
    exact ⟨by simpa using other, fun _ => .inl rfl⟩

/-- A number fails only at a point: what stands before the point is a number, and no digit stands
behind it. -/
theorem number_fault {kind : Kind} {cs : List Char} {fault : LexFault} (read : (number kind cs).sort = .error fault) :
    fault = .danglingPoint ∧ ∃ digits, (number kind cs).text = digits ++ ['.'] ∧ digits ≠ [] ∧ DigitGroups digits ∧
      ∀ next ∈ (number kind cs).rest.head?, next.isDigit = false := by
  fun_induction number kind cs with
  | case1 | case6 => cases read
  | case2 kind c before d tail after ih =>
    obtain ⟨same, digits, text, _, groups, stop⟩ := ih read
    exact ⟨same, c :: '.' :: d :: digits, by simp [text], by simp, .pair before after groups, stop⟩
  | case3 kind c before d tail other =>
    cases read
    refine ⟨rfl, [c], rfl, by simp, .digit before .nil, ?_⟩
    intro next member
    cases member
    simpa using other
  | case4 kind c before =>
    cases read
    exact ⟨rfl, [c], rfl, by simp, .digit before .nil, by simp⟩
  | case5 kind c digit cs _ _ ih =>
    obtain ⟨same, digits, text, _, groups, stop⟩ := ih read
    exact ⟨same, c :: digits, by simp [text], by simp, .digit digit groups, stop⟩

private theorem string_sound {sort : Kind} {cs : List Char} (read : (string cs).sort = .ok sort) :
    sort = .string ∧ Munch .string (string cs).text (string cs).rest := by
  unfold string at read ⊢
  split at read
  · cases read
  next quote rest found =>
    cases read
    have stopped := List.head?_dropWhile_not (· ≠ '"') cs
    rw [found] at stopped
    have closes : quote = '"' := by simpa using stopped
    subst closes
    have plain : '"' ∉ cs.takeWhile (· ≠ '"') := by
      intro member
      have inside := List.all_eq_true.mp List.all_takeWhile _ member
      simp at inside
    exact ⟨rfl, ⟨_, rfl, plain⟩, fun _ _ longer => longer⟩

private theorem string_complete {contents : List Char} (plain : '"' ∉ contents) (rest : List Char) :
    string (contents ++ '"' :: rest) = ⟨.ok .string, '"' :: contents ++ ['"'], rest⟩ := by
  have inside : ∀ c ∈ contents, decide (c ≠ '"') = true := by
    intro c member
    have different : c ≠ '"' := fun same => plain (same ▸ member)
    simpa using different
  unfold string
  rw [List.dropWhile_append_of_pos inside, List.takeWhile_append_of_pos inside]
  simp

private theorem string_fault {cs : List Char} {fault : LexFault} (read : (string cs).sort = .error fault) :
    fault = .openString ∧ (string cs).rest = [] := by
  unfold string at read ⊢
  split at read
  · cases read
    exact ⟨rfl, rfl⟩
  · cases read

private theorem identifier_sound {c : Char} (start : isWordStart c = true) (cs : List Char) :
    Munch .identifier (identifier (c :: cs)).text (identifier (c :: cs)).rest := by
  have part := isWordPart_of_isWordStart start
  constructor
  · refine ⟨c, cs.takeWhile isWordPart, by simp [identifier, part], start, ?_⟩
    intro d member
    exact List.all_eq_true.mp List.all_takeWhile d member
  · intro next member longer
    have stopped := List.head?_dropWhile_not isWordPart (c :: cs)
    change next ∈ ((c :: cs).dropWhile isWordPart).head? at member
    rw [Option.mem_def.mp member] at stopped
    rw [Kind.Extends, stopped] at longer
    cases longer

private theorem identifier_complete {text rest : List Char} (munch : Munch .identifier text rest) :
    identifier (text ++ rest) = ⟨.ok .identifier, text, rest⟩ := by
  obtain ⟨first, others, rfl, start, parts⟩ := munch.shape
  have inside : ∀ c ∈ first :: others, isWordPart c = true := by
    intro c member
    rcases List.mem_cons.mp member with rfl | member
    · exact isWordPart_of_isWordStart start
    · exact parts c member
  unfold identifier
  rw [List.dropWhile_append_of_pos inside, List.takeWhile_append_of_pos inside]
  cases rest with
  | nil => simp
  | cons next rest =>
    have stop : isWordPart next = false := by simpa [Kind.Extends] using munch.longest next rfl
    simp [stop]

private theorem operator_sound {c : Char} (cs : List Char) (visible : isBlank c = false)
    (noPart : isWordPart c = false) (noQuote : c ≠ '"') :
    (operator c cs).sort = .ok .operator ∧ Munch .operator (operator c cs).text (operator c cs).rest := by
  have single : Kind.Shape .operator [c] := .inr (.inr ⟨c, rfl, visible, noPart, noQuote⟩)
  unfold operator
  split
  next rest =>
    split
    next double =>
      refine ⟨rfl, ?_, ?_⟩
      · rcases double with rfl | rfl
        · exact .inl rfl
        · exact .inr (.inl rfl)
      · simp [Kind.Extends]
    next other =>
      refine ⟨rfl, single, ?_⟩
      intro next member longer
      apply other
      simpa [Kind.Extends] using longer.1
  next rest plain =>
    refine ⟨rfl, single, ?_⟩
    intro next member longer
    obtain ⟨_, rfl⟩ := longer
    cases cs with
    | nil => cases member
    | cons d cs =>
      cases member
      exact plain cs rfl

private theorem operator_complete {c : Char} {cs rest : List Char} (munch : Munch .operator (c :: cs) rest) :
    operator c (cs ++ rest) = ⟨.ok .operator, c :: cs, rest⟩ := by
  rcases munch.shape with same | same | ⟨d, same, _⟩
  · cases same
    rfl
  · cases same
    rfl
  · cases same
    unfold operator
    split
    next rest found =>
      cases found
      split
      next double =>
        refine absurd ?_ (munch.longest '=' rfl)
        exact ⟨by simpa using double, rfl⟩
      next => rfl
    next => rfl

theorem number_munch {text rest : List Char} (groups : DigitGroups text) (nonempty : text ≠ [])
    (ended : Ended text rest) : Munch (numberKind .integer text) text rest := by
  have longest : ∀ next ∈ rest.head?, ¬ (next.isDigit = true ∨ next = '.' ∧ ¬ Pointed text) := by
    intro next member longer
    rcases longer with digit | ⟨point, apart⟩
    · rw [(ended next member).1] at digit
      cases digit
    · exact apart (((ended next member).2 point).resolve_left nonempty)
  unfold numberKind
  split
  next point => exact ⟨⟨groups, point⟩, longest⟩
  next plain => exact ⟨⟨nonempty, groups.digits plain⟩, longest⟩

private theorem ended_of_longest {kind : Kind} {text rest : List Char} (number : kind = .integer ∨ kind = .decimal)
    (longest : ∀ next ∈ rest.head?, ¬ kind.Extends text next) : Ended text rest := by
  intro next member
  have apart := longest next member
  rcases number with rfl | rfl
  all_goals
    simp only [Kind.Extends, not_or, not_and, Classical.not_not] at apart
    exact ⟨by simpa using apart.1, fun point => .inr (apart.2 point)⟩

private theorem number_of_munch {kind : Kind} {text rest : List Char} (number : kind = .integer ∨ kind = .decimal)
    (munch : Munch kind text rest) : Lexeme.number .integer (text ++ rest) = ⟨.ok kind, text, rest⟩ := by
  have ended := ended_of_longest number munch.longest
  rcases number with rfl | rfl
  · obtain ⟨_, digits⟩ := munch.shape
    have plain : '.' ∉ text := fun point => isDigit_ne_point (digits '.' point) rfl
    rw [number_complete (.of_digits digits) .integer ended, numberKind, if_neg plain]
  · obtain ⟨groups, point⟩ := munch.shape
    rw [number_complete groups .integer ended, numberKind, if_pos point]

section dispatch

variable {c : Char} (cs : List Char)

private theorem scan_word (start : isWordStart c = true) : scan c cs = identifier (c :: cs) := by
  rw [scan, if_pos start]

theorem scan_digit (digit : c.isDigit = true) : scan c cs = number .integer (c :: cs) := by
  rw [scan, isWordStart_of_isDigit digit, if_neg (by simp), if_pos digit]

theorem scan_quote : scan '"' cs = string cs := by
  rw [scan, if_neg (by decide), if_neg (by decide), if_pos rfl]

private theorem scan_operator (noPart : isWordPart c = false) (noQuote : c ≠ '"') : scan c cs = operator c cs := by
  have noStart : ¬ isWordStart c = true := fun start => by
    rw [isWordPart_of_isWordStart start] at noPart
    cases noPart
  have noDigit : ¬ c.isDigit = true := fun digit => by
    rw [isWordPart_of_isDigit digit] at noPart
    cases noPart
  rw [scan, if_neg noStart, if_neg noDigit, if_neg noQuote]

end dispatch

theorem scan_sound {c : Char} {cs : List Char} {kind : Kind} (visible : isBlank c = false)
    (read : (scan c cs).sort = .ok kind) : Munch kind (scan c cs).text (scan c cs).rest := by
  by_cases start : isWordStart c = true
  · rw [scan_word cs start] at read ⊢
    cases read
    exact identifier_sound start cs
  · by_cases digit : c.isDigit = true
    · have nonempty := scan_text_ne_nil c cs
      rw [scan_digit cs digit] at read nonempty ⊢
      obtain ⟨groups, ended, rfl⟩ := number_sound read
      exact number_munch groups nonempty ended
    · by_cases quote : c = '"'
      · subst quote
        rw [scan_quote] at read ⊢
        obtain ⟨rfl, munch⟩ := string_sound read
        exact munch
      · have noPart : isWordPart c = false := by
          rw [Bool.eq_false_iff]
          exact fun part => (isWordPart_iff.mp part).elim start digit
        rw [scan_operator cs noPart quote] at read ⊢
        obtain ⟨sorted, munch⟩ := operator_sound cs visible noPart quote
        rw [sorted] at read
        cases read
        exact munch

/-- A piece that is no token is a string to the end of the text, or a number whose point no digit
follows. -/
theorem scan_fault {c : Char} {cs : List Char} {fault : LexFault} (read : (scan c cs).sort = .error fault) :
    fault = .openString ∧ (scan c cs).rest = [] ∨
    fault = .danglingPoint ∧ ∃ digits, (scan c cs).text = digits ++ ['.'] ∧ digits ≠ [] ∧ DigitGroups digits ∧
      ∀ next ∈ (scan c cs).rest.head?, next.isDigit = false := by
  by_cases start : isWordStart c = true
  · rw [scan_word cs start] at read
    cases read
  · by_cases digit : c.isDigit = true
    · rw [scan_digit cs digit] at read ⊢
      exact .inr (number_fault read)
    · by_cases quote : c = '"'
      · subst quote
        rw [scan_quote] at read ⊢
        exact .inl (string_fault read)
      · rw [scan, if_neg start, if_neg digit, if_neg quote] at read
        unfold operator at read
        split at read
        · split at read <;> cases read
        · cases read

end Lexeme

namespace Munch

variable {kind : Kind} {c : Char} {cs rest : List Char}

theorem scan (munch : Munch kind (c :: cs) rest) : Lexeme.scan c (cs ++ rest) = ⟨.ok kind, c :: cs, rest⟩ := by
  cases kind with
  | identifier =>
    obtain ⟨first, others, same, start, _⟩ := munch.shape
    obtain ⟨rfl, _⟩ := List.cons.inj same
    rw [Lexeme.scan_word _ start]
    exact Lexeme.identifier_complete munch
  | integer =>
    have digit : c.isDigit = true := munch.shape.2 c (by simp)
    rw [Lexeme.scan_digit _ digit]
    exact Lexeme.number_of_munch (.inl rfl) munch
  | decimal =>
    rw [Lexeme.scan_digit _ munch.shape.1.first]
    exact Lexeme.number_of_munch (.inr rfl) munch
  | string =>
    obtain ⟨contents, same, plain⟩ := munch.shape
    rw [List.cons_append, List.cons.injEq] at same
    obtain ⟨rfl, rfl⟩ := same
    rw [Lexeme.scan_quote, List.append_assoc]
    exact Lexeme.string_complete plain rest
  | operator =>
    have apart : isWordPart c = false ∧ c ≠ '"' := by
      rcases munch.shape with same | same | ⟨d, same, _, noPart, noQuote⟩
      · cases same
        decide
      · cases same
        decide
      · cases same
        exact ⟨noPart, noQuote⟩
    rw [Lexeme.scan_operator _ apart.1 apart.2]
    exact Lexeme.operator_complete munch

theorem visible (munch : Munch kind (c :: cs) rest) : isBlank c = false := by
  rw [Bool.eq_false_iff]
  intro blank
  obtain ⟨noPart, noSign⟩ := isBlank_apart blank
  cases kind with
  | identifier =>
    obtain ⟨first, others, same, start, _⟩ := munch.shape
    obtain ⟨rfl, _⟩ := List.cons.inj same
    exact noPart (isWordPart_of_isWordStart start)
  | integer => exact noPart (isWordPart_of_isDigit (munch.shape.2 c (by simp)))
  | decimal => exact noPart (isWordPart_of_isDigit munch.shape.1.first)
  | string =>
    obtain ⟨contents, same, _⟩ := munch.shape
    exact noSign (by simp [(List.cons.inj same).1])
  | operator =>
    rcases munch.shape with same | same | ⟨d, same, visible, _⟩
    · exact noSign (by simp [(List.cons.inj same).1])
    · exact noSign (by simp [(List.cons.inj same).1])
    · cases same
      rw [visible] at blank
      cases blank

theorem ne_nil {text : List Char} (munch : Munch kind text rest) : text ≠ [] := by
  intro same
  subst same
  cases kind with
  | identifier =>
    obtain ⟨_, _, same, _⟩ := munch.shape
    cases same
  | integer => exact munch.shape.1 rfl
  | decimal => cases munch.shape.2
  | string =>
    obtain ⟨_, same, _⟩ := munch.shape
    cases same
  | operator =>
    rcases munch.shape with same | same | ⟨_, same, _⟩
    all_goals cases same

/-- Only the next character decides whether a token ends. -/
theorem of_head? {text other : List Char} (munch : Munch kind text rest) (same : other.head? = rest.head?) :
    Munch kind text other :=
  ⟨munch.shape, same ▸ munch.longest⟩

end Munch

end PlcJava
