import Mathlib
import PlcJava.Proofs.NumeralText

/-! What the texts of numbers stand for, by the places of their digits. A text is read exactly if it has
the form of a number, and as the number it stands for; so texts are read alike exactly if they stand for
the same. Among the texts of one number, the written one is the only one without needless zeros and signs. -/

set_option autoImplicit false

namespace PlcJava

def IsRow (cs : List Char) : Prop := cs ≠ [] ∧ ∀ c ∈ cs, c.isDigit = true

private theorem isRow_iff {cs : List Char} : IsRow cs ↔ cs ≠ [] ∧ cs.all Char.isDigit = true := by
  rw [IsRow, List.all_eq_true]

/-- A row that does not begin with a zero, unless it is zero itself. -/
def IsPlainRow (cs : List Char) : Prop := IsRow cs ∧ (cs = ['0'] ∨ cs.head? ≠ some '0')

def IsSign (cs : List Char) : Prop := cs = [] ∨ cs = ['-']

/-- The number that digits stand for: each of them counts by how many stand behind it. -/
def placeValue : List Char → Nat
  | [] => 0
  | c :: cs => (c.toNat - '0'.toNat) * 10 ^ cs.length + placeValue cs

private theorem placeValue_eq (cs : List Char) : placeValue cs = Nat.ofDigitChars 10 cs 0 := by
  induction cs with
  | nil => rfl
  | cons c cs ih =>
    have later : Nat.ofDigitChars 10 cs (c.toNat - '0'.toNat) = _ := Nat.ofDigitChars_eq_ofDigitChars_zero
    rw [placeValue, ih, Nat.ofDigitChars_cons, Nat.mul_zero, Nat.zero_add, later, Nat.mul_comm]

private theorem placeValue_append (first second : List Char) :
    placeValue (first ++ second) = placeValue first * 10 ^ second.length + placeValue second := by
  induction first with
  | nil => simp [placeValue]
  | cons c cs ih =>
    rw [List.cons_append, placeValue, placeValue, ih, List.length_append, pow_add]
    ring

private theorem digit_bounds {c : Char} (digit : c.isDigit = true) : 48 ≤ c.toNat ∧ c.toNat ≤ 57 :=
  Char.isDigit_iff_toNat.mp digit

private theorem digit_lt {c : Char} (digit : c.isDigit = true) : c.toNat - '0'.toNat < 10 := by
  have bounds := digit_bounds digit
  change c.toNat - 48 < 10
  omega

private theorem placeValue_lt {cs : List Char} (digits : ∀ c ∈ cs, c.isDigit = true) :
    placeValue cs < 10 ^ cs.length := by
  induction cs with
  | nil => simp [placeValue]
  | cons c cs ih =>
    have first := digit_lt (digits c List.mem_cons_self)
    have later := ih fun d member => digits d (.tail c member)
    rw [placeValue, List.length_cons, pow_succ]
    nlinarith

private theorem digitChar_digit {c : Char} (digit : c.isDigit = true) : Nat.digitChar (c.toNat - '0'.toNat) = c := by
  have bounds := digit_bounds digit
  apply Char.toNat_inj.mp
  rw [Nat.toNat_digitChar_of_lt_ten (digit_lt digit)]
  change 48 + (c.toNat - 48) = c.toNat
  omega

private theorem toDigits_ofDigitChars {cs : List Char} (digits : ∀ c ∈ cs, c.isDigit = true) {number : Nat}
    (positive : 0 < number) : Nat.toDigits 10 (Nat.ofDigitChars 10 cs number) = Nat.toDigits 10 number ++ cs := by
  induction cs generalizing number with
  | nil => simp
  | cons c cs ih =>
    have digit := digits c List.mem_cons_self
    have others : ∀ d ∈ cs, d.isDigit = true := fun d member => digits d (.tail c member)
    have last : Nat.toDigits 10 (c.toNat - '0'.toNat) = [c] := by
      rw [Nat.toDigits_of_lt_base (digit_lt digit), digitChar_digit digit]
    have longer := Nat.toDigits_append_toDigits (b := 10) (by omega) positive (digit_lt digit)
    calc Nat.toDigits 10 (Nat.ofDigitChars 10 (c :: cs) number)
      _ = Nat.toDigits 10 (Nat.ofDigitChars 10 cs (10 * number + (c.toNat - '0'.toNat))) := by
        rw [Nat.ofDigitChars_cons]
      _ = Nat.toDigits 10 (10 * number + (c.toNat - '0'.toNat)) ++ cs := ih others (by omega)
      _ = Nat.toDigits 10 number ++ [c] ++ cs := by rw [← longer, last]
      _ = Nat.toDigits 10 number ++ c :: cs := List.append_assoc _ _ _

namespace IsPlainRow

private theorem toDigits_placeValue {row : List Char} (plain : IsPlainRow row) :
    Nat.toDigits 10 (placeValue row) = row := by
  obtain ⟨⟨nonempty, digits⟩, rfl | leading⟩ := plain
  · rfl
  · obtain ⟨c, cs, rfl⟩ := List.exists_cons_of_ne_nil nonempty
    have digit := digits c List.mem_cons_self
    have others : ∀ d ∈ cs, d.isDigit = true := fun d member => digits d (.tail c member)
    have positive : 0 < c.toNat - '0'.toNat := by
      apply Nat.pos_of_ne_zero
      intro zero
      apply leading
      rw [← digitChar_digit digit, zero]
      rfl
    calc Nat.toDigits 10 (placeValue (c :: cs))
      _ = Nat.toDigits 10 (Nat.ofDigitChars 10 cs (c.toNat - '0'.toNat)) := by
        rw [placeValue_eq, Nat.ofDigitChars_cons, Nat.mul_zero, Nat.zero_add]
      _ = Nat.toDigits 10 (c.toNat - '0'.toNat) ++ cs := toDigits_ofDigitChars others positive
      _ = [c] ++ cs := by rw [Nat.toDigits_of_lt_base (digit_lt digit), digitChar_digit digit]

private theorem eq_of_placeValue {first second : List Char} (plainFirst : IsPlainRow first)
    (plainSecond : IsPlainRow second) (same : placeValue first = placeValue second) : first = second := by
  rw [← plainFirst.toDigits_placeValue, same, plainSecond.toDigits_placeValue]

end IsPlainRow

private theorem head?_toDigits {number : Nat} (nonzero : number ≠ 0) : (Nat.toDigits 10 number).head? ≠ some '0' := by
  induction number using Nat.strongRecOn with
  | ind number ih =>
    rw [Nat.toDigits_eq_if (by omega)]
    split
    next small => simpa [Nat.digitChar_eq_zero] using nonzero
    next large =>
      rw [List.head?_append_of_ne_nil _ Nat.toDigits_ne_nil]
      exact ih (number / 10) (by omega) (by omega)

private theorem isPlainRow_toDigits (number : Nat) : IsPlainRow (Nat.toDigits 10 number) := by
  refine ⟨⟨Nat.toDigits_ne_nil, isDigit_toDigits number⟩, ?_⟩
  by_cases zero : number = 0
  · exact .inl (by rw [zero, Nat.toDigits_zero])
  · exact .inr (head?_toDigits zero)

private theorem eq_of_placeValue_of_length {first second : List Char} (rowFirst : ∀ c ∈ first, c.isDigit = true)
    (rowSecond : ∀ c ∈ second, c.isDigit = true) (size : first.length = second.length)
    (same : placeValue first = placeValue second) : first = second := by
  have plain {row : List Char} (digits : ∀ c ∈ row, c.isDigit = true) : IsPlainRow ('1' :: row) := by
    refine ⟨⟨List.cons_ne_nil _ _, ?_⟩, .inr (by simp)⟩
    intro c member
    rcases List.mem_cons.mp member with rfl | member
    · rfl
    · exact digits c member
  have longer : placeValue ('1' :: first) = placeValue ('1' :: second) := by rw [placeValue, placeValue, size, same]
  exact List.tail_eq_of_cons_eq ((plain rowFirst).eq_of_placeValue (plain rowSecond) longer)

/-- Digits in front of so many others are told apart from them by their value. -/
theorem placeValue_append_inj {first second first' second' : List Char} (row : ∀ c ∈ second, c.isDigit = true)
    (row' : ∀ c ∈ second', c.isDigit = true) (size : second.length = second'.length)
    (same : placeValue (first ++ second) = placeValue (first' ++ second')) :
    placeValue first = placeValue first' ∧ placeValue second = placeValue second' := by
  have below := placeValue_lt row
  have below' := placeValue_lt row'
  rw [← size] at below'
  rw [placeValue_append, placeValue_append, ← size] at same
  have positive : 0 < 10 ^ second.length := by positivity
  have cut {front last : Nat} (small : last < 10 ^ second.length) :
      (front * 10 ^ second.length + last) / 10 ^ second.length = front ∧
        (front * 10 ^ second.length + last) % 10 ^ second.length = last :=
    (Nat.div_mod_unique positive).mpr ⟨by ring, small⟩
  obtain ⟨quotient, remainder⟩ := cut below
  rw [same] at quotient remainder
  exact ⟨quotient.symm.trans (cut below').1, remainder.symm.trans (cut below').2⟩

private theorem digits?_eq_some {cs : List Char} {number : Nat} :
    digits? cs = some number ↔ IsRow cs ∧ placeValue cs = number := by
  rw [digits?, placeValue_eq, isRow_iff]
  split
  next row => exact ⟨fun same => ⟨row, Option.some.inj same⟩, fun same => congrArg some same.2⟩
  next other =>
    constructor
    · intro none
      cases none
    · intro read
      exact absurd read.1 other

def signText (negative : Bool) : List Char := if negative then ['-'] else []

private theorem isSign_iff {cs : List Char} : IsSign cs ↔ ∃ negative, cs = signText negative := by
  simp [IsSign, signText]

private theorem splitSign_eq {cs rest : List Char} {negative : Bool} (split : splitSign cs = (negative, rest)) :
    cs = signText negative ++ rest := by
  unfold splitSign at split
  split at split
  · cases split
    rfl
  · cases split
    rfl

private theorem splitSign_signText (negative : Bool) {row : List Char} (isRow : IsRow row) (tail : List Char) :
    splitSign (signText negative ++ (row ++ tail)) = (negative, row ++ tail) := by
  cases negative with
  | true => rfl
  | false =>
    obtain ⟨nonempty, digits⟩ := isRow
    obtain ⟨c, cs, rfl⟩ := List.exists_cons_of_ne_nil nonempty
    exact splitSign_of_digit (digits c List.mem_cons_self)

/-! Whole numbers. -/

namespace Integer

/-- The whole number that a text stands for. -/
inductive Denotes : List Char → Int → Prop where
  | positive {row : List Char} (isRow : IsRow row) : Denotes row (placeValue row)
  | negative {row : List Char} (isRow : IsRow row) : Denotes ('-' :: row) (-placeValue row)

/-- No zeros in front, and no sign in front of zero. -/
inductive Canonical : List Char → Prop where
  | positive {row : List Char} (plain : IsPlainRow row) : Canonical row
  | negative {row : List Char} (plain : IsPlainRow row) (nonzero : placeValue row ≠ 0) : Canonical ('-' :: row)

private theorem denotes_iff {cs : List Char} {value : Int} : Denotes cs value ↔
    ∃ negative row, IsRow row ∧ cs = signText negative ++ row ∧ value = withSign negative (placeValue row) := by
  constructor
  · intro denotes
    cases denotes with
    | positive isRow => exact ⟨false, _, isRow, rfl, rfl⟩
    | negative isRow => exact ⟨true, _, isRow, rfl, rfl⟩
  · rintro ⟨negative, row, isRow, rfl, rfl⟩
    cases negative with
    | false => exact .positive isRow
    | true => exact .negative isRow

private theorem read?_eq_some {text : String} {value : Int} : read? text = some value ↔ Denotes text.toList value := by
  rw [denotes_iff]
  constructor
  · intro read
    unfold read? at read
    cases split : splitSign text.toList with
    | mk negative row =>
      simp only [split] at read
      obtain ⟨magnitude, number, rfl⟩ := Option.map_eq_some_iff.mp read
      obtain ⟨isRow, rfl⟩ := digits?_eq_some.mp number
      exact ⟨negative, row, isRow, splitSign_eq split, rfl⟩
  · rintro ⟨negative, row, isRow, spelt, rfl⟩
    have split := splitSign_signText negative isRow []
    rw [List.append_nil] at split
    simp only [read?, spelt, split, digits?_eq_some.mpr ⟨isRow, rfl⟩, Option.map_some]

theorem read?_isSome (text : String) :
    (read? text).isSome ↔ ∃ sign row, text.toList = sign ++ row ∧ IsSign sign ∧ IsRow row := by
  simp only [Option.isSome_iff_exists, read?_eq_some, denotes_iff, isSign_iff]
  constructor
  · rintro ⟨_, negative, row, isRow, spelt, rfl⟩
    exact ⟨_, row, spelt, ⟨negative, rfl⟩, isRow⟩
  · rintro ⟨_, row, spelt, ⟨negative, rfl⟩, isRow⟩
    exact ⟨_, negative, row, isRow, spelt, rfl⟩

private theorem canonical_write (value : Int) : Canonical (write value).toList := by
  have plain := isPlainRow_toDigits value.natAbs
  have size : placeValue (Nat.toDigits 10 value.natAbs) = value.natAbs := by
    rw [placeValue_eq, Nat.ofDigitChars_ten_toDigits]
  rw [toList_write]
  split
  next negative =>
    rw [List.singleton_append]
    exact .negative plain (by omega)
  next => exact .positive plain

private theorem write_of_canonical {text : String} {value : Int} (read : read? text = some value)
    (canonical : Canonical text.toList) : write value = text := by
  apply String.toList_inj.mp
  rw [toList_write]
  generalize spelt : text.toList = cs at canonical
  cases canonical with
  | positive plain =>
    have same : read? text = some (placeValue cs : Int) := read?_eq_some.mpr (by rw [spelt]; exact .positive plain.1)
    cases read.symm.trans same
    rw [if_neg (by omega), Int.natAbs_natCast, plain.toDigits_placeValue, List.nil_append]
  | @negative row plain nonzero =>
    have same : read? text = some (-placeValue row : Int) := read?_eq_some.mpr (by rw [spelt]; exact .negative plain.1)
    cases read.symm.trans same
    rw [if_pos (by omega), Int.natAbs_neg, Int.natAbs_natCast, plain.toDigits_placeValue, List.singleton_append]

private theorem write_injective : Function.Injective write := by
  intro first second same
  have read := read?_write first
  rw [same, read?_write] at read
  exact (Option.some.inj read).symm

/-- Integers and their texts. What can be read is a row of digits with or without a minus sign, and it is
read as what it stands for. Each integer has one canonical text, which is read back, and a machine word
is the same integer as any text of its value. -/
theorem represents_integers :
    (∀ text, (read? text).isSome ↔ ∃ sign row, text.toList = sign ++ row ∧ IsSign sign ∧ IsRow row) ∧
    (∀ text value, read? text = some value →
      Denotes text.toList value ∧ Denotes (write value).toList value ∧ (Canonical text.toList ↔ write value = text)) ∧
    (∀ first second m n, Denotes first.toList m → Denotes second.toList n →
      (read? first = read? second ↔ m = n) ∧ ((read? first).map write = (read? second).map write ↔ m = n)) ∧
    (∀ value, read? (write value) = some value) ∧
    ∀ text value, Denotes text.toList value →
      (∀ word : Int32, word.toInt = value → read? text = some (ofInt32 word)) ∧
      (∀ word : Int64, word.toInt = value → read? text = some (ofInt64 word)) ∧
      ∀ word : UInt64, (word.toNat : Int) = value → read? text = some (ofUInt64 word) := by
  refine ⟨read?_isSome, ?_, ?_, read?_write, ?_⟩
  · intro text value read
    refine ⟨read?_eq_some.mp read, read?_eq_some.mp (read?_write value), write_of_canonical read, ?_⟩
    rintro rfl
    exact canonical_write value
  · intro first second m n denotes denotes'
    rw [(Option.map_injective write_injective).eq_iff, read?_eq_some.mpr denotes, read?_eq_some.mpr denotes',
      Option.some.injEq]
    exact ⟨Iff.rfl, Iff.rfl⟩
  · intro text value denotes
    have read := read?_eq_some.mpr denotes
    refine ⟨?_, ?_, ?_⟩
    all_goals
      rintro word rfl
      exact read

theorem represents_integers_zeros :
    read? "-0" = read? "000" ∧ (read? "-007").map write = (read? "-7").map write ∧ read? "-7" ≠ read? "07" ∧
      write (-7) = "-7" ∧ read? "-2147483648" = some (ofInt32 (-2147483648)) := by
  obtain ⟨_, texts, equal, _, words⟩ := represents_integers
  have zero : Denotes "-0".toList 0 := read?_eq_some.mp (by decide)
  have zeros : Denotes "000".toList 0 := read?_eq_some.mp (by decide)
  have long : Denotes "-007".toList (-7) := read?_eq_some.mp (by decide)
  have short : Denotes "-7".toList (-7) := read?_eq_some.mp (by decide)
  have positive : Denotes "07".toList 7 := read?_eq_some.mp (by decide)
  have least : Denotes "-2147483648".toList (-2147483648) := read?_eq_some.mp (by cbv)
  have canonical : Canonical "-7".toList := .negative ⟨isRow_iff.mpr (by decide), .inr (by decide)⟩ (by decide)
  refine ⟨(equal _ _ _ _ zero zeros).1.mpr rfl, (equal _ _ _ _ long short).2.mpr rfl, ?_, ?_, ?_⟩
  · intro same
    have value := (equal _ _ _ _ short positive).1.mp same
    cases value
  · exact (texts _ _ (read?_eq_some.mpr short)).2.2.mp canonical
  · exact (words _ _ least).1 (-2147483648) (by decide)

end Integer

/-! Decimal fractions. -/

namespace Decimal

def value (decimal : Decimal) : ℚ := decimal.unscaled / 10 ^ decimal.scale

/-- The rational number that a text stands for, and how many digits follow its point. -/
inductive Denotes : List Char → ℚ → Nat → Prop where
  | positive {integral fraction : List Char} (before : IsRow integral) (after : IsRow fraction) :
      Denotes (integral ++ '.' :: fraction) (placeValue integral + placeValue fraction / 10 ^ fraction.length)
        fraction.length
  | negative {integral fraction : List Char} (before : IsRow integral) (after : IsRow fraction) :
      Denotes ('-' :: (integral ++ '.' :: fraction))
        (-(placeValue integral + placeValue fraction / 10 ^ fraction.length)) fraction.length

/-- No zeros in front of the integral part, and no sign in front of zero. The fraction may be any row. -/
inductive Canonical : List Char → Prop where
  | positive {integral fraction : List Char} (plain : IsPlainRow integral) (after : IsRow fraction) :
      Canonical (integral ++ '.' :: fraction)
  | negative {integral fraction : List Char} (plain : IsPlainRow integral) (after : IsRow fraction)
      (nonzero : placeValue (integral ++ fraction) ≠ 0) : Canonical ('-' :: (integral ++ '.' :: fraction))

/-- The scale is part of the value, so both together are the decimal. -/
theorem eq_of_value {first second : Decimal} (value : first.value = second.value)
    (scale : first.scale = second.scale) : first = second := by
  obtain ⟨unscaled, scale, _⟩ := first
  obtain ⟨unscaled', scale', _⟩ := second
  dsimp only [Decimal.value] at *
  subst scale
  have same : unscaled = unscaled' := by
    rw [div_left_inj' (by positivity)] at value
    exact_mod_cast value
  subst same
  rfl

def ofParts (negative : Bool) (integral fraction : List Char) (after : IsRow fraction) : Decimal :=
  ⟨withSign negative (placeValue (integral ++ fraction)), fraction.length, List.length_pos_iff.mpr after.1⟩

private theorem placeValue_parts (integral fraction : List Char) :
    (placeValue (integral ++ fraction) : ℚ) / 10 ^ fraction.length =
      placeValue integral + placeValue fraction / 10 ^ fraction.length := by
  rw [placeValue_append]
  push_cast
  field_simp

private theorem value_ofParts_negative (integral : List Char) {fraction : List Char} (after : IsRow fraction) :
    (ofParts true integral fraction after).value =
      -(placeValue integral + placeValue fraction / 10 ^ fraction.length) := by
  rw [← placeValue_parts, ← neg_div, value, ofParts, withSign, if_pos rfl, Int.cast_neg, Int.cast_natCast]

private theorem denotes_iff {cs : List Char} {rational : ℚ} {places : Nat} : Denotes cs rational places ↔
    ∃ negative integral fraction, ∃ after : IsRow fraction, IsRow integral ∧
      cs = signText negative ++ (integral ++ '.' :: fraction) ∧
      (ofParts negative integral fraction after).value = rational ∧ fraction.length = places := by
  constructor
  · intro denotes
    cases denotes with
    | positive before after => exact ⟨false, _, _, after, before, rfl, placeValue_parts _ _, rfl⟩
    | negative before after => exact ⟨true, _, _, after, before, rfl, value_ofParts_negative _ after, rfl⟩
  · rintro ⟨negative, integral, fraction, after, before, rfl, rfl, rfl⟩
    cases negative with
    | false =>
      have same : (ofParts false integral fraction after).value = _ := placeValue_parts integral fraction
      rw [same]
      exact .positive before after
    | true =>
      rw [value_ofParts_negative]
      exact .negative before after

private theorem read?_eq_some {text : String} {decimal : Decimal} : read? text = some decimal ↔
    ∃ negative integral fraction, ∃ after : IsRow fraction, IsRow integral ∧
      text.toList = signText negative ++ (integral ++ '.' :: fraction) ∧
      decimal = ofParts negative integral fraction after := by
  constructor
  · intro read
    unfold read? at read
    cases split : splitSign text.toList with
    | mk negative cs =>
      simp only [split] at read
      split at read
      next point digit fraction found =>
        split at read
        next => cases read
        next nonempty =>
          obtain ⟨magnitude, number, rfl⟩ := Option.map_eq_some_iff.mp read
          obtain ⟨⟨_, digits⟩, rfl⟩ := digits?_eq_some.mp number
          have stopped := List.head?_dropWhile_not (· ≠ '.') cs
          rw [found] at stopped
          have isPoint : point = '.' := by simpa using stopped
          have whole := List.takeWhile_append_dropWhile (p := (· ≠ '.')) (l := cs)
          rw [found, isPoint] at whole
          have after : IsRow (digit :: fraction) :=
            ⟨List.cons_ne_nil _ _, fun c member => digits c (List.mem_append_right _ member)⟩
          have before : IsRow (cs.takeWhile (· ≠ '.')) :=
            ⟨nonempty, fun c member => digits c (List.mem_append_left _ member)⟩
          exact ⟨negative, _, _, after, before, by rw [splitSign_eq split, whole], rfl⟩
      next => cases read
  · rintro ⟨negative, integral, fraction, after, before, spelt, rfl⟩
    have split := splitSign_signText negative before ('.' :: fraction)
    rw [← spelt] at split
    have digits : ∀ c ∈ integral ++ fraction, c.isDigit = true := by
      intro c member
      exact (List.mem_append.mp member).elim (before.2 c) (after.2 c)
    rw [read?_of_parts split before.1 after.1 digits, ← placeValue_eq]
    rfl

theorem read?_isSome (text : String) :
    (read? text).isSome ↔ ∃ sign integral fraction, text.toList = sign ++ (integral ++ '.' :: fraction) ∧
      IsSign sign ∧ IsRow integral ∧ IsRow fraction := by
  simp only [Option.isSome_iff_exists, read?_eq_some, isSign_iff]
  constructor
  · rintro ⟨_, negative, integral, fraction, after, before, spelt, _⟩
    exact ⟨_, integral, fraction, spelt, ⟨negative, rfl⟩, before, after⟩
  · rintro ⟨_, integral, fraction, spelt, ⟨negative, rfl⟩, before, after⟩
    exact ⟨_, negative, integral, fraction, after, before, spelt, rfl⟩

private theorem denotes_of_read {text : String} {decimal : Decimal} (read : read? text = some decimal) :
    Denotes text.toList decimal.value decimal.scale := by
  obtain ⟨negative, integral, fraction, after, before, spelt, rfl⟩ := read?_eq_some.mp read
  exact denotes_iff.mpr ⟨negative, integral, fraction, after, before, spelt, rfl, rfl⟩

private theorem Denotes.read {text : String} {rational : ℚ} {places : Nat}
    (denotes : Denotes text.toList rational places) :
    ∃ decimal, read? text = some decimal ∧ decimal.value = rational ∧ decimal.scale = places := by
  obtain ⟨negative, integral, fraction, after, before, spelt, value, size⟩ := denotes_iff.mp denotes
  exact ⟨_, read?_eq_some.mpr ⟨negative, integral, fraction, after, before, spelt, rfl⟩, value, size⟩

/-- Either the digits go beyond the fraction, and begin with the integral part, or a zero fills its place. -/
theorem isPlainRow_digits (decimal : Decimal) : IsPlainRow decimal.digits.1 := by
  obtain ⟨nonempty, _⟩ := decimal.length_digits
  refine ⟨⟨List.length_pos_iff.mp nonempty, fun c member => decimal.isDigit_digits c (by simp [member])⟩, ?_⟩
  have places := decimal.scale_pos
  have plain := isPlainRow_toDigits decimal.unscaled.natAbs
  simp only [digits, List.splitAt_eq]
  generalize Nat.toDigits 10 decimal.unscaled.natAbs = row at plain
  by_cases short : row.length ≤ decimal.scale
  · have filled : decimal.scale + 1 - row.length = (decimal.scale - row.length) + 1 := by omega
    have size : (List.replicate (decimal.scale + 1 - row.length) '0' ++ row).length - decimal.scale = 1 := by
      rw [List.length_append, List.length_replicate]
      omega
    rw [size, filled, List.replicate_succ]
    exact .inl rfl
  · have none : decimal.scale + 1 - row.length = 0 := by omega
    rw [none, List.replicate_zero, List.nil_append, List.head?_take, if_neg (by omega)]
    refine .inr (plain.2.resolve_left ?_)
    rintro rfl
    simp at short
    omega

private theorem placeValue_digits (decimal : Decimal) :
    placeValue (decimal.digits.1 ++ decimal.digits.2) = decimal.unscaled.natAbs := by
  rw [placeValue_eq, ofDigitChars_digits]

private theorem isRow_fraction (decimal : Decimal) : IsRow decimal.digits.2 := by
  refine ⟨List.length_pos_iff.mp ?_, fun c member => decimal.isDigit_digits c (by simp [member])⟩
  rw [decimal.length_digits.2]
  exact decimal.scale_pos

/-- The parts that are written are the only ones with these digits in them. -/
theorem digits_eq {decimal : Decimal} {integral fraction : List Char} (plain : IsPlainRow integral)
    (after : IsRow fraction) (size : fraction.length = decimal.scale)
    (same : placeValue (integral ++ fraction) = decimal.unscaled.natAbs) : decimal.digits = (integral, fraction) := by
  have row := decimal.isRow_fraction
  have length : decimal.digits.2.length = fraction.length := by rw [decimal.length_digits.2, size]
  obtain ⟨first, second⟩ := placeValue_append_inj row.2 after.2 length (decimal.placeValue_digits.trans same.symm)
  exact Prod.ext (decimal.isPlainRow_digits.eq_of_placeValue plain first)
    (eq_of_placeValue_of_length row.2 after.2 length second)

private theorem canonical_write (decimal : Decimal) : Canonical decimal.write.toList := by
  have size := decimal.placeValue_digits
  rw [toList_write]
  split
  next negative =>
    rw [List.singleton_append]
    exact .negative decimal.isPlainRow_digits decimal.isRow_fraction (by omega)
  next => exact .positive decimal.isPlainRow_digits decimal.isRow_fraction

private theorem write_of_canonical {text : String} {decimal : Decimal} (read : read? text = some decimal)
    (canonical : Canonical text.toList) : decimal.write = text := by
  apply String.toList_inj.mp
  rw [toList_write]
  generalize spelt : text.toList = cs at canonical
  cases canonical with
  | @positive integral fraction plain after =>
    have same := read?_eq_some.mpr ⟨false, integral, fraction, after, plain.1, spelt, rfl⟩
    cases read.symm.trans same
    rw [digits_eq plain after rfl rfl]
    simp [ofParts, withSign]
  | @negative integral fraction plain after nonzero =>
    have same := read?_eq_some.mpr ⟨true, integral, fraction, after, plain.1, spelt, rfl⟩
    cases read.symm.trans same
    have unscaled : (ofParts true integral fraction after).unscaled = -(placeValue (integral ++ fraction) : Int) := rfl
    rw [if_pos (by omega), digits_eq plain after rfl (by omega), List.singleton_append]

private theorem write_injective : Function.Injective write := by
  intro first second same
  have read := read?_write first
  rw [same, read?_write] at read
  exact (Option.some.inj read).symm

/-- Decimals and their texts. What can be read is two rows of digits with a point between them, with or
without a minus sign, and it is read as the number it stands for with the places it has. Each number has
one canonical text with so many places, which is read back. -/
theorem represents_scaled_rationals :
    (∀ text, (read? text).isSome ↔ ∃ sign integral fraction, text.toList = sign ++ (integral ++ '.' :: fraction) ∧
      IsSign sign ∧ IsRow integral ∧ IsRow fraction) ∧
    (∀ text decimal, read? text = some decimal →
      Denotes text.toList decimal.value decimal.scale ∧ Denotes decimal.write.toList decimal.value decimal.scale ∧
        (Canonical text.toList ↔ decimal.write = text)) ∧
    (∀ first second p q m n, Denotes first.toList p m → Denotes second.toList q n →
      (read? first = read? second ↔ p = q ∧ m = n) ∧
        ((read? first).map write = (read? second).map write ↔ p = q ∧ m = n)) ∧
    ∀ decimal, read? decimal.write = some decimal := by
  refine ⟨read?_isSome, ?_, ?_, read?_write⟩
  · intro text decimal read
    refine ⟨denotes_of_read read, denotes_of_read (read?_write decimal), write_of_canonical read, ?_⟩
    rintro rfl
    exact canonical_write decimal
  · intro first second p q m n denotes denotes'
    obtain ⟨decimal, read, rfl, rfl⟩ := denotes.read
    obtain ⟨decimal', read', rfl, rfl⟩ := denotes'.read
    rw [(Option.map_injective write_injective).eq_iff, read, read', Option.some.injEq]
    have equal : decimal = decimal' ↔ decimal.value = decimal'.value ∧ decimal.scale = decimal'.scale := by
      constructor
      · rintro rfl
        exact ⟨rfl, rfl⟩
      · rintro ⟨value, scale⟩
        exact eq_of_value value scale
    exact ⟨equal, equal⟩

theorem represents_scaled_rationals_zeros :
    read? "-0.00" = read? "00.00" ∧ read? "1.0" ≠ read? "1.00" ∧ (read? "-01.50").map write = some "-1.50" := by
  obtain ⟨_, texts, equal, _⟩ := represents_scaled_rationals
  have one : IsRow ['1'] := isRow_iff.mpr (by decide)
  have zero : IsRow ['0'] := isRow_iff.mpr (by decide)
  have zeros : IsRow ['0', '0'] := isRow_iff.mpr (by decide)
  have zeroOne : IsRow ['0', '1'] := isRow_iff.mpr (by decide)
  have fifty : IsRow ['5', '0'] := isRow_iff.mpr (by decide)
  have minus : Denotes "-0.00".toList 0 2 := by simpa [placeValue] using Denotes.negative zero zeros
  have plain : Denotes "00.00".toList 0 2 := by simpa [placeValue] using Denotes.positive zeros zeros
  have single : Denotes "1.0".toList 1 1 := by simpa [placeValue] using Denotes.positive one zero
  have double : Denotes "1.00".toList 1 2 := by simpa [placeValue] using Denotes.positive one zeros
  have value : placeValue ['5', '0'] = 50 := rfl
  have long : Denotes "-01.50".toList (-(1 + 50 / 10 ^ 2)) 2 := by
    simpa [value, placeValue] using Denotes.negative zeroOne fifty
  have short : Denotes "-1.50".toList (-(1 + 50 / 10 ^ 2)) 2 := by
    simpa [value, placeValue] using Denotes.negative one fifty
  have canonical : Canonical "-1.50".toList := .negative ⟨one, .inr (by decide)⟩ fifty (by decide)
  refine ⟨(equal _ _ _ _ _ _ minus plain).1.mpr ⟨rfl, rfl⟩, ?_, ?_⟩
  · intro same
    cases ((equal _ _ _ _ _ _ single double).1.mp same).2
  · obtain ⟨decimal, read, _⟩ := short.read
    rw [(equal _ _ _ _ _ _ long short).2.mpr ⟨rfl, rfl⟩, read, Option.map_some, (texts _ _ read).2.2.mp canonical]

end Decimal

end PlcJava
