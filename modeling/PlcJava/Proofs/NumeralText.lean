import PlcJava.Numeral.Decimal
import PlcJava.Proofs.TokenShape

/-! The text of a number reads as the number. A text without a sign is a number token. -/

set_option autoImplicit false

namespace PlcJava

private theorem digits?_of_digits {cs : List Char} (nonempty : cs ≠ []) (digits : ∀ c ∈ cs, c.isDigit = true) :
    digits? cs = some (Nat.ofDigitChars 10 cs 0) := by
  rw [digits?, if_pos ⟨nonempty, List.all_eq_true.mpr digits⟩]

theorem splitSign_of_digit {c : Char} {cs : List Char} (digit : c.isDigit = true) :
    splitSign (c :: cs) = (false, c :: cs) := by
  unfold splitSign
  split
  next same =>
    obtain ⟨rfl, _⟩ := List.cons.inj same
    cases digit
  next => rfl

private theorem withSign_natAbs (value : Int) : withSign (decide (value < 0)) value.natAbs = value := by
  unfold withSign
  split
  next negative =>
    have below : value < 0 := by simpa using negative
    omega
  next positive =>
    have above : ¬ value < 0 := by simpa using positive
    omega

private theorem withSign_nonneg (magnitude : Nat) : 0 ≤ withSign false magnitude := by
  simp [withSign]

theorem isDigit_toDigits (number : Nat) : ∀ c ∈ Nat.toDigits 10 number, c.isDigit = true :=
  fun _ member => Nat.isDigit_of_mem_toDigits (by omega) (by omega) member

namespace Integer

theorem toList_write (value : Int) :
    (write value).toList = (if value < 0 then ['-'] else []) ++ Nat.toDigits 10 value.natAbs := by
  unfold write
  split <;> simp [Nat.toList_repr]

theorem read?_write (value : Int) : read? (write value) = some value := by
  have digits := isDigit_toDigits value.natAbs
  have read := digits?_of_digits Nat.toDigits_ne_nil digits
  rw [Nat.ofDigitChars_ten_toDigits] at read
  have sign := withSign_natAbs value
  unfold read?
  rw [toList_write]
  by_cases negative : value < 0
  · simp only [negative, if_true, List.cons_append, List.nil_append, splitSign, read, Option.map_some]
    simpa [negative] using sign
  · obtain ⟨c, cs, cut⟩ := List.exists_cons_of_ne_nil (Nat.toDigits_ne_nil (n := value.natAbs) (b := 10))
    have unsigned : splitSign (Nat.toDigits 10 value.natAbs) = (false, Nat.toDigits 10 value.natAbs) := by
      rw [cut] at digits ⊢
      exact splitSign_of_digit (digits c (by simp))
    simp only [negative, if_false, List.nil_append, unsigned, read, Option.map_some]
    simpa [negative] using sign

theorem shape_write {value : Int} (positive : 0 ≤ value) : Kind.Shape .integer (write value).toList := by
  rw [toList_write, if_neg (by omega), List.nil_append]
  exact ⟨Nat.toDigits_ne_nil, isDigit_toDigits _⟩

theorem read?_nonneg {text : String} {value : Int} (shape : Kind.Shape .integer text.toList)
    (read : read? text = some value) : 0 ≤ value := by
  obtain ⟨c, cs, cut⟩ := List.exists_cons_of_ne_nil shape.1
  have unsigned : splitSign text.toList = (false, text.toList) := by
    rw [cut] at shape ⊢
    exact splitSign_of_digit (shape.2 c (by simp))
  unfold read? at read
  simp only [unsigned] at read
  obtain ⟨magnitude, _, rfl⟩ := Option.map_eq_some_iff.mp read
  exact withSign_nonneg magnitude

end Integer

namespace Decimal

private theorem digits_append (value : Decimal) :
    value.digits.1 ++ value.digits.2 =
      List.replicate (value.scale + 1 - (Nat.toDigits 10 value.unscaled.natAbs).length) '0' ++
        Nat.toDigits 10 value.unscaled.natAbs := by
  simp [digits]

theorem length_digits (value : Decimal) : 0 < value.digits.1.length ∧ value.digits.2.length = value.scale := by
  simp only [digits, List.splitAt_eq, List.length_take, List.length_drop, List.length_append, List.length_replicate]
  omega

theorem isDigit_digits (value : Decimal) : ∀ c ∈ value.digits.1 ++ value.digits.2, c.isDigit = true := by
  rw [digits_append]
  intro c member
  rcases List.mem_append.mp member with zero | digit
  · rw [List.eq_of_mem_replicate zero]
    rfl
  · exact isDigit_toDigits _ c digit

theorem ofDigitChars_digits (value : Decimal) :
    Nat.ofDigitChars 10 (value.digits.1 ++ value.digits.2) 0 = value.unscaled.natAbs := by
  rw [digits_append, Nat.ofDigitChars_append, Nat.ofDigitChars_replicate_zero, Nat.mul_zero,
    Nat.ofDigitChars_ten_toDigits]

theorem toList_write (value : Decimal) :
    value.write.toList =
      (if value.unscaled < 0 then ['-'] else []) ++ (value.digits.1 ++ '.' :: value.digits.2) := by
  unfold write
  dsimp only
  split <;> simp

theorem read?_of_parts {text : String} {negative : Bool} {integral fraction : List Char}
    (cut : splitSign text.toList = (negative, integral ++ '.' :: fraction)) (before : integral ≠ [])
    (after : fraction ≠ []) (digits : ∀ c ∈ integral ++ fraction, c.isDigit = true) :
    read? text = some ⟨withSign negative (Nat.ofDigitChars 10 (integral ++ fraction) 0), fraction.length,
      List.length_pos_iff.mpr after⟩ := by
  have plain : ∀ c ∈ integral, decide (c ≠ '.') = true := by
    intro c member
    simpa using isDigit_ne_point (digits c (by simp [member]))
  obtain ⟨digit, others, rfl⟩ := List.exists_cons_of_ne_nil after
  have number : digits? (integral ++ digit :: others) = some _ := digits?_of_digits (by simp) digits
  unfold read?
  simp only [cut, List.takeWhile_append_of_pos plain, List.dropWhile_append_of_pos plain]
  simp [before, number]

theorem read?_write (value : Decimal) : read? value.write = some value := by
  obtain ⟨before, after⟩ := value.length_digits
  have digits := value.isDigit_digits
  obtain ⟨c, cs, first⟩ := List.exists_cons_of_ne_nil (List.length_pos_iff.mp before)
  have cut : splitSign value.write.toList =
      (decide (value.unscaled < 0), value.digits.1 ++ '.' :: value.digits.2) := by
    rw [toList_write]
    by_cases negative : value.unscaled < 0
    · simp [negative, splitSign]
    · have digit : c.isDigit = true := digits c (by simp [first])
      simp only [negative, if_false, List.nil_append, decide_false, first, List.cons_append]
      exact splitSign_of_digit digit
  have fraction : value.digits.2 ≠ [] := List.length_pos_iff.mp (after ▸ value.scale_pos)
  rw [read?_of_parts cut (List.length_pos_iff.mp before) fraction digits, ofDigitChars_digits, withSign_natAbs]
  cases value
  simpa using after

private theorem groups_of_parts {integral fraction : List Char} (before : integral ≠ []) (after : fraction ≠ [])
    (digits : ∀ c ∈ integral ++ fraction, c.isDigit = true) : DigitGroups (integral ++ '.' :: fraction) := by
  induction integral with
  | nil => exact absurd rfl before
  | cons c cs ih =>
    have digit : c.isDigit = true := digits c (by simp)
    by_cases last : cs = []
    · subst last
      obtain ⟨d, others, rfl⟩ := List.exists_cons_of_ne_nil after
      refine .pair digit (digits d (by simp)) (.of_digits ?_)
      intro e member
      exact digits e (by simp [member])
    · exact .digit digit (ih last fun d member => digits d (.tail _ member))

theorem shape_write {value : Decimal} (positive : 0 ≤ value.unscaled) : Kind.Shape .decimal value.write.toList := by
  obtain ⟨before, after⟩ := value.length_digits
  rw [toList_write, if_neg (by omega), List.nil_append]
  refine ⟨groups_of_parts (List.length_pos_iff.mp before) ?_ value.isDigit_digits, by simp⟩
  exact List.length_pos_iff.mp (after ▸ value.scale_pos)

theorem read?_nonneg {text : String} {value : Decimal} (shape : Kind.Shape .decimal text.toList)
    (read : read? text = some value) : 0 ≤ value.unscaled := by
  obtain ⟨groups, point⟩ := shape
  obtain ⟨c, cs, cut⟩ := List.exists_cons_of_ne_nil (List.ne_nil_of_mem point)
  have unsigned : splitSign text.toList = (false, text.toList) := by
    rw [cut] at groups ⊢
    exact splitSign_of_digit groups.first
  unfold read? at read
  simp only [unsigned] at read
  split at read
  · split at read
    · cases read
    · obtain ⟨magnitude, _, rfl⟩ := Option.map_eq_some_iff.mp read
      exact withSign_nonneg magnitude
  · cases read

end Decimal

end PlcJava
