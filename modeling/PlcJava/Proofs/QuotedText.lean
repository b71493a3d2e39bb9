import Mathlib.Tactic.SplitIfs
import PlcJava.Proofs.Delimiting
import PlcJava.Text.Quoted

/-! Quoted text determines what was quoted, whatever the characters that count as hidden: an escape is
told from a plain character by its backslash, and the mark behind the backslash tells how far the
escape goes. -/

set_option autoImplicit false

namespace PlcJava.Quoted

/-! Hexadecimal numerals. -/

private theorem digitChar_inj {first second : Nat} (small : first < 16) (little : second < 16)
    (same : first.digitChar = second.digitChar) : first = second := by
  have digits : ∀ first second : Fin 16, first.val.digitChar = second.val.digitChar → first = second := by decide
  exact congrArg Fin.val (digits ⟨first, small⟩ ⟨second, little⟩ same)

private theorem toDigits_inj {first second : Nat} (same : Nat.toDigits 16 first = Nat.toDigits 16 second) :
    first = second := by
  induction first using Nat.strongRecOn generalizing second with
  | ind first ih =>
    rw [Nat.toDigits_eq_if (by decide), Nat.toDigits_eq_if (n := second) (by decide)] at same
    split at same
    next small =>
      split at same
      next little => exact digitChar_inj small little (List.singleton_inj.mp same)
      next =>
        have longer : [] ++ [first.digitChar] = Nat.toDigits 16 (second / 16) ++ [(second % 16).digitChar] := same
        exact absurd (List.append_inj' longer rfl).1.symm Nat.toDigits_ne_nil
    next large =>
      split at same
      next =>
        have longer : Nat.toDigits 16 (first / 16) ++ [(first % 16).digitChar] = [] ++ [second.digitChar] := same
        exact absurd (List.append_inj' longer rfl).1 Nat.toDigits_ne_nil
      next =>
        obtain ⟨front, last⟩ := List.append_inj' same rfl
        have quotients := ih (first / 16) (by omega) front
        have digits := List.singleton_inj.mp last
        have remainders := digitChar_inj (Nat.mod_lt _ (by decide)) (Nat.mod_lt _ (by decide)) digits
        omega

private theorem brace_not_mem_toDigits (number : Nat) : '\x7d' ∉ Nat.toDigits 16 number := by
  induction number using Nat.strongRecOn with
  | ind number ih =>
    rw [Nat.toDigits_eq_if (by decide)]
    split
    next => simp
    next large =>
      have before := ih (number / 16) (by omega)
      simp [before]

/-! Escapes. -/

/-- The character that a mark stands for behind a backslash. -/
def marked : Char → Option Char
  | '"' => some '"'
  | '\\' => some '\\'
  | 'n' => some '\n'
  | 'r' => some '\r'
  | 't' => some '\t'
  | '0' => some '\x00'
  | _ => none

/-- How a character can be written. -/
inductive Written (c : Char) : List Char → Prop where
  | plain (noQuote : c ≠ '"') (noEscape : c ≠ '\\') : Written c [c]
  | short {mark : Char} (stands : marked mark = some c) : Written c ['\\', mark]
  | numeral : Written c (['\\', 'u', '\x7b'] ++ Nat.toDigits 16 c.toNat ++ ['\x7d'])

variable (hidden : Char → Bool)

private theorem written_escape (c : Char) : Written c (escape hidden c) := by
  unfold escape
  split_ifs with quote escape newline carriage tab null covered
  · exact .short (by rw [quote]; rfl)
  · exact .short (by rw [escape]; rfl)
  · exact .short (by rw [newline]; rfl)
  · exact .short (by rw [carriage]; rfl)
  · exact .short (by rw [tab]; rfl)
  · exact .short (by rw [null]; rfl)
  · exact .numeral
  · exact .plain quote escape

private theorem Written.tells {c d : Char} {first second : List Char} (writes : Written c first)
    (written : Written d second) : Tells first second (c = d) := by
  cases writes with
  | plain _ noEscape =>
    cases written with
    | plain =>
      intro rest others alike
      exact List.cons.inj alike
    | short | numeral => exact .apart rfl rfl noEscape
  | @short mark stands =>
    cases written with
    | plain _ noEscape => exact .apart rfl rfl noEscape.symm
    | short stand =>
      intro rest others alike
      obtain ⟨rfl, behind⟩ := List.cons.inj (List.cons.inj alike).2
      exact ⟨Option.some.inj (stands.symm.trans stand), behind⟩
    | numeral =>
      have noMark : mark ≠ 'u' := by
        rintro rfl
        cases stands
      exact ((Tells.same ['\\']).append fun _ => .apart rfl rfl noMark).imp fun parts => parts.2
  | numeral =>
    cases written with
    | plain _ noEscape => exact .apart rfl rfl noEscape.symm
    | @short mark stands =>
      have noMark : 'u' ≠ mark := by
        rintro rfl
        cases stands
      exact ((Tells.same ['\\']).append fun _ => .apart rfl rfl noMark).imp fun parts => parts.2
    | numeral =>
      have numbers := Tells.stop (brace_not_mem_toDigits c.toNat) (brace_not_mem_toDigits d.toNat)
      apply ((Tells.same ['\\', 'u', '\x7b']).append fun _ => numbers).imp
      intro parts
      exact Char.toNat_inj.mp (toDigits_inj parts.2)

private theorem Written.ended {c : Char} {text : List Char} (written : Written c text) : Tells text ['"'] False := by
  cases written with
  | plain noQuote => exact .apart rfl rfl noQuote
  | short | numeral => exact .apart rfl rfl (by decide)

theorem encode_tells (first second : String) :
    Tells (encode hidden first).toList (encode hidden second).toList (first = second) := by
  have each : ∀ c ∈ first.toList, ∀ d ∈ second.toList, Tells (escape hidden c) (escape hidden d) (c = d) :=
    fun c _ d _ => (written_escape hidden c).tells (written_escape hidden d)
  have contents := Tells.values ['"'] each fun c => (written_escape hidden c).ended
  rw [encode, encode, String.toList_ofList, String.toList_ofList]
  apply ((Tells.same ['"']).append fun _ => contents).imp
  intro parts
  exact String.toList_inj.mp parts.2

end PlcJava.Quoted
