/-! Whole numbers of any size, and their text. A text is an optional minus sign and digits;
many texts read as one number, and each number is written in one way. -/

set_option autoImplicit false

namespace PlcJava

def digits? (cs : List Char) : Option Nat :=
  if cs ≠ [] ∧ cs.all Char.isDigit then some (Nat.ofDigitChars 10 cs 0) else none

/-- A text without its minus sign, and whether it had one. -/
def splitSign : List Char → Bool × List Char
  | '-' :: cs => (true, cs)
  | cs => (false, cs)

def withSign (negative : Bool) (magnitude : Nat) : Int :=
  if negative then -magnitude else magnitude

namespace Integer

def read? (text : String) : Option Int :=
  let (negative, cs) := splitSign text.toList
  (digits? cs).map (withSign negative)

/-- Without leading zeros, and zero without a sign. -/
def write (value : Int) : String :=
  if value < 0 then "-" ++ value.natAbs.repr else value.natAbs.repr

/-! Machine words stand for the numbers they hold. -/

def ofInt32 (word : Int32) : Int := word.toInt

def ofInt64 (word : Int64) : Int := word.toInt

def ofUInt64 (word : UInt64) : Int := word.toNat

end Integer

def numeralMessage (text : String) : String := "invalid numeric literal '" ++ text ++ "'"

end PlcJava
