import PlcJava.Numeral.Integer

/-! Decimal fractions of any size. The number of places is part of the value: `1.0` and
`1.00` are different decimals for the same rational number. -/

set_option autoImplicit false

namespace PlcJava

/-- The rational number `unscaled / 10 ^ scale`, written with `scale` places. -/
structure Decimal where
  unscaled : Int
  scale : Nat
  scale_pos : 0 < scale
deriving DecidableEq

namespace Decimal

/-- An optional sign, digits, a point and digits. All the digits together are the unscaled
number. -/
def read? (text : String) : Option Decimal :=
  let (negative, cs) := splitSign text.toList
  let integral := cs.takeWhile (· ≠ '.')
  match cs.dropWhile (· ≠ '.') with
  | _ :: digit :: fraction =>
    if integral = [] then none
    else
      (digits? (integral ++ digit :: fraction)).map fun magnitude =>
        ⟨withSign negative magnitude, fraction.length + 1, Nat.succ_pos _⟩
  | _ => none

/-- The digits of the integral part and of the fraction. There is at least one digit before
the point. -/
def digits (value : Decimal) : List Char × List Char :=
  let cs := Nat.toDigits 10 value.unscaled.natAbs
  let padded := List.replicate (value.scale + 1 - cs.length) '0' ++ cs
  padded.splitAt (padded.length - value.scale)

def write (value : Decimal) : String :=
  let (integral, fraction) := value.digits
  let magnitude := String.ofList (integral ++ '.' :: fraction)
  if value.unscaled < 0 then "-" ++ magnitude else magnitude

end Decimal

end PlcJava
