import PlcJava.Numeral.Decimal

/-! Expressions. Parentheses of the source are kept as groups, and an operator is kept as its
text. -/

set_option autoImplicit false

namespace PlcJava

inductive Literal where
  | boolean (value : Bool)
  | integer (value : Int)
  | decimal (value : Decimal)
  | string (contents : String)
deriving DecidableEq

inductive Expression where
  | literal (value : Literal)
  | group (inner : Expression)
  | binary (operator : String) (left right : Expression)
  | reference (name : String)
  | call (name : String) (arguments : List Expression)

namespace Expression

mutual
def agrees : Expression → Expression → Bool
  | literal first, literal second => first = second
  | group first, group second => first.agrees second
  | binary operator left right, binary operator' left' right' =>
    operator = operator' && left.agrees left' && right.agrees right'
  | reference first, reference second => first = second
  | call name arguments, call name' arguments' => name = name' && agreeAll arguments arguments'
  | _, _ => false

def agreeAll : List Expression → List Expression → Bool
  | [], [] => true
  | first :: others, first' :: others' => first.agrees first' && agreeAll others others'
  | _, _ => false
end

mutual
theorem agrees_iff (first second : Expression) : first.agrees second = true ↔ first = second := by
  cases first <;> cases second <;> simp only [agrees, reduceCtorEq, Bool.false_eq_true]
  case literal.literal => simp
  case group.group first second => simp [agrees_iff first second]
  case binary.binary operator left right operator' left' right' =>
    simp [agrees_iff left left', agrees_iff right right', and_assoc]
  case reference.reference => simp
  case call.call name arguments name' arguments' => simp [agreeAll_iff arguments arguments']

theorem agreeAll_iff (first second : List Expression) : agreeAll first second = true ↔ first = second := by
  cases first <;> cases second <;> simp only [agreeAll, reduceCtorEq, Bool.false_eq_true]
  case cons.cons first others first' others' => simp [agrees_iff first first', agreeAll_iff others others']
end

instance : DecidableEq Expression := fun first second => decidable_of_iff _ (agrees_iff first second)

end Expression

end PlcJava
