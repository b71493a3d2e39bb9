import PlcJava.Expression

/-! Statements. A program is a list of them. -/

set_option autoImplicit false

namespace PlcJava

inductive Statement where
  | expression (value : Expression)
  | declaration (name typeName : String) (value : Option Expression)
  | assignment (name : String) (value : Expression)
  | conditional (condition : Expression) (thenBody elseBody : List Statement)
  | loop (condition : Expression) (body : List Statement)

abbrev Program := List Statement

namespace Statement

mutual
def agrees : Statement → Statement → Bool
  | expression first, expression second => first = second
  | declaration name typeName value, declaration name' typeName' value' =>
    name = name' && typeName = typeName' && value = value'
  | assignment name value, assignment name' value' => name = name' && value = value'
  | conditional condition thenBody elseBody, conditional condition' thenBody' elseBody' =>
    condition = condition' && agreeAll thenBody thenBody' && agreeAll elseBody elseBody'
  | loop condition body, loop condition' body' => condition = condition' && agreeAll body body'
  | _, _ => false

def agreeAll : List Statement → List Statement → Bool
  | [], [] => true
  | first :: others, first' :: others' => first.agrees first' && agreeAll others others'
  | _, _ => false
end

mutual
theorem agrees_iff (first second : Statement) : first.agrees second = true ↔ first = second := by
  cases first <;> cases second <;> simp only [agrees, reduceCtorEq, Bool.false_eq_true]
  case expression.expression => simp
  case declaration.declaration => simp [and_assoc]
  case assignment.assignment => simp
  case conditional.conditional condition thenBody elseBody condition' thenBody' elseBody' =>
    simp [agreeAll_iff thenBody thenBody', agreeAll_iff elseBody elseBody', and_assoc]
  case loop.loop condition body condition' body' => simp [agreeAll_iff body body']

theorem agreeAll_iff (first second : List Statement) : agreeAll first second = true ↔ first = second := by
  cases first <;> cases second <;> simp only [agreeAll, reduceCtorEq, Bool.false_eq_true]
  case cons.cons first others first' others' => simp [agrees_iff first first', agreeAll_iff others others']
end

instance : DecidableEq Statement := fun first second => decidable_of_iff _ (agrees_iff first second)

end Statement

end PlcJava
