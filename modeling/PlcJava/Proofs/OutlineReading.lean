import PlcJava.Outline
import PlcJava.Proofs.LayoutText
import PlcJava.Proofs.NumeralText
import PlcJava.Proofs.QuotedText

/-! The outline of a program determines the program. Every form begins with a letter of its own among
the forms that can stand in its place, and a line that goes on with a list is indented deeper than
the one that closes it. -/

set_option autoImplicit false

namespace PlcJava

open Outline (wrapped field record item list quoted)

namespace Layout

/-- The layout ends at the level where it began. -/
def Still (layout : Layout) : Prop := ∀ level, layout.levelAfter level = level

namespace Still

variable {first second inner : Layout} {name : String}

theorem text (content : String) : Still [.text content] := fun _ => rfl

private theorem append (still : first.Still) (also : second.Still) : Still (first ++ second) := by
  intro level
  rw [levelAfter_append, still, also]

private theorem wrapped (still : inner.Still) : (wrapped name inner).Still := by
  intro level
  simp [Outline.wrapped, Directive.levelAfter, still (level + 1)]

private theorem field (still : inner.Still) : (field name inner).Still := by
  intro level
  simp [Outline.field, Directive.levelAfter, still level]

private theorem record (still : inner.Still) : (record name inner).Still := by
  intro level
  simp [Outline.record, Directive.levelAfter, still (level + 1)]

private theorem item (still : inner.Still) : (item inner).Still := by
  intro level
  simp [Outline.item, Directive.levelAfter, still level]

private theorem list (still : inner.Still) : (list inner).Still := by
  intro level
  unfold Outline.list
  split
  · rfl
  · simp [Directive.levelAfter, still (level + 1)]

end Still

/-- Begun at the level, the two layouts have texts that tell whether the condition holds. -/
structure Discerns (level : Nat) (first second : Layout) (condition : Prop) : Prop where
  still : first.Still
  also : second.Still
  texts : Tells (first.written level) (second.written level) condition

namespace Discerns

variable {level : Nat} {first second third fourth : Layout} {condition further : Prop} {name : String}

theorem same (still : first.Still) : Discerns level first first True := ⟨still, still, .same _⟩

private theorem imp (tells : Discerns level first second condition) (weaker : condition → further) :
    Discerns level first second further :=
  ⟨tells.still, tells.also, tells.texts.imp weaker⟩

private theorem append (tells : Discerns level first second condition) (later : Discerns level third fourth further) :
    Discerns level (first ++ third) (second ++ fourth) (condition ∧ further) := by
  refine ⟨tells.still.append later.still, tells.also.append later.also, ?_⟩
  rw [written_append, written_append, tells.still, tells.also]
  exact tells.texts.append fun _ => later.texts

theorem wrapped (tells : Discerns (level + 1) first second condition) :
    Discerns level (wrapped name first) (wrapped name second) condition := by
  refine ⟨tells.still.wrapped, tells.also.wrapped, ?_⟩
  have text {inner : Layout} (still : inner.Still) : (Outline.wrapped name inner).written level =
      (name.toList ++ '(' :: lineBreak (level + 1)) ++ inner.written (level + 1) ++ (',' :: lineBreak level ++ [')']) := by
    simp [Outline.wrapped, written, Directive.written, Directive.levelAfter, still (level + 1)]
  rw [text tells.still, text tells.also]
  exact tells.texts.enclosed _ _

private theorem field (tells : Discerns level first second condition) :
    Discerns level (field name first) (field name second) condition := by
  refine ⟨tells.still.field, tells.also.field, ?_⟩
  have text (inner : Layout) : (Outline.field name inner).written level =
      (lineBreak level ++ name.toList ++ [':', ' ']) ++ inner.written level ++ [','] := by
    simp [Outline.field, written, Directive.written, Directive.levelAfter]
  rw [text first, text second]
  exact tells.texts.enclosed _ _

private theorem record (tells : Discerns (level + 1) first second condition) :
    Discerns level (record name first) (record name second) condition := by
  refine ⟨tells.still.record, tells.also.record, ?_⟩
  have text {inner : Layout} (still : inner.Still) : (Outline.record name inner).written level =
      (name.toList ++ [' ', '\x7b']) ++ inner.written (level + 1) ++ (lineBreak level ++ ['\x7d']) := by
    simp [Outline.record, written, Directive.written, Directive.levelAfter, still (level + 1)]
  rw [text tells.still, text tells.also]
  exact tells.texts.enclosed _ _

end Discerns

/-! Lists. -/

private theorem lineBreak_succ (level : Nat) : lineBreak (level + 1) = lineBreak level ++ [' ', ' ', ' ', ' '] := by
  rw [lineBreak, Nat.mul_succ, ← List.replicate_append_replicate]
  rfl

private theorem written_item (level : Nat) (inner : Layout) :
    (item inner).written level = lineBreak level ++ inner.written level ++ [','] := by
  simp [Outline.item, written, Directive.written, Directive.levelAfter]

private theorem item_ended (level : Nat) (inner : Layout) :
    Tells ((item inner).written (level + 1)) (lineBreak level ++ [']']) False := by
  rw [written_item, lineBreak_succ, List.append_assoc, List.append_assoc]
  have different : Tells ([' ', ' ', ' ', ' '] ++ (inner.written (level + 1) ++ [','])) [']'] False :=
    .apart rfl rfl (by decide)
  exact ((Tells.same (lineBreak level)).append fun _ => different).imp And.right

private theorem written_list {items : Layout} (nonempty : items ≠ []) (still : items.Still) (level : Nat) :
    (list items).written level = '[' :: (items.written (level + 1) ++ (lineBreak level ++ [']'])) := by
  simp [Outline.list, nonempty, written, Directive.written, Directive.levelAfter, still (level + 1)]

section lists

variable {α : Type} {outline : α → Layout} (still : ∀ value, (outline value).Still)
include still

private theorem written_items (level : Nat) (values : List α) :
    written level (values.flatMap fun value => item (outline value)) =
      values.flatMap fun value => (item (outline value)).written level := by
  induction values with
  | nil => rfl
  | cons value values ih => rw [List.flatMap_cons, List.flatMap_cons, written_append, (still value).item, ih]

private theorem still_items (values : List α) : Still (values.flatMap fun value => item (outline value)) := by
  induction values with
  | nil => exact fun _ => rfl
  | cons value values ih => exact (still value).item.append ih

private theorem written_list_cons (level : Nat) (value : α) (values : List α) :
    (list ((value :: values).flatMap fun value => item (outline value))).written level =
      '[' :: ((value :: values).flatMap (fun value => (item (outline value)).written (level + 1)) ++
        (lineBreak level ++ [']'])) := by
  rw [written_list (by simp [Outline.item]) (still_items still _), written_items still]

theorem Discerns.list {level : Nat} {values : List α} (others : List α)
    (each : ∀ value ∈ values, ∀ other, Discerns (level + 1) (outline value) (outline other) (value = other)) :
    Discerns level (list (values.flatMap fun value => item (outline value)))
      (list (others.flatMap fun value => item (outline value))) (values = others) := by
  refine ⟨(still_items still values).list, (still_items still others).list, ?_⟩
  cases values with
  | nil =>
    cases others with
    | nil => exact (Tells.same _).imp fun _ => rfl
    | cons other others =>
      rw [written_list_cons still]
      exact ((Tells.same ['[']).append fun _ => .apart rfl rfl (by decide)).imp And.right
  | cons value values =>
    rw [written_list_cons still]
    cases others with
    | nil => exact ((Tells.same ['[']).append fun _ => .apart rfl rfl (by decide)).imp And.right
    | cons other others =>
      rw [written_list_cons still]
      have items : ∀ first ∈ value :: values, ∀ second ∈ other :: others,
          Tells ((item (outline first)).written (level + 1)) ((item (outline second)).written (level + 1))
            (first = second) := by
        intro first member second _
        rw [written_item, written_item]
        exact (each first member second).texts.enclosed _ _
      have whole := Tells.values (lineBreak level ++ [']']) items fun value => item_ended level (outline value)
      exact ((Tells.same ['[']).append fun _ => whole).imp And.right

end lists

end Layout

/-! Forms that can stand in the same place have different first letters. -/

def Literal.initial : Literal → Char
  | .boolean _ => 'B'
  | .integer _ => 'I'
  | .decimal _ => 'D'
  | .string _ => 'S'

def Expression.initial : Expression → Char
  | .literal _ => 'L'
  | .group _ => 'G'
  | .binary _ _ _ => 'B'
  | .reference _ => 'V'
  | .call _ _ => 'F'

def Statement.initial : Statement → Char
  | .expression _ => 'E'
  | .declaration _ _ _ => 'D'
  | .assignment _ _ => 'A'
  | .conditional _ _ _ => 'I'
  | .loop _ _ => 'W'

namespace Outline

open Layout (Discerns Still)

variable (hidden : Char → Bool)

private theorem quoted_tells (level : Nat) (first second : String) :
    Discerns level (quoted hidden first) (quoted hidden second) (first = second) := by
  refine ⟨.text _, .text _, ?_⟩
  simpa [quoted, Layout.written, Directive.written] using Quoted.encode_tells hidden first second

private theorem still_literal (value : Literal) : (literal hidden value).Still := by
  match value with
  | .boolean true | .boolean false | .string _ => exact (Still.text _).wrapped
  | .integer _ | .decimal _ => exact (Still.text _).wrapped.wrapped

private theorem literal_begins (level : Nat) (value : Literal) :
    ∃ others, (literal hidden value).written level = value.initial :: others := by
  match value with
  | .boolean true | .boolean false | .integer _ | .decimal _ | .string _ => exact ⟨_, rfl⟩

private theorem literal_tells (level : Nat) (first second : Literal) :
    Discerns level (literal hidden first) (literal hidden second) (first = second) := by
  by_cases same : first.initial = second.initial
  · cases first <;> cases second <;> simp only [Literal.initial, Char.reduceEq] at same
    case boolean.boolean first second =>
      cases first <;> cases second
      case true.true | false.false => exact (Discerns.same (still_literal hidden _)).imp fun _ => rfl
      case true.false | false.true => exact Discerns.wrapped ⟨.text _, .text _, .apart rfl rfl (by decide)⟩
    case integer.integer first second =>
      apply (quoted_tells hidden _ _ _).wrapped.wrapped.imp
      intro text
      have value := congrArg Integer.read? text
      rw [Integer.read?_write, Integer.read?_write] at value
      rw [Option.some.inj value]
    case decimal.decimal first second =>
      apply (quoted_tells hidden _ _ _).wrapped.wrapped.imp
      intro text
      have value := congrArg Decimal.read? text
      rw [Decimal.read?_write, Decimal.read?_write] at value
      rw [Option.some.inj value]
    case string.string => exact (quoted_tells hidden _ _ _).wrapped.imp (congrArg _)
  · obtain ⟨_, begins⟩ := literal_begins hidden level first
    obtain ⟨_, starts⟩ := literal_begins hidden level second
    exact ⟨still_literal hidden first, still_literal hidden second, .apart begins starts same⟩

mutual
private theorem still_expression (value : Expression) : (expression hidden value).Still := by
  match value with
  | .literal value => exact (still_literal hidden value).wrapped
  | .group inner => exact (still_expression inner).wrapped
  | .binary _ left right =>
    exact (((Still.text _).field.append (still_expression left).field).append (still_expression right).field).record
  | .reference _ => exact (Still.text _).wrapped
  | .call _ values => exact ((Still.text _).field.append (still_arguments values).list.field).record

private theorem still_arguments (values : List Expression) : (arguments hidden values).Still := by
  match values with
  | [] => exact fun _ => rfl
  | first :: others => exact (still_expression first).item.append (still_arguments others)
end

private theorem arguments_eq (values : List Expression) :
    arguments hidden values = values.flatMap fun value => item (expression hidden value) := by
  induction values with
  | nil => rw [arguments, List.flatMap_nil]
  | cons value values ih => rw [arguments, List.flatMap_cons, ih]

private theorem expression_begins (level : Nat) (value : Expression) :
    ∃ others, (expression hidden value).written level = value.initial :: others := by
  cases value with
  | literal | group | binary | reference | call => exact ⟨_, rfl⟩

private theorem expression_tells (level : Nat) (first second : Expression) :
    Discerns level (expression hidden first) (expression hidden second) (first = second) := by
  by_cases same : first.initial = second.initial
  · cases first <;> cases second <;> simp only [Expression.initial, Char.reduceEq] at same
    case literal.literal first second =>
      exact (literal_tells hidden _ first second).wrapped.imp (congrArg _)
    case group.group first second =>
      exact (expression_tells _ first second).wrapped.imp (congrArg _)
    case binary.binary operator left right operator' left' right' =>
      apply (((quoted_tells hidden _ operator operator').field.append (expression_tells _ left left').field).append
        (expression_tells _ right right').field).record.imp
      intro parts
      rw [parts.1.1, parts.1.2, parts.2]
    case reference.reference first second =>
      exact (quoted_tells hidden _ first second).wrapped.imp (congrArg _)
    case call.call name values name' values' =>
      have each : ∀ value ∈ values, ∀ other, Discerns (level + 2) (expression hidden value) (expression hidden other)
          (value = other) := fun value _ other => expression_tells (level + 2) value other
      have lists := Discerns.list (still_expression hidden) values' each
      rw [expression, expression, arguments_eq, arguments_eq]
      apply ((quoted_tells hidden _ name name').field.append lists.field).record.imp
      intro parts
      rw [parts.1, parts.2]
  · obtain ⟨_, begins⟩ := expression_begins hidden level first
    obtain ⟨_, starts⟩ := expression_begins hidden level second
    exact ⟨still_expression hidden first, still_expression hidden second, .apart begins starts same⟩
termination_by first

private theorem still_optional (value : Option Expression) : (optional hidden value).Still := by
  cases value with
  | none => exact .text _
  | some value => exact (still_expression hidden value).wrapped

private theorem optional_tells (level : Nat) (first second : Option Expression) :
    Discerns level (optional hidden first) (optional hidden second) (first = second) := by
  match first, second with
  | none, none => exact (Discerns.same (.text _)).imp fun _ => rfl
  | none, some _ | some _, none =>
    exact ⟨still_optional hidden _, still_optional hidden _, .apart rfl rfl (by decide)⟩
  | some first, some second => exact (expression_tells hidden _ first second).wrapped.imp (congrArg _)

mutual
private theorem still_statement (value : Statement) : (statement hidden value).Still := by
  match value with
  | .expression value => exact (still_expression hidden value).wrapped
  | .declaration _ _ value =>
    exact (((Still.text _).field.append (Still.text _).field).append (still_optional hidden value).field).record
  | .assignment _ value => exact ((Still.text _).field.append (still_expression hidden value).field).record
  | .conditional condition thenBody elseBody =>
    exact (((still_expression hidden condition).field.append (still_statements thenBody).list.field).append
      (still_statements elseBody).list.field).record
  | .loop condition body =>
    exact ((still_expression hidden condition).field.append (still_statements body).list.field).record

private theorem still_statements (values : List Statement) : (statements hidden values).Still := by
  match values with
  | [] => exact fun _ => rfl
  | first :: others => exact (still_statement first).item.append (still_statements others)
end

private theorem statements_eq (values : List Statement) :
    statements hidden values = values.flatMap fun value => item (statement hidden value) := by
  induction values with
  | nil => rw [statements, List.flatMap_nil]
  | cons value values ih => rw [statements, List.flatMap_cons, ih]

private theorem statement_begins (level : Nat) (value : Statement) :
    ∃ others, (statement hidden value).written level = value.initial :: others := by
  cases value with
  | expression | declaration | assignment | conditional | loop => exact ⟨_, rfl⟩

private theorem body_tells {level : Nat} (first second : List Statement)
    (each : ∀ value ∈ first, ∀ other, Discerns (level + 1) (statement hidden value) (statement hidden other)
      (value = other)) :
    Discerns level (list (statements hidden first)) (list (statements hidden second)) (first = second) := by
  rw [statements_eq, statements_eq]
  exact Discerns.list (still_statement hidden) second each

private theorem statement_tells (level : Nat) (first second : Statement) :
    Discerns level (statement hidden first) (statement hidden second) (first = second) := by
  by_cases same : first.initial = second.initial
  · cases first <;> cases second <;> simp only [Statement.initial, Char.reduceEq] at same
    case expression.expression first second =>
      exact (expression_tells hidden _ first second).wrapped.imp (congrArg _)
    case declaration.declaration name typeName value name' typeName' value' =>
      apply (((quoted_tells hidden _ name name').field.append (quoted_tells hidden _ typeName typeName').field).append
        (optional_tells hidden _ value value').field).record.imp
      intro parts
      rw [parts.1.1, parts.1.2, parts.2]
    case assignment.assignment name value name' value' =>
      apply ((quoted_tells hidden _ name name').field.append (expression_tells hidden _ value value').field).record.imp
      intro parts
      rw [parts.1, parts.2]
    case conditional.conditional condition thenBody elseBody condition' thenBody' elseBody' =>
      have thenTells := body_tells hidden thenBody thenBody' fun value _ other => statement_tells (level + 2) value other
      have elseTells := body_tells hidden elseBody elseBody' fun value _ other => statement_tells (level + 2) value other
      apply (((expression_tells hidden _ condition condition').field.append thenTells.field).append
        elseTells.field).record.imp
      intro parts
      rw [parts.1.1, parts.1.2, parts.2]
    case loop.loop condition body condition' body' =>
      have bodyTells := body_tells hidden body body' fun value _ other => statement_tells (level + 2) value other
      apply ((expression_tells hidden _ condition condition').field.append bodyTells.field).record.imp
      intro parts
      rw [parts.1, parts.2]
  · obtain ⟨_, begins⟩ := statement_begins hidden level first
    obtain ⟨_, starts⟩ := statement_begins hidden level second
    exact ⟨still_statement hidden first, still_statement hidden second, .apart begins starts same⟩
termination_by first

/-- No two programs have the same outline, whatever names, operators and strings are in them and whichever
characters are held to be hidden. -/
theorem render_program_eq_iff (first second : Program) :
    (program hidden first).render ++ "\n" = (program hidden second).render ++ "\n" ↔ first = second := by
  constructor
  · intro same
    have bodies := body_tells hidden first second fun value _ other => statement_tells hidden 2 value other
    have whole : Discerns 0 (program hidden first) (program hidden second) (first = second) := bodies.field.record
    have alike := congrArg String.toList same
    rw [String.toList_append, String.toList_append, Layout.toList_render, Layout.toList_render] at alike
    exact (whole.texts _ _ alike).1
  · intro same
    rw [same]

end Outline

end PlcJava
