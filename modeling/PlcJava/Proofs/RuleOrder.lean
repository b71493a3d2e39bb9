import Mathlib
import PlcJava.Proofs.ProgramRecognition

/-! The order of the entries that the rules for statements leave. Each rule begins behind the ones before it,
and none behind the place where the reading ends, whether it succeeds or fails. -/

set_option autoImplicit false

namespace PlcJava

/-- Rules that begin one behind the other, the first with at most `high` tokens left and the last with at
least `low`. -/
structure Descends (high low : Nat) (entries : List Entry) : Prop where
  within : ∀ entry ∈ entries, entry.left ≤ high
  order : entries.Pairwise fun first second => second.left < first.left
  above : ∀ entry ∈ entries, low ≤ entry.left

namespace Descends

private theorem nil (high low : Nat) : Descends high low [] := ⟨nofun, .nil, nofun⟩

private theorem single {high low : Nat} (rule : Rule) (order : low ≤ high) : Descends high low [⟨rule, high⟩] := by
  refine ⟨?_, List.pairwise_singleton _ _, ?_⟩
  · intro entry member
    cases List.mem_singleton.mp member
    exact Nat.le_refl _
  · intro entry member
    cases List.mem_singleton.mp member
    exact order

private theorem append {high middle low : Nat} {first second : List Entry} (one : Descends high (middle + 1) first)
    (other : Descends middle low second) (upper : middle ≤ high) (lower : low ≤ middle) :
    Descends high low (first ++ second) := by
  refine ⟨?_, List.pairwise_append.mpr ⟨one.order, other.order, ?_⟩, ?_⟩
  · intro entry member
    rcases List.mem_append.mp member with member | member
    · exact one.within entry member
    · exact Nat.le_trans (other.within entry member) upper
  · intro earlier member entry memberLater
    exact Nat.lt_of_le_of_lt (other.within entry memberLater) (one.above earlier member)
  · intro entry member
    rcases List.mem_append.mp member with member | member
    · exact Nat.le_trans lower (Nat.le_of_lt (one.above entry member))
    · exact other.above entry member

private theorem of_le {high more low : Nat} {entries : List Entry} (descends : Descends high low entries)
    (order : high ≤ more) : Descends more low entries :=
  ⟨fun entry member => Nat.le_trans (descends.within entry member) order, descends.order, descends.above⟩

end Descends

namespace Reading

variable {tokens : List Token} {α β : Type}

/-- How many tokens are left at least where a rule of the reading begins. A fault may stand right there,
while what was read goes on behind it. -/
def least : Reading tokens α → Nat
  | .done _ rest _ => rest.length + 1
  | .stuck _ rest _ => rest.length

private theorem least_le (reading : Reading tokens α) : reading.least ≤ tokens.length := by
  cases reading with
  | done value rest shorter => exact shorter
  | stuck fault rest inside => exact inside

private theorem least_behind {token : Token} (reading : Reading tokens α) :
    (reading.behind : Reading (token :: tokens) α).least = reading.least := by
  cases reading <;> rfl

private theorem least_after {before : List Token} (reading : Reading tokens α)
    (shorter : tokens.length < before.length) : (reading.after shorter).least = reading.least := by
  cases reading <;> rfl

private theorem least_map (f : α → β) (reading : Reading tokens α) : (reading.map f).least = reading.least := by
  cases reading <;> rfl

end Reading

/-- The rules begin among the tokens that are read, one behind the other. -/
def Traced.Ordered {tokens : List Token} {α : Type} (traced : Traced tokens α) : Prop :=
  Descends tokens.length traced.reading.least traced.entries

namespace Traced.Ordered

variable {tokens : List Token} {α β : Type}

private theorem none (reading : Reading tokens α) : Ordered ⟨[], reading⟩ := .nil _ _

private theorem simple (rule : Rule) (reading : Reading tokens α) :
    (Traced.simple rule tokens.length reading).Ordered :=
  .single rule reading.least_le

private theorem behind {token : Token} {traced : Traced tokens α} (ordered : traced.Ordered) :
    (traced.behind : Traced (token :: tokens) α).Ordered := by
  unfold Ordered
  rw [Traced.reading_behind, Reading.least_behind]
  exact ordered.of_le (Nat.le_succ _)

private theorem map {traced : Traced tokens α} (f : α → β) (ordered : traced.Ordered) : (traced.map f).Ordered := by
  unfold Ordered
  rw [Traced.reading_map, Reading.least_map]
  exact ordered

/-- The second part begins where the first one ends, which is behind all the rules of the first. -/
theorem bind {traced : Traced tokens α} {later : α → (rest : List Token) → Traced rest β} (first : traced.Ordered)
    (second : ∀ value rest, rest.length < tokens.length → (later value rest).Ordered) :
    (traced.bind fun value rest shorter => (later value rest).after shorter).Ordered := by
  obtain ⟨entries, reading⟩ := traced
  cases reading with
  | stuck fault rest inside => exact first
  | done value rest shorter =>
    change Descends tokens.length ((later value rest).reading.after shorter).least (entries ++ (later value rest).entries)
    rw [Reading.least_after]
    exact Descends.append first (second value rest shorter) (Nat.le_of_lt shorter) (later value rest).reading.least_le

end Traced.Ordered

namespace Parsing

mutual
private theorem statement_ordered (tokens : List Token) : (statement tokens).Ordered := by
  match tokens with
  | [] =>
    rw [statement_eq_expression (by simp) (by simp)]
    exact .simple _ _
  | token :: tail =>
    cases dispatch token tail with
    | conditional kind isIf =>
      rw [statement_eq_conditional tail kind isIf]
      exact (conditional_ordered tail).behind
    | loop kind isWhile =>
      rw [statement_eq_loop tail kind isWhile]
      exact (loop_ordered tail).behind
    | declaration kind isLet =>
      rw [statement_eq_declaration tail kind isLet]
      exact (Traced.Ordered.simple _ _).behind
    | assignment kind plain split equals =>
      subst split
      rw [statement_eq_assignment _ kind plain equals]
      exact .simple _ _
    | expression plain unassigned =>
      rw [statement_eq_expression plain unassigned]
      exact .simple _ _
termination_by 2 * tokens.length
decreasing_by all_goals simp only [List.length_cons]; omega

private theorem conditional_ordered (tokens : List Token) : (conditional tokens).Ordered := by
  rw [conditional]
  exact .bind (.simple _ _) fun value rest shorter => (branches_ordered rest).map _
termination_by 2 * tokens.length
decreasing_by omega

private theorem loop_ordered (tokens : List Token) : (loop tokens).Ordered := by
  rw [loop]
  exact .bind (.simple _ _) fun value rest shorter => (block_ordered rest).map _
termination_by 2 * tokens.length
decreasing_by omega

private theorem branches_ordered (tokens : List Token) : (branches tokens).Ordered := by
  match tokens with
  | [] =>
    rw [branches]
    exact .none _
  | token :: tail =>
    rw [branches]
    split
    · exact .none _
    · split
      · exact ((block_ordered tail).map _).behind
      · exact .bind (statement_ordered (token :: tail)) fun first rest shorter => (branches_ordered rest).map _
termination_by 2 * tokens.length + 1
decreasing_by all_goals simp only [List.length_cons] at *; omega

private theorem block_ordered (tokens : List Token) : (block tokens).Ordered := by
  match tokens with
  | [] =>
    rw [block]
    exact .none _
  | token :: tail =>
    rw [block]
    split
    · exact .none _
    · exact .bind (statement_ordered (token :: tail)) fun first rest shorter => (block_ordered rest).map _
termination_by 2 * tokens.length + 1
decreasing_by all_goals simp only [List.length_cons] at *; omega
end

end Parsing

/-- The same of a pass, which may take no token. -/
structure Pass.Ordered (tokens : List Token) (pass : Pass) : Prop where
  inside : pass.rest.length ≤ tokens.length
  descends : Descends tokens.length pass.rest.length pass.entries

theorem Parsing.pass_ordered (tokens : List Token) : (pass tokens).Ordered tokens := by
  match tokens with
  | [] =>
    rw [Parsing.pass]
    exact ⟨Nat.le_refl _, .nil _ _⟩
  | token :: tail =>
    rw [Parsing.pass]
    have first := statement_ordered (token :: tail)
    generalize statement (token :: tail) = traced at first
    obtain ⟨entries, reading⟩ := traced
    cases reading with
    | stuck fault rest inside => exact ⟨inside, first⟩
    | done value rest shorter =>
      have onward := pass_ordered rest
      have upper := Nat.le_of_lt shorter
      exact ⟨Nat.le_trans onward.inside upper, Descends.append first onward.descends upper onward.inside⟩
termination_by tokens.length
decreasing_by exact shorter

namespace Pass.Ordered

variable {tokens : List Token} {pass : Pass}

theorem increasing (ordered : pass.Ordered tokens) :
    (pass.trace tokens.length).Pairwise fun first second => first.2 < second.2 := by
  unfold Pass.trace
  apply List.pairwise_map.mpr
  apply ordered.descends.order.imp_of_mem
  intro first second memberFirst memberSecond order
  have bound := ordered.descends.within first memberFirst
  dsimp only
  omega

theorem le_stop (ordered : pass.Ordered tokens) {rule : Rule} {position : Nat}
    (member : (rule, position) ∈ pass.trace tokens.length) : position ≤ pass.stop tokens.length := by
  obtain ⟨entry, found, same⟩ := List.mem_map.mp member
  cases same
  exact Nat.sub_le_sub_left (ordered.descends.above entry found) tokens.length

end Pass.Ordered

end PlcJava
