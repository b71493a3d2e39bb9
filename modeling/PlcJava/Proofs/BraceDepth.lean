import Mathlib
import PlcJava.Proofs.LayoutText

/-! Braces and line breaks in a text with strings. A piece of text is considered between what stands
before it and what follows: what stands before decides whether a string is open and how deep the
braces are, and the line behind a break must be indented as deep. -/

set_option autoImplicit false

namespace PlcJava

/-- What stands before a position: whether a string is open, and how many braces are. -/
structure Place where
  quoted : Bool
  depth : Int
deriving DecidableEq

/-- A quote opens or closes a string, inside which braces do not count. -/
def Place.step (place : Place) (c : Char) : Place :=
  if c = '"' then { place with quoted := !place.quoted }
  else if place.quoted then place
  else if c = '\x7b' then { place with depth := place.depth + 1 }
  else if c = '\x7d' then { place with depth := place.depth - 1 }
  else place

def placeAfter (before : List Char) : Place := before.foldl Place.step ⟨false, 0⟩

theorem placeAfter_push (before : List Char) (c : Char) :
    placeAfter (before ++ [c]) = (placeAfter before).step c := by
  rw [placeAfter, List.foldl_append]
  rfl

private theorem Place.quoted_step (place : Place) (c : Char) : (place.step c).quoted = (place.quoted ^^ c == '"') := by
  unfold step
  split
  next quote => simp [quote]
  next other =>
    have noQuote : (c == '"') = false := beq_eq_false_iff_ne.mpr other
    rw [noQuote, Bool.xor_false]
    split_ifs <;> rfl

/-- A position is inside a string when an odd number of quotes stands before it. -/
theorem quoted_placeAfter (before : List Char) :
    (placeAfter before).quoted = decide (before.count '"' % 2 = 1) := by
  have toggles (place : Place) : (before.foldl Place.step place).quoted =
      (place.quoted ^^ decide (before.count '"' % 2 = 1)) := by
    induction before generalizing place with
    | nil => simp
    | cons c before ih =>
      rw [List.foldl_cons, ih, Place.quoted_step, Bool.xor_assoc, List.count_cons]
      congr 1
      by_cases quote : c = '"'
      · rcases Nat.mod_two_eq_zero_or_one (before.count '"') with even | odd
        · simp [quote, even, Nat.add_mod]
        · simp [quote, odd, Nat.add_mod]
      · have noQuote : (c == '"') = false := beq_eq_false_iff_ne.mpr quote
        simp [noQuote]
  rw [placeAfter, toggles, Bool.false_xor]

/-- Four spaces for each open brace, and four less where the line begins with a closing one. -/
def Indented (depth : Int) (line : List Char) : Prop :=
  ∃ count c later, line = List.replicate (4 * count) ' ' ++ c :: later ∧ c ≠ ' ' ∧ c ≠ '\n' ∧
    (count : Int) = if c = '\x7d' then depth - 1 else depth

theorem Indented.not_newline {depth : Int} {later : List Char} : ¬ Indented depth ('\n' :: later) := by
  intro indented
  obtain ⟨count, c, others, same, _, visible, _⟩ := indented
  cases count with
  | zero => exact visible (List.cons.inj same).1.symm
  | succ count => cases (List.cons.inj same).1

/-! Positions in a text that stands between two others. -/

/-- Every position in the text is good, given what stands before it and what follows. -/
def Throughout (good : List Char → List Char → Prop) (before text rest : List Char) : Prop :=
  ∀ first c second, text = first ++ c :: second → good (before ++ first) (c :: second ++ rest)

namespace Throughout

variable {good other : List Char → List Char → Prop} {before text first second rest : List Char}

theorem single {c : Char} (here : good before (c :: rest)) : Throughout good before [c] rest := by
  intro first d second same
  cases first with
  | nil =>
    cases same
    simpa using here
  | cons _ first => simp at same

theorem append (left : Throughout good before first (second ++ rest))
    (right : Throughout good (before ++ first) second rest) : Throughout good before (first ++ second) rest := by
  intro front c back same
  rcases List.append_eq_append_iff.mp same with ⟨middle, behind, inside⟩ | ⟨middle, inside, behind⟩
  · have here := right middle c back inside
    rwa [List.append_assoc, ← behind] at here
  · cases middle with
    | nil =>
      have here := right [] c back behind.symm
      rw [List.append_nil] at here inside
      rwa [← inside]
    | cons d middle =>
      obtain ⟨rfl, rfl⟩ := List.cons.inj behind
      have here := left front c middle inside
      simpa using here

theorem imp (whole : Throughout good before text rest)
    (weaker : ∀ before rest, good before rest → other before rest) : Throughout other before text rest :=
  fun first c second same => weaker _ _ (whole first c second same)

end Throughout

/-- No brace below the floor is closed, and a line that ends here is followed by an indented one. -/
structure Steady (floor : Nat) (before rest : List Char) : Prop where
  above : floor ≤ (placeAfter before).depth
  indented : (placeAfter before).quoted = false →
    ∀ line, rest = '\n' :: line → Indented (placeAfter before).depth line

private theorem Steady.mono {low high : Nat} {before rest : List Char} (steady : Steady high before rest)
    (below : low ≤ high) : Steady low before rest := by
  refine ⟨?_, steady.indented⟩
  have above := steady.above
  omega

theorem Steady.visible {floor : Nat} {before rest : List Char} {c : Char} (above : floor ≤ (placeAfter before).depth)
    (visible : c ≠ '\n' := by decide) : Steady floor before (c :: rest) := by
  refine ⟨above, ?_⟩
  intro _ line newline
  exact absurd (List.cons.inj newline).1 visible

theorem placeAfter_still {place : Place} {before text : List Char} (here : placeAfter before = place)
    (still : ∀ c ∈ text, place.step c = place) : placeAfter (before ++ text) = place := by
  induction text generalizing before with
  | nil => rwa [List.append_nil]
  | cons c text ih =>
    have next : placeAfter (before ++ [c]) = place := by
      rw [placeAfter_push, here, still c (by simp)]
    have later := ih next fun d member => still d (by simp [member])
    rwa [List.append_assoc] at later

/-- From one place the text leads to another, and all of it is steady. -/
structure Leads (floor : Nat) (start stop : Place) (text rest : List Char) : Prop where
  arrives : ∀ before, placeAfter before = start → placeAfter (before ++ text) = stop
  steady : ∀ before, placeAfter before = start → Throughout (Steady floor) before text rest

namespace Leads

variable {floor : Nat} {place start middle stop : Place} {text first second rest : List Char}

private theorem append (left : Leads floor start middle first (second ++ rest))
    (right : Leads floor middle stop second rest) : Leads floor start stop (first ++ second) rest where
  arrives before here := by
    rw [← List.append_assoc]
    exact right.arrives _ (left.arrives before here)
  steady before here := (left.steady before here).append (right.steady _ (left.arrives before here))

private theorem mono {low : Nat} (leads : Leads floor start stop text rest) (below : low ≤ floor) :
    Leads low start stop text rest :=
  ⟨leads.arrives, fun before here => (leads.steady before here).imp fun _ _ steady => steady.mono below⟩

private theorem visible {c : Char} (above : floor ≤ place.depth) (step : place.step c = stop)
    (visible : c ≠ '\n' := by decide) : Leads floor place stop [c] rest where
  arrives before here := by rw [placeAfter_push, here, step]
  steady before here := .single (.visible (by rwa [here]) visible)

private theorem newline (above : floor ≤ place.depth) (indented : Indented place.depth rest) :
    Leads floor place place ['\n'] rest where
  arrives before here := by
    rw [placeAfter_push, here]
    simp [Place.step]
  steady before here := by
    refine .single ⟨by rwa [here], ?_⟩
    intro _ line same
    obtain ⟨_, rfl⟩ := List.cons.inj same
    rwa [here]

private theorem still (above : floor ≤ place.depth) (still : ∀ c ∈ text, place.step c = place)
    (noBreak : place.quoted = false → '\n' ∉ text) : Leads floor place place text rest := by
  refine ⟨fun before here => placeAfter_still here still, ?_⟩
  intro before here first c second same
  subst same
  have inside : placeAfter (before ++ first) = place :=
    placeAfter_still here fun d member => still d (by simp [member])
  refine ⟨by rwa [inside], ?_⟩
  intro unquoted line same
  rw [inside] at unquoted
  obtain ⟨rfl, _⟩ := List.cons.inj same
  exact absurd (by simp) (noBreak unquoted)

end Leads

/-- Written behind as many open braces as the level says, the text closes those that it opens and no
others. -/
def Sits (level : Nat) (text rest : List Char) : Prop := Leads level ⟨false, level⟩ ⟨false, level⟩ text rest

/-- A character that neither counts nor breaks a line. -/
def isPlain (c : Char) : Bool := c != '"' && c != '\x7b' && c != '\x7d' && c != '\n'

theorem Place.step_plain (place : Place) {c : Char} (plain : isPlain c = true) : place.step c = place := by
  simp only [isPlain, Bool.and_eq_true, bne_iff_ne] at plain
  simp [step, plain]

namespace Sits

variable {level : Nat} {text first second rest : List Char}

theorem append (left : Sits level first (second ++ rest)) (right : Sits level second rest) :
    Sits level (first ++ second) rest :=
  Leads.append left right

theorem plain (plain : text.all isPlain = true) : Sits level text rest := by
  apply Leads.still (Int.le_refl _)
  · intro c member
    exact Place.step_plain _ (List.all_eq_true.mp plain c member)
  · intro _ member
    exact absurd (List.all_eq_true.mp plain _ member) (by decide)

theorem quoted {contents : List Char} (noQuote : '"' ∉ contents) : Sits level ('"' :: contents ++ ['"']) rest := by
  have inside : Leads level ⟨true, level⟩ ⟨true, level⟩ contents (['"'] ++ rest) := by
    apply Leads.still (Int.le_refl _)
    · intro c member
      have other : c ≠ '"' := fun same => noQuote (same ▸ member)
      simp [Place.step, other]
    · intro unquoted
      cases unquoted
  have opened : Leads level ⟨false, level⟩ ⟨true, level⟩ ['"'] (contents ++ (['"'] ++ rest)) :=
    .visible (Int.le_refl _) rfl
  have closed : Leads level ⟨true, level⟩ ⟨false, level⟩ ['"'] rest := .visible (Int.le_refl _) rfl
  exact (opened.append inside).append closed

theorem braces (inner : Sits (level + 1) text ('\x7d' :: rest)) :
    Sits level ('\x7b' :: text ++ ['\x7d']) rest := by
  have opened : Leads level ⟨false, level⟩ ⟨false, (level + 1 : Nat)⟩ ['\x7b'] (text ++ (['\x7d'] ++ rest)) :=
    .visible (Int.le_refl _) rfl
  have closed : Leads level ⟨false, (level + 1 : Nat)⟩ ⟨false, level⟩ ['\x7d'] rest :=
    .visible (Int.ofNat_le.mpr (Nat.le_succ level)) (by simp [Place.step])
  exact (opened.append (inner.mono (Nat.le_succ level))).append closed

theorem lineBreak {count : Nat} (indented : Indented level (List.replicate (4 * count) ' ' ++ rest)) :
    Sits level (lineBreak count) rest := by
  have spaces : Sits level (List.replicate (4 * count) ' ') rest := by
    apply plain
    simp [isPlain]
  exact (Leads.newline (Int.le_refl _) indented).append spaces

theorem closing (level : Nat) (rest : List Char) : Sits (level + 1) (PlcJava.lineBreak level) ('\x7d' :: rest) := by
  apply lineBreak
  refine ⟨level, '\x7d', rest, rfl, by decide, by decide, ?_⟩
  simp

end Sits

end PlcJava
