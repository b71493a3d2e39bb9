/-! Texts that show where they end. Two texts are compared together with whatever follows them: if
they begin alike, they have been put together from the same parts, and nothing of what follows
was taken for a part. -/

set_option autoImplicit false

namespace PlcJava

/-- Whatever follows the two texts, they begin alike only under the condition, and then the same
follows both. -/
def Tells (first second : List Char) (condition : Prop) : Prop :=
  ∀ rest others, first ++ rest = second ++ others → condition ∧ rest = others

namespace Tells

variable {first second third fourth : List Char} {condition further : Prop}

theorem same (text : List Char) : Tells text text True :=
  fun _ _ alike => ⟨trivial, List.append_cancel_left alike⟩

theorem apart {c d : Char} {cs ds : List Char} (begins : first = c :: cs) (starts : second = d :: ds)
    (different : c ≠ d) : Tells first second condition := by
  intro rest others alike
  subst begins starts
  exact absurd (List.cons.inj alike).1 different

theorem imp (tells : Tells first second condition) (weaker : condition → further) : Tells first second further := by
  intro rest others alike
  obtain ⟨holds, behind⟩ := tells rest others alike
  exact ⟨weaker holds, behind⟩

private theorem symm (tells : Tells first second condition) : Tells second first condition := by
  intro rest others alike
  obtain ⟨holds, behind⟩ := tells others rest alike.symm
  exact ⟨holds, behind.symm⟩

private theorem longer (never : Tells first second False) (more : List Char) :
    Tells (first ++ more) second condition := by
  intro rest others alike
  rw [List.append_assoc] at alike
  exact (never _ _ alike).1.elim

/-- What the first parts tell is known when the second parts are compared. -/
theorem append (tells : Tells first second condition) (later : condition → Tells third fourth further) :
    Tells (first ++ third) (second ++ fourth) (condition ∧ further) := by
  intro rest others alike
  rw [List.append_assoc, List.append_assoc] at alike
  obtain ⟨holds, behind⟩ := tells _ _ alike
  obtain ⟨more, ends⟩ := later holds rest others behind
  exact ⟨⟨holds, more⟩, ends⟩

theorem enclosed (before after : List Char) (tells : Tells first second condition) :
    Tells (before ++ first ++ after) (before ++ second ++ after) condition := by
  have whole := ((same before).append fun _ => tells).append fun _ => same after
  exact whole.imp fun parts => parts.1.2

theorem stop {c : Char} (plain : c ∉ first) (free : c ∉ second) :
    Tells (first ++ [c]) (second ++ [c]) (first = second) := by
  intro rest others alike
  rw [List.append_assoc, List.append_assoc] at alike
  induction first generalizing second with
  | nil =>
    cases second with
    | nil => exact ⟨rfl, (List.cons.inj alike).2⟩
    | cons e es => exact absurd (by simp [(List.cons.inj alike).1]) free
  | cons d ds ih =>
    cases second with
    | nil => exact absurd (by simp [(List.cons.inj alike).1]) plain
    | cons e es =>
      obtain ⟨rfl, later⟩ := List.cons.inj alike
      obtain ⟨rfl, ends⟩ := ih (fun member => plain (.tail _ member)) (fun member => free (.tail _ member)) later
      exact ⟨rfl, ends⟩

theorem values {α : Type} {text : α → List Char} {values others : List α} (ends : List Char)
    (each : ∀ value ∈ values, ∀ other ∈ others, Tells (text value) (text other) (value = other))
    (ended : ∀ value, Tells (text value) ends False) :
    Tells (values.flatMap text ++ ends) (others.flatMap text ++ ends) (values = others) := by
  induction values generalizing others with
  | nil =>
    cases others with
    | nil => exact (same ends).imp fun _ => rfl
    | cons other others =>
      rw [List.flatMap_cons, List.append_assoc]
      exact ((ended other).longer _).symm
  | cons value values ih =>
    rw [List.flatMap_cons, List.append_assoc]
    cases others with
    | nil => exact (ended value).longer _
    | cons other others =>
      have heads := each value List.mem_cons_self other List.mem_cons_self
      have tails := ih fun value member other also => each value (.tail _ member) other (.tail _ also)
      rw [List.flatMap_cons, List.append_assoc]
      exact (heads.append fun _ => tails).imp fun parts => by rw [parts.1, parts.2]

end Tells

end PlcJava
