import PlcJava.Proofs.Sweep

/-! The tokens of a text are those of its only reading by longest tokens. The reading is described by
the places of the tokens alone: nothing in it follows the order in which a text is scanned. -/

set_option autoImplicit false

namespace PlcJava

def Token.stop (token : Token) : Nat := token.start + token.literal.length

/-- The tokens read a text, from the given place on: they stand in order and apart, only
blanks are left over, and each has the shape of its kind and could not be longer. -/
structure MaximalMunch (source : List Char) (origin : Nat) (tokens : List Token) : Prop where
  ordered : tokens.Pairwise fun first second => first.stop ≤ second.start
  inside : ∀ token ∈ tokens, origin ≤ token.start
  slice : ∀ token ∈ tokens, token.literal ≠ "" ∧
    token.literal.toList = (source.drop token.start).take token.literal.length
  gaps : ∀ index c, origin ≤ index → source[index]? = some c →
    (∀ token ∈ tokens, ¬ (token.start ≤ index ∧ index < token.stop)) → isBlank c = true
  shape : ∀ token ∈ tokens, token.kind.Shape token.literal.toList
  longest : ∀ token ∈ tokens, ∀ next, source[token.stop]? = some next →
    ¬ token.kind.Extends token.literal.toList next

namespace MaximalMunch

variable {source : List Char} {origin : Nat} {tokens : List Token}

theorem split (reads : MaximalMunch source origin tokens) {token : Token} (member : token ∈ tokens) :
    source.drop token.start = token.literal.toList ++ source.drop token.stop := by
  have cut := (List.take_append_drop token.literal.length (source.drop token.start)).symm
  rw [← (reads.slice token member).2, List.drop_drop] at cut
  exact cut

theorem munch (reads : MaximalMunch source origin tokens) {token : Token} (member : token ∈ tokens) :
    Munch token.kind token.literal.toList (source.drop token.stop) := by
  refine ⟨reads.shape token member, ?_⟩
  intro next found
  rw [List.head?_drop] at found
  exact reads.longest token member next found

theorem start_lt_stop (reads : MaximalMunch source origin tokens) {token : Token} (member : token ∈ tokens) :
    token.start < token.stop := by
  have nonempty := (reads.munch member).ne_nil
  have size : 0 < token.literal.length := by
    rw [← String.length_toList]
    exact List.length_pos_iff.mpr nonempty
  unfold Token.stop
  omega

private theorem visible (reads : MaximalMunch source origin tokens) {token : Token} (member : token ∈ tokens) :
    ∃ c, source[token.start]? = some c ∧ isBlank c = false := by
  have munch := reads.munch member
  obtain ⟨c, cs, text⟩ := List.exists_cons_of_ne_nil munch.ne_nil
  have here := reads.split member
  rw [text] at munch here
  refine ⟨c, ?_, munch.visible⟩
  rw [← List.head?_drop, here]
  rfl

private theorem past_end (outside : source.length ≤ origin) : MaximalMunch source origin tokens ↔ tokens = [] := by
  constructor
  · intro reads
    cases tokens with
    | nil => rfl
    | cons token later =>
      obtain ⟨c, here, _⟩ := reads.visible (List.mem_cons_self)
      have bound := reads.inside token List.mem_cons_self
      rw [List.getElem?_eq_none (by omega)] at here
      cases here
  · intro none
    subst none
    refine ⟨.nil, by simp, by simp, ?_, by simp, by simp⟩
    intro index c after here
    rw [List.getElem?_eq_none (by omega)] at here
    cases here

private theorem skip {c : Char} (here : source[origin]? = some c) (blank : isBlank c = true) :
    MaximalMunch source origin tokens ↔ MaximalMunch source (origin + 1) tokens := by
  constructor
  · intro reads
    refine ⟨reads.ordered, ?_, reads.slice, ?_, reads.shape, reads.longest⟩
    · intro token member
      obtain ⟨d, found, visible⟩ := reads.visible member
      have bound := reads.inside token member
      have different : token.start ≠ origin := by
        intro same
        rw [same, here] at found
        cases found
        rw [blank] at visible
        cases visible
      omega
    · intro index d after
      exact reads.gaps index d (by omega)
  · intro reads
    refine ⟨reads.ordered, ?_, reads.slice, ?_, reads.shape, reads.longest⟩
    · intro token member
      have bound := reads.inside token member
      omega
    · intro index d after found apart
      by_cases same : index = origin
      · rw [same, here] at found
        cases found
        exact blank
      · exact reads.gaps index d (by omega) found apart

private theorem later {token : Token} {others : List Token} (reads : MaximalMunch source origin (token :: others)) :
    MaximalMunch source token.stop others := by
  have bound := reads.inside token List.mem_cons_self
  have size := reads.start_lt_stop List.mem_cons_self
  obtain ⟨apart, ordered⟩ := List.pairwise_cons.mp reads.ordered
  refine ⟨ordered, apart, fun other member => reads.slice other (.tail _ member), ?_,
    fun other member => reads.shape other (.tail _ member),
    fun other member => reads.longest other (.tail _ member)⟩
  intro index c after here outside
  apply reads.gaps index c (by omega) here
  intro other member
  rcases List.mem_cons.mp member with rfl | member
  · omega
  · exact outside other member

private theorem cons {kind : Kind} {text rest : List Char} (here : source.drop origin = text ++ rest)
    (munch : Munch kind text rest) (reads : MaximalMunch source (origin + text.length) tokens) :
    MaximalMunch source origin (⟨kind, String.ofList text, origin⟩ :: tokens) := by
  have stop : Token.stop ⟨kind, String.ofList text, origin⟩ = origin + text.length := by simp [Token.stop]
  have behind : source.drop (origin + text.length) = rest := by
    rw [← List.drop_drop, here, List.drop_left]
  refine ⟨?_, ?_, ?_, ?_, ?_, ?_⟩
  · refine List.pairwise_cons.mpr ⟨?_, reads.ordered⟩
    intro token member
    rw [stop]
    exact reads.inside token member
  · intro token member
    rcases List.mem_cons.mp member with rfl | member
    · exact Nat.le_refl _
    · have bound := reads.inside token member
      omega
  · intro token member
    rcases List.mem_cons.mp member with rfl | member
    · refine ⟨?_, by simp [here]⟩
      intro empty
      exact munch.ne_nil (by simpa using congrArg String.toList empty)
    · exact reads.slice token member
  · intro index c after found outside
    have first := outside _ List.mem_cons_self
    rw [stop] at first
    exact reads.gaps index c (by simp only at first; omega) found fun token member => outside token (.tail _ member)
  · intro token member
    rcases List.mem_cons.mp member with rfl | member
    · simpa using munch.shape
    · exact reads.shape token member
  · intro token member next found
    rcases List.mem_cons.mp member with rfl | member
    · rw [stop, ← List.head?_drop, behind] at found
      simpa using munch.longest next found
    · exact reads.longest token member next found

private theorem first {c : Char} (here : source[origin]? = some c) (visible : isBlank c = false)
    (reads : MaximalMunch source origin tokens) : ∃ token others, tokens = token :: others ∧ token.start = origin := by
  have covered : ∃ token ∈ tokens, token.start ≤ origin ∧ origin < token.stop := by
    apply Classical.byContradiction
    intro none
    have blank := reads.gaps origin c (Nat.le_refl _) here fun token member covers => none ⟨token, member, covers⟩
    rw [visible] at blank
    cases blank
  obtain ⟨token, member, begins, _⟩ := covered
  have bound := reads.inside token member
  cases tokens with
  | nil => cases member
  | cons head others =>
    refine ⟨head, others, rfl, ?_⟩
    rcases List.mem_cons.mp member with rfl | member
    · omega
    · have apart := (List.pairwise_cons.mp reads.ordered).1 token member
      have size := reads.start_lt_stop (List.mem_cons_self (a := head) (l := others))
      have inside := reads.inside head List.mem_cons_self
      omega

end MaximalMunch

theorem Cursor.sweep_iff (source : List Char) (origin : Nat) (tokens : List Token) :
    (sweep ⟨origin, [], source.drop origin⟩).answer = .ok tokens ↔ MaximalMunch source origin tokens := by
  generalize left : source.length - origin = remaining
  induction remaining using Nat.strongRecOn generalizing origin tokens with
  | ind remaining ih =>
    cases here : source.drop origin with
    | nil =>
      have outside : source.length ≤ origin := List.drop_eq_nil_iff.mp here
      rw [sweep_nil, MaximalMunch.past_end outside]
      simp [Sweep.answer, eq_comm]
    | cons c cs =>
      have found : source[origin]? = some c := by rw [← List.head?_drop, here]; rfl
      have bound : origin < source.length := (List.getElem?_eq_some_iff.mp found).1
      cases blank : isBlank c with
      | true =>
        have behind : source.drop (origin + 1) = cs := by rw [← List.drop_drop, here]; rfl
        rw [sweep_blank blank, MaximalMunch.skip found blank, ← behind]
        exact ih _ (by omega) (origin + 1) tokens rfl
      | false =>
        have step (kind : Kind) (text rest : List Char) (cut : c :: cs = text ++ rest)
            (munch : Munch kind text rest) (later : List Token) :
            (sweep ⟨origin + text.length, [], rest⟩).answer = .ok later ↔
              MaximalMunch source (origin + text.length) later := by
          have behind : source.drop (origin + text.length) = rest := by
            rw [← List.drop_drop, here, cut, List.drop_left]
          have size := List.length_pos_iff.mpr munch.ne_nil
          rw [← behind]
          exact ih _ (by omega) _ later rfl
        constructor
        · intro read
          obtain ⟨kind, text, rest, cut, munch⟩ := sweep_visible blank read
          rw [cut, sweep_token munch] at read
          obtain ⟨later, readLater, rfl⟩ := Sweep.answer_behind_eq_ok.mp read
          exact .cons (here.trans cut) munch ((step kind text rest cut munch later).mp readLater)
        · intro reads
          obtain ⟨token, others, rfl, begins⟩ := reads.first found blank
          have munch := reads.munch List.mem_cons_self
          have cut := reads.split List.mem_cons_self
          rw [begins, here] at cut
          have stop : token.stop = origin + token.literal.toList.length := by
            rw [Token.stop, begins, String.length_toList]
          rw [cut, sweep_token munch]
          apply Sweep.answer_behind_eq_ok.mpr
          refine ⟨others, (step _ _ _ cut munch others).mpr (stop ▸ reads.later), ?_⟩
          simp [Cursor.token, ← begins]

/-- A text has at most one reading by longest tokens. That reading is what the text is lexed
to, and lexing fails on the texts that have none. -/
theorem lex_iff_maximalMunch (source : String) :
    (∀ tokens, lex source = .ok tokens ↔ MaximalMunch source.toList 0 tokens) ∧
    Subsingleton {tokens // MaximalMunch source.toList 0 tokens} ∧
    ((∃ error, lex source = .error error) ↔ ¬ ∃ tokens, MaximalMunch source.toList 0 tokens) := by
  have exact (tokens : List Token) : lex source = .ok tokens ↔ MaximalMunch source.toList 0 tokens :=
    Cursor.sweep_iff source.toList 0 tokens
  refine ⟨exact, ⟨?_⟩, ?_⟩
  · intro ⟨first, readsFirst⟩ ⟨second, readsSecond⟩
    have same := ((exact first).mpr readsFirst).symm.trans ((exact second).mpr readsSecond)
    cases same
    rfl
  · cases answer : lex source with
    | error error =>
      refine iff_of_true ⟨error, rfl⟩ ?_
      intro ⟨tokens, reads⟩
      have read := (exact tokens).mpr reads
      rw [answer] at read
      cases read
    | ok tokens =>
      refine iff_of_false (fun ⟨_, failed⟩ => by cases failed) ?_
      exact fun none => none ⟨tokens, (exact tokens).mp answer⟩

end PlcJava
