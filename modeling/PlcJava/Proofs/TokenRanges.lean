import Mathlib
import PlcJava.Proofs.Resumption

/-! The places of tokens, by counting. A lexer needs of the characters it has read only two numbers: where it
stands and how many of them wait for a token. The passes over a text are replayed on these numbers alone,
one character at a time and with no check of any bound. They come to the same places and cut the same tokens
out of the text, and at no moment does a number leave its range. -/

set_option autoImplicit false

namespace PlcJava

/-- What happens at one moment: one more character is read, or those that wait are dropped or become a token. -/
inductive Move where
  | read
  | drop
  | emit (kind : Kind)
deriving DecidableEq

/-- Where a lexer stands, and how many characters right before that place wait for a token. -/
structure Counters where
  position : Nat
  length : Nat
deriving DecidableEq

namespace Counters

def start : Counters := ⟨0, 0⟩

def step (counters : Counters) : Move → Counters
  | .read => ⟨counters.position + 1, counters.length + 1⟩
  | .drop | .emit _ => ⟨counters.position, 0⟩

def after (counters : Counters) (moves : List Move) : Counters := moves.foldl step counters

def token (source : String) (counters : Counters) (kind : Kind) : Token :=
  ⟨kind, excerpt source (counters.position - counters.length) counters.position,
    counters.position - counters.length⟩

def output (source : String) (counters : Counters) : Move → List Token
  | .read | .drop => []
  | .emit kind => [counters.token source kind]

def emitted (source : String) (counters : Counters) : List Move → List Token
  | [] => []
  | move :: moves => counters.output source move ++ (counters.step move).emitted source moves

/-- No more characters wait than were read, and no more were read than there are. -/
structure InRange (source : String) (counters : Counters) : Prop where
  waiting : counters.length ≤ counters.position
  inside : counters.position ≤ source.length

variable {source : String} {counters : Counters}

private theorem after_cons (counters : Counters) (move : Move) (moves : List Move) :
    counters.after (move :: moves) = (counters.step move).after moves := rfl

private theorem after_append (counters : Counters) (first second : List Move) :
    counters.after (first ++ second) = (counters.after first).after second :=
  List.foldl_append

private theorem emitted_append (counters : Counters) (first second : List Move) :
    counters.emitted source (first ++ second) =
      counters.emitted source first ++ (counters.after first).emitted source second := by
  induction first generalizing counters with
  | nil => rfl
  | cons move moves ih => simp only [List.cons_append, emitted, ih, after_cons, List.append_assoc]

private theorem after_reads (counters : Counters) (count : Nat) :
    counters.after (List.replicate count .read) = ⟨counters.position + count, counters.length + count⟩ := by
  induction count generalizing counters with
  | zero => rfl
  | succ count ih =>
    simp only [List.replicate_succ, after_cons, ih, step, Counters.mk.injEq]
    omega

private theorem emitted_reads (counters : Counters) (count : Nat) :
    counters.emitted source (List.replicate count .read) = [] := by
  induction count generalizing counters with
  | zero => rfl
  | succ count ih => exact ih (counters.step .read)

private theorem after_piece (counters : Counters) (count : Nat) (kind : Kind) (moves : List Move) :
    counters.after (List.replicate count .read ++ .emit kind :: moves) =
      (Counters.mk (counters.position + count) 0).after moves := by
  rw [after_append, after_reads]
  rfl

private theorem emitted_piece (counters : Counters) (count : Nat) (kind : Kind) (moves : List Move) :
    counters.emitted source (List.replicate count .read ++ .emit kind :: moves) =
      (Counters.mk (counters.position + count) (counters.length + count)).token source kind ::
        (Counters.mk (counters.position + count) 0).emitted source moves := by
  rw [emitted_append, emitted_reads, after_reads]
  rfl

/-! What one move keeps, and what many keep. -/

private theorem waiting_step (waiting : counters.length ≤ counters.position) (move : Move) :
    (counters.step move).length ≤ (counters.step move).position := by
  cases move with
  | read => exact Nat.succ_le_succ waiting
  | drop | emit => exact Nat.zero_le _

private theorem waiting_after (waiting : counters.length ≤ counters.position) (moves : List Move) :
    (counters.after moves).length ≤ (counters.after moves).position := by
  induction moves generalizing counters with
  | nil => exact waiting
  | cons move moves ih => exact ih (waiting_step waiting move)

private theorem position_le_after (counters : Counters) (moves : List Move) :
    counters.position ≤ (counters.after moves).position := by
  induction moves generalizing counters with
  | nil => exact Nat.le_refl _
  | cons move moves ih =>
    refine Nat.le_trans ?_ (ih (counters.step move))
    cases move with
    | read => exact Nat.le_succ _
    | drop | emit => exact Nat.le_refl _

/-- Positions only grow, so the last one bounds them all. -/
theorem inRange_of_end {done left : List Move} (waiting : counters.length ≤ counters.position)
    (inside : (counters.after (done ++ left)).position ≤ source.length) : InRange source (counters.after done) := by
  refine ⟨waiting_after waiting done, Nat.le_trans ?_ inside⟩
  rw [after_append]
  exact position_le_after _ left

/-! The tokens. -/

private theorem stop_token (range : InRange source counters) (kind : Kind) :
    (counters.token source kind).stop = counters.position := by
  have waiting := range.waiting
  have inside := range.inside
  rw [← String.length_toList] at inside
  simp only [Token.stop, token, excerpt, String.length_ofList, List.length_drop, List.length_take]
  omega

/-- A token that comes later begins behind what was dropped or taken before. -/
theorem start_le_of_emitted {moves : List Move} (waiting : counters.length ≤ counters.position) {token : Token}
    (member : token ∈ counters.emitted source moves) : counters.position - counters.length ≤ token.start := by
  induction moves generalizing counters with
  | nil => cases member
  | cons move moves ih =>
    rcases List.mem_append.mp member with now | later
    · cases move with
      | read | drop => cases now
      | emit kind =>
        rw [List.mem_singleton.mp now]
        exact Nat.le_refl _
    · refine Nat.le_trans ?_ (ih (waiting_step waiting move) later)
      cases move with
      | read => simp only [step]; omega
      | drop | emit => exact Nat.sub_le _ _

private theorem emitted_cut {moves : List Move} (waiting : counters.length ≤ counters.position)
    (inside : (counters.after moves).position ≤ source.length) {token : Token}
    (member : token ∈ counters.emitted source moves) :
    token.stop ≤ source.length ∧ token.literal = excerpt source token.start token.stop := by
  induction moves generalizing counters with
  | nil => cases member
  | cons move moves ih =>
    rcases List.mem_append.mp member with now | later
    · cases move with
      | read | drop => cases now
      | emit kind =>
        have range : InRange source counters := ⟨waiting, Nat.le_trans (position_le_after counters _) inside⟩
        rw [List.mem_singleton.mp now, stop_token range]
        exact ⟨range.inside, rfl⟩
    · exact ih (waiting_step waiting move) inside later

private theorem emitted_ordered {moves : List Move} (waiting : counters.length ≤ counters.position)
    (inside : (counters.after moves).position ≤ source.length) :
    (counters.emitted source moves).Pairwise fun first second => first.stop ≤ second.start := by
  induction moves generalizing counters with
  | nil => exact .nil
  | cons move moves ih =>
    refine List.pairwise_append.mpr ⟨?_, ih (waiting_step waiting move) inside, ?_⟩
    · cases move with
      | read | drop => exact .nil
      | emit => exact List.pairwise_singleton _ _
    · intro first now second later
      cases move with
      | read | drop => cases now
      | emit kind =>
        have range : InRange source counters := ⟨waiting, Nat.le_trans (position_le_after counters _) inside⟩
        rw [List.mem_singleton.mp now, stop_token range]
        exact start_le_of_emitted (waiting_step waiting (.emit kind)) later

end Counters

/-- What a pass over the rest of a text does. A piece is read to its end before it becomes a token, and a
piece that is no token stays waiting. -/
def moves : List Char → List Move
  | [] => []
  | c :: cs =>
    if isBlank c then .read :: .drop :: moves cs
    else
      List.replicate (Lexeme.scan c cs).text.length .read ++
        match (Lexeme.scan c cs).sort with
        | .ok kind => .emit kind :: moves (Lexeme.scan c cs).rest
        | .error _ => []
termination_by cs => cs.length
decreasing_by
  · exact Nat.lt_succ_self _
  · exact Lexeme.scan_rest_shorter c cs

private theorem moves_nil : moves [] = [] := by rw [moves]

private theorem moves_blank {c : Char} (blank : isBlank c = true) (cs : List Char) :
    moves (c :: cs) = .read :: .drop :: moves cs := by
  rw [moves, if_pos blank]

private theorem moves_token {kind : Kind} {text rest : List Char} (munch : Munch kind text rest) :
    moves (text ++ rest) = List.replicate text.length .read ++ .emit kind :: moves rest := by
  obtain ⟨c, cs, rfl⟩ := List.exists_cons_of_ne_nil munch.ne_nil
  rw [List.cons_append, moves, munch.visible, if_neg (by simp)]
  simp only [munch.scan]

private theorem moves_fault {c : Char} {cs : List Char} {fault : LexFault} (visible : isBlank c = false)
    (sorted : (Lexeme.scan c cs).sort = .error fault) :
    moves (c :: cs) = List.replicate (Lexeme.scan c cs).text.length .read := by
  rw [moves, visible, if_neg (by simp), sorted, List.append_nil]

namespace Cursor

def counters (cursor : Cursor) : Counters := ⟨cursor.offset, cursor.pending.length⟩

private theorem counters_ofString (source : String) : (ofString source).counters = Counters.start := rfl

/-- The characters before the place, those that wait and those that follow are the text. -/
def StandsIn (source : String) (cursor : Cursor) : Prop :=
  ∃ before, source.toList = before ++ cursor.pending ++ cursor.rest ∧
    cursor.offset = (before ++ cursor.pending).length

private theorem StandsIn.token_eq {source : String} {offset : Nat} {pending text rest : List Char}
    (stands : StandsIn source ⟨offset, pending, text ++ rest⟩) (kind : Kind) :
    (Counters.mk (offset + text.length) (pending.length + text.length)).token source kind =
      (Cursor.mk offset pending (text ++ rest)).token kind text := by
  obtain ⟨before, whole, place⟩ := stands
  simp only at whole place
  have start : offset + text.length - (pending.length + text.length) = before.length := by
    rw [place, List.length_append]
    omega
  have literal : excerpt source before.length (offset + text.length) = String.ofList (pending ++ text) := by
    refine excerpt_eq before (pending ++ text) rest ?_ rfl ?_
    · simp [whole]
    · simp [place, Nat.add_assoc]
  have first : offset - pending.length = before.length := by
    rw [place, List.length_append]
    omega
  simp only [Counters.token, Cursor.token, start, literal, first]

private theorem StandsIn.behind {source : String} {offset : Nat} {pending text rest : List Char}
    (stands : StandsIn source ⟨offset, pending, text ++ rest⟩) :
    StandsIn source ⟨offset + text.length, [], rest⟩ := by
  obtain ⟨before, whole, place⟩ := stands
  simp only at whole place
  exact ⟨before ++ pending ++ text, by simp [whole], by simp [place, Nat.add_assoc]⟩

/-- A pass moves the counters as it moves the cursor, and cuts the same tokens. -/
theorem sweep_moves {source : String} (offset : Nat) (pending rest : List Char)
    (stands : StandsIn source ⟨offset, pending, rest⟩) :
    (counters ⟨offset, pending, rest⟩).after (moves rest) = (sweep ⟨offset, pending, rest⟩).cursor.counters ∧
      (counters ⟨offset, pending, rest⟩).emitted source (moves rest) = (sweep ⟨offset, pending, rest⟩).tokens := by
  induction rest using piecewise generalizing offset pending with
  | nil =>
    rw [moves_nil, sweep_nil]
    exact ⟨rfl, rfl⟩
  | blank c cs blank ih =>
    rw [moves_blank blank, sweep_blank blank]
    have stands : StandsIn source ⟨offset, pending, [c] ++ cs⟩ := stands
    exact ih (offset + 1) [] stands.behind
  | token kind text rest munch ih =>
    obtain ⟨ends, tokens⟩ := ih (offset + text.length) [] stands.behind
    rw [moves_token munch, sweep_token munch, Counters.after_piece, Counters.emitted_piece]
    exact ⟨ends, congrArg₂ List.cons (stands.token_eq kind) tokens⟩
  | fault c cs fault visible sorted =>
    rw [moves_fault visible sorted, sweep_fault visible sorted, Counters.after_reads, Counters.emitted_reads]
    exact ⟨congrArg (Counters.mk _) List.length_append.symm, rfl⟩

private theorem literal_ne_empty (offset : Nat) (pending rest : List Char) :
    ∀ token ∈ (sweep ⟨offset, pending, rest⟩).tokens, token.literal ≠ "" := by
  induction rest using piecewise generalizing offset pending with
  | nil => simp [sweep_nil]
  | blank c cs blank ih =>
    rw [sweep_blank blank]
    exact ih (offset + 1) []
  | token kind text rest munch ih =>
    rw [sweep_token munch]
    refine List.forall_mem_cons.mpr ⟨?_, ih (offset + text.length) []⟩
    intro empty
    have none := congrArg String.toList empty
    simp [Cursor.token, munch.ne_nil] at none
  | fault c cs fault visible sorted => simp [sweep_fault visible sorted]

/-! Passes one after the other. -/

def movesOver (cursor : Cursor) (passes : Nat) : List Move :=
  (List.range passes).flatMap fun pass => moves (cursor.after pass).rest

/-- The tokens that were completed in so many passes, also in those that failed. -/
def tokensOver (cursor : Cursor) (passes : Nat) : List Token :=
  (List.range passes).flatMap fun pass => (cursor.after pass).sweep.tokens

private theorem after_movesOver {source : String} {cursor : Cursor} (reached : Reached source.toList cursor)
    (passes : Nat) : cursor.counters.after (cursor.movesOver passes) = (cursor.after passes).counters ∧
      cursor.counters.emitted source (cursor.movesOver passes) = cursor.tokensOver passes := by
  induction passes with
  | zero => exact ⟨rfl, rfl⟩
  | succ passes ih =>
    obtain ⟨ends, tokens⟩ := sweep_moves _ _ _ (reached.after passes).split
    simp only [movesOver, tokensOver, List.range_succ, List.flatMap_append, List.flatMap_singleton, after_succ,
      Counters.after_append, Counters.emitted_append] at ih ⊢
    rw [ih.1, ih.2]
    exact ⟨ends, congrArg _ tokens⟩

/-- Passes over a text, replayed by counting. They end where the passes end and cut out the same tokens. Before
and after every move the numbers are in range, so no token begins before the text or ends behind it. The
tokens of all passes are pieces of the text that follow each other. -/
theorem session_in_range (source : String) (passes : Nat) :
    Counters.start.after ((ofString source).movesOver passes) = ((ofString source).after passes).counters ∧
    Counters.start.emitted source ((ofString source).movesOver passes) = (ofString source).tokensOver passes ∧
    (∀ done, done <+: (ofString source).movesOver passes →
      (Counters.start.after done).length ≤ (Counters.start.after done).position ∧
        (Counters.start.after done).position ≤ source.length) ∧
    (∀ token ∈ (ofString source).tokensOver passes, token.literal ≠ "" ∧ token.stop ≤ source.length ∧
      token.literal = excerpt source token.start token.stop) ∧
    ((ofString source).tokensOver passes).Pairwise fun first second =>
      first.start < second.start ∧ first.stop ≤ second.start := by
  have reached := Reached.start source
  obtain ⟨ends, tokens⟩ := after_movesOver reached passes
  rw [counters_ofString] at ends tokens
  have inside : (Counters.start.after ((ofString source).movesOver passes)).position ≤ source.length := by
    rw [ends]
    exact (reached.after passes).inside
  have waiting : Counters.start.length ≤ Counters.start.position := Nat.le_refl 0
  have nonempty : ∀ token ∈ (ofString source).tokensOver passes, token.literal ≠ "" := by
    intro token member
    obtain ⟨pass, _, here⟩ := List.mem_flatMap.mp member
    exact literal_ne_empty _ _ _ token here
  refine ⟨ends, tokens, ?_, ?_, ?_⟩
  · rintro done ⟨left, split⟩
    rw [← split] at inside
    obtain ⟨waits, stays⟩ := Counters.inRange_of_end waiting inside
    exact ⟨waits, stays⟩
  · intro token member
    refine ⟨nonempty token member, ?_⟩
    rw [← tokens] at member
    exact Counters.emitted_cut waiting inside member
  · have ordered := Counters.emitted_ordered waiting inside
    rw [tokens] at ordered
    refine ordered.imp_of_mem fun {first second} member _ apart => ⟨Nat.lt_of_lt_of_le ?_ apart, apart⟩
    have some : 0 < first.literal.length := by
      apply Nat.pos_of_ne_zero
      intro none
      exact nonempty first member (String.length_eq_zero_iff.mp none)
    exact Nat.lt_add_of_pos_right some

theorem session_in_range_pending :
    (ofString "12.;a").movesOver 2 = [.read, .read, .read, .read, .emit .operator, .read, .emit .identifier] ∧
    (ofString "12.;a").tokensOver 2 = [⟨.operator, "12.;", 0⟩, ⟨.identifier, "a", 4⟩] ∧
    (Counters.start.after [.read, .read, .read, .read]).position ≤ 5 ∧
    excerpt "12.;a" 0 4 = "12.;" := by
  have played : (ofString "12.;a").movesOver 2 =
      [.read, .read, .read, .read, .emit .operator, .read, .emit .identifier] := by cbv
  have lexed : (ofString "12.;a").tokensOver 2 = [⟨.operator, "12.;", 0⟩, ⟨.identifier, "a", 4⟩] := by cbv
  obtain ⟨_, _, range, cut, _⟩ := session_in_range "12.;a" 2
  rw [lexed] at cut
  rw [played] at range
  exact ⟨played, lexed, (range [.read, .read, .read, .read] (by decide)).2,
    (cut ⟨.operator, "12.;", 0⟩ (by simp)).2.2.symm⟩

end Cursor

end PlcJava
