import Mathlib

/-! Passes one after the other, each begun in the state that the one before has left. -/

set_option autoImplicit false

namespace PlcJava.Passes

variable {σ α : Type} {step : σ → σ}

theorem session_eq_map (step : σ → σ) (answer : σ → α) {session : σ → Nat → List α}
    (none : ∀ state, session state 0 = [])
    (more : ∀ state calls, session state (calls + 1) = answer state :: session (step state) calls) (state : σ)
    (calls : Nat) : session state calls = (List.range calls).map fun pass => answer (step^[pass] state) := by
  induction calls generalizing state with
  | zero => exact none state
  | succ calls ih =>
    rw [more, ih, List.range_succ_eq_map, List.map_cons, List.map_map]
    rfl

theorem iterate_keeps {property : σ → Prop} (keeps : ∀ state, property state → property (step state)) {state : σ}
    (start : property state) (pass : Nat) : property (step^[pass] state) := by
  induction pass with
  | zero => exact start
  | succ pass ih =>
    rw [Function.iterate_succ_apply']
    exact keeps _ ih

/-- A pass that changes nothing is the last that matters. -/
theorem iterate_of_stays {state : σ} {pass later : Nat} (stays : step (step^[pass] state) = step^[pass] state)
    (order : pass ≤ later) : step^[later] state = step^[pass] state := by
  induction order with
  | refl => rfl
  | step _ ih => rw [Function.iterate_succ_apply', ih, stays]

end PlcJava.Passes
