import Mathlib.Computability.StateTransition

/-!
# Steps of code

An option-valued step, taken a given number of times or as long as something is
left to be done.
-/

namespace PonyOS.Lib.Steps

open StateTransition

universe u

variable {σ : Type u}

/-- `n` steps. -/
def steps (next : σ → Option σ) : Nat → σ → Option σ
  | 0, state => some state
  | n + 1, state => (next state).bind (steps next n)

variable {next : σ → Option σ} {state target : σ}

/-- What some steps lead to is reached. -/
theorem reaches_of_steps {n : Nat} (run : steps next n state = some target) :
    Reaches next state target := by
  induction n generalizing state with
  | zero =>
      rcases Option.some.inj run with rfl
      exact .refl
  | succ n ih =>
      rcases Option.bind_eq_some_iff.mp run with ⟨middle, first, rest⟩
      exact .head first (ih rest)

/-- Progress rule: what always gets on while something is left gets to its end. -/
theorem reaches_of_progress {progress : Nat → σ → Prop}
    (turn : ∀ left state, progress (left + 1) state →
      ∃ target, Reaches next state target ∧ progress left target)
    {left : Nat} (made : progress left state) :
    ∃ target, Reaches next state target ∧ progress 0 target := by
  induction left generalizing state with
  | zero => exact ⟨state, .refl, made⟩
  | succ left ih =>
      rcases turn left state made with ⟨middle, first, further⟩
      rcases ih further with ⟨target, rest, finished⟩
      exact ⟨target, first.trans rest, finished⟩

end PonyOS.Lib.Steps
