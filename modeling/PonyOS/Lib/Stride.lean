import Mathlib.Computability.StateTransition

/-!
# Loops with a fast middle

A routine that handles single units up to a boundary, then whole blocks, then the
units that are left.  Its correctness is a matter of handing over counts: each
loop is described by what holds at its test, and one turn of each loop gives the
whole run.
-/

namespace PonyOS.Lib.Stride

open StateTransition

universe u

variable {σ : Type u}

/-- What holds at the tests of the three loops and behind them: the units that are
done, and the blocks and units that are left to the later loops. -/
structure Phases (σ : Type u) where
  top : Nat → σ → Prop
  block : Nat → Nat → Nat → σ → Prop
  bottom : Nat → Nat → σ → Prop
  done : Nat → σ → Prop

/-- One turn of each loop, for `n` units in blocks of `width`. -/
structure Turns (next : σ → Option σ) (phases : Phases σ) (width n : Nat) : Prop where
  top : ∀ {i : Nat} {state : σ}, i < n → phases.top i state →
    ∃ target, Reaches next state target ∧
      (phases.top (i + 1) target ∨
        phases.block i ((n - i) / width) ((n - i) % width) target)
  topDone : ∀ {state : σ}, phases.top n state →
    ∃ target, Reaches next state target ∧ phases.done n target
  block : ∀ {i blocks units : Nat} {state : σ}, i + width * (blocks + 1) + units = n →
    phases.block i (blocks + 1) units state →
    ∃ target, Reaches next state target ∧ phases.block (i + width) blocks units target
  blockDone : ∀ {i units : Nat} {state : σ}, i + units = n → phases.block i 0 units state →
    ∃ target, Reaches next state target ∧ phases.bottom i units target
  bottom : ∀ {i units : Nat} {state : σ}, i + (units + 1) = n →
    phases.bottom i (units + 1) state →
    ∃ target, Reaches next state target ∧ phases.bottom (i + 1) units target
  bottomDone : ∀ {state : σ}, phases.bottom n 0 state →
    ∃ target, Reaches next state target ∧ phases.done n target

namespace Turns

variable {next : σ → Option σ} {phases : Phases σ} {width n : Nat} {i : Nat} {state : σ}

/-- The last loop handles the units that are left. -/
theorem bottom_run (turns : Turns next phases width n) {units : Nat} (total : i + units = n)
    (reached : phases.bottom i units state) :
    ∃ target, Reaches next state target ∧ phases.done n target := by
  induction units generalizing i state with
  | zero =>
      rw [Nat.add_zero] at total
      subst total
      exact turns.bottomDone reached
  | succ units ih =>
      rcases turns.bottom total reached with ⟨middle, first, left⟩
      rcases ih (by omega) left with ⟨target, rest, finished⟩
      exact ⟨target, first.trans rest, finished⟩

/-- The middle loop handles the blocks. -/
theorem block_run (turns : Turns next phases width n) {blocks units : Nat}
    (total : i + width * blocks + units = n) (reached : phases.block i blocks units state) :
    ∃ target, Reaches next state target ∧ phases.done n target := by
  induction blocks generalizing i state with
  | zero =>
      rw [Nat.mul_zero, Nat.add_zero] at total
      rcases turns.blockDone total reached with ⟨middle, first, left⟩
      rcases turns.bottom_run total left with ⟨target, rest, finished⟩
      exact ⟨target, first.trans rest, finished⟩
  | succ blocks ih =>
      rcases turns.block total reached with ⟨middle, first, left⟩
      rw [Nat.mul_succ] at total
      rcases ih (by omega) left with ⟨target, rest, finished⟩
      exact ⟨target, first.trans rest, finished⟩

/-- The routine handles all units, wherever the boundary is. -/
theorem run (turns : Turns next phases width n) (within : i ≤ n)
    (reached : phases.top i state) :
    ∃ target, Reaches next state target ∧ phases.done n target := by
  generalize distance : n - i = left
  induction left generalizing i state with
  | zero =>
      obtain rfl : i = n := by omega
      exact turns.topDone reached
  | succ left ih =>
      rcases turns.top (by omega) reached with ⟨middle, first, again | aligned⟩
      · rcases ih (by omega) again (by omega) with ⟨target, rest, finished⟩
        exact ⟨target, first.trans rest, finished⟩
      · have split := Nat.div_add_mod (n - i) width
        rcases turns.block_run (by omega) aligned with ⟨target, rest, finished⟩
        exact ⟨target, first.trans rest, finished⟩

end Turns

end PonyOS.Lib.Stride
