import Mathlib.Algebra.BigOperators.Group.Finset.Basic
import Mathlib.Algebra.Order.BigOperators.Group.Finset
import PonyOS.Lib.RoundRobin
import PonyOS.Lib.Transition

/-!
# Waiting on a cycle of slots

A slot waits while others are visited.  The others that are ready and not the one
being visited form its backlog; each counts with its distance from the waiting
slot.  A turn of the round robin that passes the waiting slot by replaces a slot
of the backlog by one that is nearer, so it lowers the sum.  Whatever happens
between the turns may do anything that does not raise it.

The last section is the argument for runs: where every step keeps a rank from
rising and the counted steps lower it, the goal is met before more steps are
counted than the rank has to give.
-/

namespace PonyOS.Lib.Ranking

open PonyOS.Lib.RoundRobin
open PonyOS.Lib.Transition

universe u v w

/-! ## Distances -/

/-- How far a slot lies beyond another on a cycle of `size` slots. -/
def distance (size waiting slot : Nat) : Nat :=
  (slot + size - waiting) % size

theorem distance_lt {size : Nat} (sizePos : 0 < size) (waiting slot : Nat) :
    distance size waiting slot < size :=
  Nat.mod_lt _ sizePos

variable {size waiting : Nat}

/-- The waiting slot comes up within one round after any position. -/
theorem exists_gap (waitingLt : waiting < size) (position : Nat) :
    ∃ gap, 0 < gap ∧ gap ≤ size ∧ (position + gap) % size = waiting := by
  have slotLt : position % size < size := Nat.mod_lt _ (Nat.zero_lt_of_lt waitingLt)
  rcases Nat.lt_or_ge (position % size) waiting with below | above
  · refine ⟨waiting - position % size, Nat.sub_pos_of_lt below, by omega, ?_⟩
    rw [Nat.add_mod, Nat.mod_eq_of_lt (show waiting - position % size < size by omega),
      Nat.add_sub_cancel' (Nat.le_of_lt below), Nat.mod_eq_of_lt waitingLt]
  · refine ⟨waiting + size - position % size, by omega, by omega, ?_⟩
    rw [← Nat.mod_add_mod, show position % size + (waiting + size - position % size) =
      waiting + size by omega, Nat.add_mod_right, Nat.mod_eq_of_lt waitingLt]

/-- The distance of a slot is what is left of a round once the waiting slot is
reached from it. -/
theorem distance_eq_sub {position gap : Nat} (waitingLt : waiting < size) (positive : 0 < gap)
    (bound : gap < size) (reaches : (position + gap) % size = waiting) :
    distance size waiting (position % size) = size - gap := by
  have slotLt : position % size < size := Nat.mod_lt _ (Nat.zero_lt_of_lt waitingLt)
  rw [← Nat.mod_add_mod] at reaches
  unfold distance
  rcases Nat.lt_or_ge (position % size + gap) size with inside | beyond
  · rw [Nat.mod_eq_of_lt inside] at reaches
    rw [show position % size + size - waiting = size - gap by omega]
    exact Nat.mod_eq_of_lt (by omega)
  · rw [Nat.mod_eq_sub_mod beyond, Nat.mod_eq_of_lt (by omega)] at reaches
    rw [show position % size + size - waiting = size - gap + size by omega,
      Nat.add_mod_right]
    exact Nat.mod_eq_of_lt (by omega)

/-- A turn that passes the waiting slot by leaves a slot that is nearer to it
than the one it enters. -/
theorem distance_lt_of_firstAfter {ready : Nat → Prop} {position later : Nat}
    (first : FirstAfter size ready position later) (isReady : ready waiting)
    (waitingLt : waiting < size) (notHere : position % size ≠ waiting)
    (passed : later % size ≠ waiting) :
    distance size waiting (position % size) < distance size waiting (later % size) := by
  rcases exists_gap waitingLt position with ⟨gap, positive, bound, reaches⟩
  have inside : gap < size := by
    apply Nat.lt_of_le_of_ne bound
    rintro rfl
    rw [Nat.add_mod_right] at reaches
    exact notHere reaches
  -- The turn ends before the waiting slot comes up, for it skips no ready slot.
  have ahead : later < position + gap := by
    by_contra beyond
    rcases Nat.lt_or_eq_of_le (Nat.le_of_not_lt beyond) with earlier | same
    · apply first.skipped (position + gap) (by omega) earlier
      rw [reaches]
      exact isReady
    · rw [← same] at passed
      exact passed reaches
  have after := first.after
  have fromLater : (later + (position + gap - later)) % size = waiting := by
    rw [Nat.add_sub_cancel' (Nat.le_of_lt ahead)]
    exact reaches
  rw [distance_eq_sub waitingLt positive inside reaches,
    distance_eq_sub waitingLt (by omega) (by omega) fromLater]
  omega

/-! ## The backlog -/

/-- What stands between a waiting slot and its turn. -/
def backlog (size waiting : Nat) (others : Finset Nat) : Nat :=
  ∑ slot ∈ others, distance size waiting slot

theorem backlog_mono (size waiting : Nat) {fewer more : Finset Nat} (subset : fewer ⊆ more) :
    backlog size waiting fewer ≤ backlog size waiting more :=
  Finset.sum_le_sum_of_subset subset

theorem backlog_insert_le (size waiting slot : Nat) (others : Finset Nat) :
    backlog size waiting (insert slot others) ≤
      distance size waiting slot + backlog size waiting others := by
  unfold backlog
  by_cases member : slot ∈ others
  · rw [Finset.insert_eq_of_mem member]
    exact Nat.le_add_left _ _
  · rw [Finset.sum_insert member]

/-- Each slot of the backlog stands for less than a round. -/
theorem backlog_le (sizePos : 0 < size) (waiting : Nat) (others : Finset Nat) :
    backlog size waiting others ≤ others.card * (size - 1) := by
  have each : ∀ slot ∈ others, distance size waiting slot ≤ size - 1 :=
    fun slot _ => Nat.le_sub_one_of_lt (distance_lt sizePos waiting slot)
  exact Finset.sum_le_card_nsmul others (distance size waiting) (size - 1) each

/-- A turn that passes the waiting slot by lowers the backlog. -/
theorem backlog_lt_of_firstAfter {ready : Nat → Prop} {position later : Nat}
    {before after : Finset Nat} (first : FirstAfter size ready position later)
    (isReady : ready waiting) (waitingLt : waiting < size) (notHere : position % size ≠ waiting)
    (passed : later % size ≠ waiting) (member : later % size ∈ before)
    (replaced : after ⊆ insert (position % size) (before.erase (later % size))) :
    backlog size waiting after < backlog size waiting before := by
  have nearer := distance_lt_of_firstAfter first isReady waitingLt notHere passed
  calc backlog size waiting after
      ≤ backlog size waiting (insert (position % size) (before.erase (later % size))) :=
        backlog_mono size waiting replaced
    _ ≤ distance size waiting (position % size) +
          backlog size waiting (before.erase (later % size)) := backlog_insert_le ..
    _ < distance size waiting (later % size) +
          backlog size waiting (before.erase (later % size)) := Nat.add_lt_add_right nearer _
    _ = backlog size waiting before := Finset.add_sum_erase before _ member

/-! ## Runs that spend a rank -/

variable {σ : Type u} {ε : Type v} {ρ : Type w} {next : Step σ ε ρ} {guard : σ → ε → ρ → Prop}

/-- The steps of a trace that are counted. -/
def counted (counts : ε → Bool) (trace : List (ε × ρ)) : Nat :=
  trace.countP fun step => counts step.1

/-- Progress rule: until a goal is met no step raises the rank and each counted
step lowers it, so a run meets the goal or pays for every counted step. -/
theorem reaches_or_pays (P goal : σ → Prop) (rank : σ → Nat) (counts : ε → Bool)
    (progress : ∀ {state event reply target}, P state → ¬ goal state →
      guard state event reply → next state event = some (reply, target) →
      P target ∧ (goal target ∨ rank target + (if counts event then 1 else 0) ≤ rank state))
    {source target : σ} {trace : List (ε × ρ)}
    (run : GuardedRun next guard source trace target) (initial : P source) :
    (∃ before rest middle, trace = before ++ rest ∧
        GuardedRun next guard source before middle ∧ P middle ∧ goal middle) ∨
      rank target + counted counts trace ≤ rank source := by
  induction run with
  | nil state => exact .inr (Nat.le_refl _)
  | @cons state middle target event reply rest allowed step run ih =>
      by_cases already : goal state
      · exact .inl ⟨[], _, state, rfl, .nil state, initial, already⟩
      · rcases progress initial already allowed step with ⟨kept, reached | paid⟩
        · exact .inl ⟨[(event, reply)], rest, middle, rfl,
            .cons allowed step (.nil middle), kept, reached⟩
        · rcases ih kept with ⟨before, after, state, rfl, ran, holds, met⟩ | spent
          · exact .inl ⟨(event, reply) :: before, after, state, rfl,
              .cons allowed step ran, holds, met⟩
          · refine .inr ?_
            unfold counted at spent ⊢
            rw [List.countP_cons]
            simp only at paid ⊢
            omega

end PonyOS.Lib.Ranking
