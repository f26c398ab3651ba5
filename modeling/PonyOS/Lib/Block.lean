import Mathlib.Data.List.Basic
import Mathlib.Data.Nat.Basic

/-!
# Concatenations of equal-sized blocks

A sequence stored in blocks of one size is read through the quotient and the
remainder of a position.  The lemmas here relate the concatenation of the
blocks to that indexing.
-/

namespace PonyOS.Lib.Block

universe u

variable {α : Type u}

/-- Concatenating `count` blocks of one size gives `count * size` entries. -/
theorem length_flatMap_range (block : Nat → List α) (size count : Nat)
    (sized : ∀ j, j < count → (block j).length = size) :
    ((List.range count).flatMap block).length = count * size := by
  induction count with
  | zero => simp
  | succ count ih =>
      rw [List.range_succ, List.flatMap_append, List.length_append,
        ih fun j bound => sized j (Nat.lt_succ_of_lt bound)]
      simp [sized count (Nat.lt_succ_self count), Nat.succ_mul]

/-- Entry `k` of a concatenation of equal-sized blocks is entry `k % size` of
block `k / size`. -/
theorem getElem?_flatMap_range (block : Nat → List α) (size count k : Nat)
    (sized : ∀ j, j < count → (block j).length = size)
    (bound : k < count * size) :
    ((List.range count).flatMap block)[k]? = (block (k / size))[k % size]? := by
  induction count with
  | zero => simp at bound
  | succ count ih =>
      have sizedBelow : ∀ j, j < count → (block j).length = size :=
        fun j below => sized j (Nat.lt_succ_of_lt below)
      have prefixLength := length_flatMap_range block size count sizedBelow
      rw [List.range_succ, List.flatMap_append]
      by_cases inPrefix : k < count * size
      · rw [List.getElem?_append_left (by rw [prefixLength]; exact inPrefix)]
        exact ih sizedBelow inPrefix
      · -- The entry lies in the last block, so its quotient is `count`.
        have reached : count * size ≤ k := Nat.le_of_not_lt inPrefix
        rw [List.getElem?_append_right (by rw [prefixLength]; exact reached), prefixLength]
        have quotient : k / size = count := by
          apply Nat.div_eq_of_lt_le reached
          simpa using bound
        have remainder : k % size = k - count * size := by
          have split := Nat.div_add_mod k size
          rw [quotient, Nat.mul_comm] at split
          omega
        simp [quotient, remainder]

end PonyOS.Lib.Block
