import Mathlib.Data.List.Basic
import PonyOS.Lib.Loop

/-!
# Segments of a table, and their reversal in place

A run of entries of a table as a list, and the loop that swaps its two ends until
they meet.
-/

namespace PonyOS.Lib.Segment

open PonyOS.Lib.Loop

universe u

variable {α : Type u}

/-! ## Segments -/

/-- The `n` entries of a table from `start` on. -/
def segment (table : Nat → α) (start n : Nat) : List α :=
  (List.range n).map fun i => table (start + i)

@[simp]
theorem segment_length (table : Nat → α) (start n : Nat) :
    (segment table start n).length = n := by
  rw [segment, List.length_map, List.length_range]

theorem segment_getElem (table : Nat → α) (start n : Nat) {i : Nat}
    (inside : i < (segment table start n).length) :
    (segment table start n)[i] = table (start + i) := by
  simp only [segment, List.getElem_map, List.getElem_range]

theorem segment_succ (table : Nat → α) (start n : Nat) :
    segment table start (n + 1) = table start :: segment table (start + 1) n := by
  rw [segment, List.range_succ_eq_map, List.map_cons, List.map_map]
  congr 1
  apply List.map_congr_left
  intro i _
  exact congrArg table (by simp only [Nat.succ_eq_add_one]; omega)

/-- Two segments that follow each other. -/
theorem segment_add (table : Nat → α) (start n m : Nat) :
    segment table start (n + m) = segment table start n ++ segment table (start + n) m := by
  induction n generalizing start with
  | zero => simp [segment]
  | succ n ih =>
      have places : start + 1 + n = start + (n + 1) := by omega
      rw [Nat.add_right_comm, segment_succ, ih, segment_succ, List.cons_append, places]

theorem segment_congr {first second : Nat → α} {start n : Nat}
    (same : ∀ i, start ≤ i → i < start + n → first i = second i) :
    segment first start n = segment second start n := by
  apply List.map_congr_left
  intro i inside
  have below := List.mem_range.mp inside
  exact same (start + i) (by omega) (by omega)

/-! ## Reversal in place -/

/-- A table with the two ends of the part that is still to be reversed. -/
structure Ends (α : Type u) where
  beg : Int
  last : Int
  table : Nat → α

/-- The ends have not met. -/
def Ends.apart (ends : Ends α) : Bool :=
  ends.beg < ends.last

/-- The entries at the two ends are swapped and the ends move towards each other. -/
def Ends.swap (start : Nat) (ends : Ends α) : Ends α :=
  let tmp := ends.table (start + ends.last.toNat)
  let table := Function.update ends.table (start + ends.last.toNat)
    (ends.table (start + ends.beg.toNat))
  { beg := ends.beg + 1
    last := ends.last - 1
    table := Function.update table (start + ends.beg.toNat) tmp }

/-- A table with the outer `m` entries on both ends of a segment mirrored. -/
def mirrored (table : Nat → α) (start n m : Nat) (i : Nat) : α :=
  if start ≤ i ∧ i < start + n ∧ (i < start + m ∨ start + n ≤ i + m) then
    table (2 * start + n - 1 - i)
  else table i

variable (table : Nat → α) (start n : Nat)

/-- The ends after `m` swaps, as long as they have not met before. -/
theorem swap_iterate {m : Nat} (before : 2 * m ≤ n) :
    (Ends.swap start)^[m] ⟨0, (n : Int) - 1, table⟩ =
      ⟨m, (n : Int) - 1 - m, mirrored table start n m⟩ := by
  induction m with
  | zero =>
      have unchanged : mirrored table start n 0 = table := by
        funext i
        rw [mirrored, if_neg (by omega)]
      rw [unchanged]
      simp
  | succ m ih =>
      have beg : ((m : Int)).toNat = m := Int.toNat_natCast m
      have last : ((n : Int) - 1 - m).toNat = n - 1 - m := by omega
      rw [Function.iterate_succ_apply', ih (by omega), Ends.swap]
      simp only [beg, last, Ends.mk.injEq]
      refine ⟨by omega, by omega, ?_⟩
      funext i
      by_cases atBeg : i = start + m
      · subst atBeg
        rw [Function.update_self, mirrored, if_neg (by omega), mirrored, if_pos (by omega)]
        exact congrArg table (by omega)
      · rw [Function.update_of_ne atBeg]
        by_cases atLast : i = start + (n - 1 - m)
        · subst atLast
          rw [Function.update_self, mirrored, if_neg (by omega), mirrored, if_pos (by omega)]
          exact congrArg table (by omega)
        · rw [Function.update_of_ne atLast, mirrored, mirrored]
          by_cases outer : start ≤ i ∧ i < start + n ∧ (i < start + m ∨ start + n ≤ i + m)
          · rw [if_pos outer, if_pos (by omega)]
          · rw [if_neg outer, if_neg (by omega)]

/-- The ends meet after half of the entries. -/
theorem swap_stops : StopsAfter Ends.apart (Ends.swap start) ⟨0, (n : Int) - 1, table⟩ (n / 2) where
  entered m inside := by
    rw [swap_iterate table start n (by omega), Ends.apart]
    apply decide_eq_true
    dsimp only
    omega
  left := by
    rw [swap_iterate table start n (by omega), Ends.apart]
    apply decide_eq_false
    dsimp only
    omega

/-- Outside of its segment a mirrored table is unchanged. -/
theorem mirrored_outside (m : Nat) {i : Nat} (outside : i < start ∨ start + n ≤ i) :
    mirrored table start n m i = table i := by
  rw [mirrored, if_neg (by omega)]

/-- Its segment is reversed. -/
theorem segment_mirrored :
    segment (mirrored table start n (n / 2)) start n = (segment table start n).reverse := by
  apply List.ext_getElem
  · simp
  · intro i inside _
    rw [segment_length] at inside
    rw [segment_getElem, List.getElem_reverse, segment_getElem, segment_length, mirrored]
    by_cases outer : i < n / 2 ∨ n ≤ i + n / 2
    · rw [if_pos (by omega)]
      exact congrArg table (by omega)
    · rw [if_neg (by omega)]
      exact congrArg table (by omega)

/-- The loop reverses the segment, with any bound that is not below its half. -/
theorem whileDo_swap {bound : Nat} (enough : n / 2 ≤ bound) :
    (whileDo bound Ends.apart (Ends.swap start) ⟨0, (n : Int) - 1, table⟩).table =
      mirrored table start n (n / 2) := by
  rw [(swap_stops table start n).whileDo_eq enough, swap_iterate table start n (by omega)]

end PonyOS.Lib.Segment
