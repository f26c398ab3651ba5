import Mathlib.Data.Set.Basic

/-!
# Bit masks

A narrow mask is changed through a wider word that holds a single digit: the
digit is subtracted where the mask has it, or added where it does not.  Either
way exactly one position changes, and a digit beyond the mask changes nothing.
-/

namespace PonyOS.Lib.Mask

open BitVec

variable {v w : Nat}

/-- The digit is taken out of the mask by a subtraction. -/
def clearDigit (mask : BitVec v) (digit : BitVec w) : BitVec v :=
  if mask.setWidth w &&& digit ≠ 0 then (mask.setWidth w - digit).setWidth v else mask

/-- The digit is put into the mask by an addition. -/
def setDigit (mask : BitVec v) (digit : BitVec w) : BitVec v :=
  if mask.setWidth w &&& digit = 0 then (mask.setWidth w + digit).setWidth v else mask

theorem and_twoPow_eq_zero_iff (mask : BitVec w) {i : Nat} (inside : i < w) :
    mask &&& twoPow w i = 0 ↔ mask.getLsbD i = false := by
  rw [and_twoPow]
  cases isSet : mask.getLsbD i with
  | false => simp
  | true =>
      have nonzero : ¬ twoPow w i = 0#w := by
        intro zero
        have bit := congrArg (fun word => word.getLsbD i) zero
        simp [inside] at bit
      simpa using nonzero

/-- Subtracting a digit that is there clears it. -/
theorem sub_twoPow (mask : BitVec w) {i : Nat} (isSet : mask.getLsbD i = true) :
    mask - twoPow w i = mask &&& ~~~ twoPow w i := by
  have apart : (mask &&& ~~~ twoPow w i) &&& twoPow w i = 0#w := by
    apply eq_of_getLsbD_eq
    intro j inside
    cases digit : (twoPow w i).getLsbD j with
    | false => simp [digit]
    | true =>
        rw [getLsbD_and, getLsbD_and, getLsbD_not, digit]
        simp
  have whole : (mask &&& ~~~ twoPow w i) + twoPow w i = mask := by
    rw [add_eq_or_of_and_eq_zero _ _ apart]
    apply eq_of_getLsbD_eq
    intro j inside
    by_cases same : j = i
    · subst same
      simpa [inside] using isSet
    · simp [inside, same]
  rw [BitVec.sub_eq_iff_eq_add, whole]

/-- Adding a digit that is not there sets it. -/
theorem add_twoPow (mask : BitVec w) {i : Nat} (inside : i < w) (isClear : mask.getLsbD i = false) :
    mask + twoPow w i = mask ||| twoPow w i :=
  add_eq_or_of_and_eq_zero _ _ ((and_twoPow_eq_zero_iff mask inside).mpr isClear)

/-- Clearing a digit takes out that position and no other. -/
theorem getLsbD_clearDigit (mask : BitVec v) (wider : v ≤ w) {i : Nat} (inside : i < w) (j : Nat) :
    (clearDigit mask (twoPow w i)).getLsbD j = (mask.getLsbD j && decide (j ≠ i)) := by
  have bit : (mask.setWidth w).getLsbD i = mask.getLsbD i := by
    simp [inside]
  unfold clearDigit
  cases isSet : mask.getLsbD i with
  | false =>
      have absent : mask.setWidth w &&& twoPow w i = 0 :=
        (and_twoPow_eq_zero_iff _ inside).mpr (bit.trans isSet)
      rw [if_neg (fun present => present absent)]
      by_cases same : j = i
      · simp [same, isSet]
      · simp [same]
  | true =>
      have present : mask.setWidth w &&& twoPow w i ≠ 0 := by
        intro absent
        rw [and_twoPow_eq_zero_iff _ inside, bit, isSet] at absent
        contradiction
      rw [if_pos present, sub_twoPow _ (bit.trans isSet)]
      by_cases small : j < v
      · by_cases same : j = i
        · subst same
          simp [small, inside]
        · simp [small, same, Nat.lt_of_lt_of_le small wider]
      · have beyond : mask.getLsbD j = false := getLsbD_of_ge mask j (Nat.le_of_not_lt small)
        simp [small, beyond]

/-- Setting a digit puts in that position, if the mask has it, and no other. -/
theorem getLsbD_setDigit (mask : BitVec v) (wider : v ≤ w) {i : Nat} (inside : i < w) (j : Nat) :
    (setDigit mask (twoPow w i)).getLsbD j =
      (mask.getLsbD j || (decide (j = i) && decide (j < v))) := by
  have bit : (mask.setWidth w).getLsbD i = mask.getLsbD i := by
    simp [inside]
  unfold setDigit
  cases isSet : mask.getLsbD i with
  | true =>
      have present : mask.setWidth w &&& twoPow w i ≠ 0 := by
        intro absent
        rw [and_twoPow_eq_zero_iff _ inside, bit, isSet] at absent
        contradiction
      rw [if_neg present]
      by_cases same : j = i
      · simp [same, isSet]
      · simp [same]
  | false =>
      have absent : mask.setWidth w &&& twoPow w i = 0 :=
        (and_twoPow_eq_zero_iff _ inside).mpr (bit.trans isSet)
      rw [if_pos absent, add_twoPow _ inside (bit.trans isSet)]
      by_cases small : j < v
      · by_cases same : j = i
        · subst same
          simp [small, inside]
        · simp [small, same, Nat.lt_of_lt_of_le small wider]
      · have beyond : mask.getLsbD j = false := getLsbD_of_ge mask j (Nat.le_of_not_lt small)
        simp [small, beyond]

end PonyOS.Lib.Mask
