import Mathlib.Data.List.Nodup
import Mathlib.Logic.Function.Basic

/-!
# Counting flags

A table of flags is counted over a list of distinct keys.  Setting or clearing
one flag of the list moves the count by one.
-/

namespace PonyOS.Lib.Count

universe u

variable {α : Type u} [DecidableEq α] {flags : α → Bool} {key : α} {keys : List α}

/-- One more flag is set. -/
theorem countP_update_true (distinct : keys.Nodup) (member : key ∈ keys)
    (cleared : flags key = false) :
    keys.countP (Function.update flags key true) = keys.countP flags + 1 := by
  induction keys with
  | nil => simp at member
  | cons head tail ih =>
      obtain ⟨headFresh, tailDistinct⟩ := List.nodup_cons.mp distinct
      rcases List.mem_cons.mp member with rfl | inTail
      · have same : tail.countP (Function.update flags key true) = tail.countP flags := by
          apply List.countP_congr
          intro other otherMember
          have notKey : other ≠ key := by
            rintro rfl
            exact headFresh otherMember
          rw [Function.update_of_ne notKey]
        simp [same, cleared]
      · have notKey : head ≠ key := by
          rintro rfl
          exact headFresh inTail
        simp only [List.countP_cons, Function.update_of_ne notKey, ih tailDistinct inTail]
        omega

/-- One flag fewer is set. -/
theorem countP_update_false (distinct : keys.Nodup) (member : key ∈ keys)
    (isSet : flags key = true) :
    keys.countP (Function.update flags key false) + 1 = keys.countP flags := by
  have again := countP_update_true distinct member (Function.update_self key false flags)
  rw [Function.update_idem, ← isSet, Function.update_eq_self] at again
  exact again.symm

end PonyOS.Lib.Count
