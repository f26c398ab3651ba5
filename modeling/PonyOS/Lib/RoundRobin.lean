import Mathlib.Data.Int.CardIntervalMod

/-!
# Round robin on a cycle of slots

A cycle of `size` slots is unrolled into positions `0, 1, 2, …`; position `t`
stands for slot `t % size`.  A scheduler that always takes the first ready
slot after the one it left visits every position of a ready slot exactly once,
in order, so each ready slot is visited as often as its residue occurs between
the first and the last position.
-/

namespace PonyOS.Lib.RoundRobin

variable {size : Nat} {ready : Nat → Prop}

/-- `later` is the first position of a ready slot after `position`. -/
structure FirstAfter (size : Nat) (ready : Nat → Prop) (position later : Nat) : Prop where
  after : position < later
  isReady : ready (later % size)
  skipped : ∀ t, position < t → t < later → ¬ ready (t % size)

/-- The slots visited in turn from one position to another. -/
inductive Turns (size : Nat) (ready : Nat → Prop) : Nat → List Nat → Nat → Prop
  | nil (position : Nat) : Turns size ready position [] position
  | cons {position later last : Nat} {slots : List Nat} :
      FirstAfter size ready position later →
      Turns size ready later slots last →
      Turns size ready position (later % size :: slots) last

/-- How often a slot occurs among the positions up to `t`. -/
def occurrences (size slot t : Nat) : Nat :=
  Nat.count (fun position => position % size = slot) (t + 1)

/-- Positions of other slots do not count. -/
theorem occurrences_eq {slot first last : Nat} (ordered : first ≤ last)
    (others : ∀ t, first < t → t ≤ last → t % size ≠ slot) :
    occurrences size slot last = occurrences size slot first := by
  induction last, ordered using Nat.le_induction with
  | base => rfl
  | succ last ordered ih =>
      have below := ih fun t after upTo => others t after (Nat.le_succ_of_le upTo)
      rw [← below, occurrences, occurrences, Nat.count_succ _ (last + 1)]
      rw [if_neg (others (last + 1) (Nat.lt_succ_of_le ordered) (Nat.le_refl _)), Nat.add_zero]

/-- One turn counts the slot it visits and no other ready slot. -/
theorem FirstAfter.count {position later : Nat}
    (first : FirstAfter size ready position later) {slot : Nat} (isReady : ready slot) :
    occurrences size slot later =
      occurrences size slot position + if later % size = slot then 1 else 0 := by
  obtain ⟨before, rfl⟩ : ∃ before, later = before + 1 :=
    ⟨later - 1, by have := first.after; omega⟩
  have skipped : occurrences size slot before = occurrences size slot position := by
    apply occurrences_eq (Nat.le_of_lt_succ first.after)
    intro t after upTo visits
    apply first.skipped t after (Nat.lt_succ_of_le upTo)
    rw [visits]
    exact isReady
  rw [← skipped, occurrences, Nat.count_succ]
  rfl

/-- The visits of a ready slot are the positions of its residue. -/
theorem Turns.count {position last : Nat} {slots : List Nat}
    (turns : Turns size ready position slots last) {slot : Nat} (isReady : ready slot) :
    occurrences size slot last = occurrences size slot position + slots.count slot := by
  induction turns with
  | nil => rfl
  | cons first _ ih =>
      rw [ih, first.count isReady, List.count_cons]
      simp only [beq_iff_eq]
      omega

/-- Every slot visited is ready. -/
theorem Turns.isReady {position last : Nat} {slots : List Nat}
    (turns : Turns size ready position slots last) {slot : Nat} (member : slot ∈ slots) :
    ready slot := by
  induction turns with
  | nil => exact absurd member List.not_mem_nil
  | cons first _ ih =>
      rcases List.mem_cons.mp member with rfl | later
      · exact first.isReady
      · exact ih later

/-- The number of occurrences, in full rounds and a remainder. -/
theorem occurrences_eq_div {slot : Nat} (slotLt : slot < size) (t : Nat) :
    occurrences size slot t = (t + 1) / size + if slot < (t + 1) % size then 1 else 0 := by
  have counted := Nat.count_modEq_card (t + 1) (Nat.zero_lt_of_lt slotLt) slot
  simp only [Nat.ModEq, Nat.mod_eq_of_lt slotLt] at counted
  exact counted

/-- Round robin is fair: no ready slot is visited two times more often than
another. -/
theorem Turns.fair {position last : Nat} {slots : List Nat}
    (turns : Turns size ready position slots last) {first second : Nat}
    (firstReady : ready first) (secondReady : ready second) (firstLt : first < size)
    (secondLt : second < size) : slots.count first ≤ slots.count second + 1 := by
  have ofFirst := turns.count firstReady
  have ofSecond := turns.count secondReady
  simp only [occurrences_eq_div firstLt] at ofFirst
  simp only [occurrences_eq_div secondLt] at ofSecond
  generalize (last + 1) / size = lastRounds at ofFirst ofSecond
  generalize (position + 1) / size = rounds at ofFirst ofSecond
  split at ofFirst <;> split at ofFirst <;> split at ofSecond <;> split at ofSecond <;> omega

end PonyOS.Lib.RoundRobin
