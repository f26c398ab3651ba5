import Mathlib.Data.Nat.Bitwise
import Mathlib.Data.List.Basic

/-!
# Bit fields

Some consecutive bits of a word, as the compiler lays out a structure of them.  A
field that is assigned reads back, and the fields apart from it keep what they
held; so after a number of assignments a field holds what was assigned to it last.
-/

namespace PonyOS.Lib.Bitfield

/-- A field by its lowest bit and its width. -/
structure Field where
  low : Nat
  width : Nat
  deriving DecidableEq

namespace Field

/-- The fields have no bit in common. -/
def Apart (first second : Field) : Prop :=
  first.low + first.width ≤ second.low ∨ second.low + second.width ≤ first.low

instance (first second : Field) : Decidable (first.Apart second) :=
  inferInstanceAs (Decidable (_ ∨ _))

variable {w : Nat}

/-- The bits of a field. -/
def mask (w : Nat) (field : Field) : BitVec w :=
  BitVec.ofNat w (2 ^ field.width - 1) <<< field.low

/-- What a field holds. -/
def get (field : Field) (word : BitVec w) : Nat :=
  word.toNat / 2 ^ field.low % 2 ^ field.width

/-- An assignment to a field. -/
def set (field : Field) (value : Nat) (word : BitVec w) : BitVec w :=
  (word &&& ~~~ field.mask w) ||| (BitVec.ofNat w value <<< field.low &&& field.mask w)

theorem testBit_get (field : Field) (word : BitVec w) (i : Nat) :
    (field.get word).testBit i = (decide (i < field.width) && word.getLsbD (field.low + i)) := by
  rw [get, Nat.testBit_mod_two_pow, Nat.testBit_div_two_pow, BitVec.getLsbD, Nat.add_comm]

theorem getLsbD_mask (field : Field) (j : Nat) :
    (field.mask w).getLsbD j =
      (decide (j < w) && (decide (field.low ≤ j) && decide (j < field.low + field.width))) := by
  simp only [mask, BitVec.getLsbD_shiftLeft, BitVec.getLsbD_ofNat, Nat.testBit_two_pow_sub_one]
  by_cases inside : j < w
  · by_cases low : field.low ≤ j
    · have small : j - field.low < w := by omega
      have high : (j - field.low < field.width) = (j < field.low + field.width) := by
        apply propext
        omega
      simp [inside, low, small, high, Nat.not_lt.mpr low]
    · simp [inside, low, Nat.not_le.mp low]
  · simp [inside]

/-- The bits of a word after an assignment. -/
theorem getLsbD_set {field : Field} (fits : field.low + field.width ≤ w) (value : Nat)
    (word : BitVec w) (j : Nat) :
    (field.set value word).getLsbD j =
      if field.low ≤ j ∧ j < field.low + field.width then value.testBit (j - field.low)
      else word.getLsbD j := by
  rw [set, BitVec.getLsbD_or, BitVec.getLsbD_and, BitVec.getLsbD_and, BitVec.getLsbD_not,
    getLsbD_mask, BitVec.getLsbD_shiftLeft, BitVec.getLsbD_ofNat]
  by_cases here : field.low ≤ j ∧ j < field.low + field.width
  · have inside : j < w := by omega
    have small : j - field.low < w := by omega
    simp [here.1, here.2, inside, small, Nat.not_lt.mpr here.1]
  · have outside : (decide (field.low ≤ j) && decide (j < field.low + field.width)) = false := by
      simpa using here
    rw [if_neg here, outside]
    by_cases inside : j < w
    · simp [inside]
    · simp [inside, BitVec.getLsbD_of_ge word j (Nat.le_of_not_lt inside)]

/-- A field reads back what was assigned to it, as far as it is wide enough. -/
theorem get_set {field : Field} (fits : field.low + field.width ≤ w) (value : Nat)
    (word : BitVec w) : field.get (field.set value word) = value % 2 ^ field.width := by
  apply Nat.eq_of_testBit_eq
  intro i
  rw [testBit_get, getLsbD_set fits, Nat.testBit_mod_two_pow]
  by_cases inside : i < field.width
  · simp [inside]
  · simp [inside]

/-- A field apart from it holds what it held. -/
theorem get_set_of_apart {field other : Field} (fits : field.low + field.width ≤ w)
    (apart : field.Apart other) (value : Nat) (word : BitVec w) :
    other.get (field.set value word) = other.get word := by
  apply Nat.eq_of_testBit_eq
  intro i
  rw [testBit_get, testBit_get, getLsbD_set fits]
  by_cases inside : i < other.width
  · have outside : ¬ (field.low ≤ other.low + i ∧ other.low + i < field.low + field.width) := by
      rcases apart with before | behind
      · omega
      · omega
    rw [if_neg outside]
  · simp [inside]

/-- A field reads the same from words that agree on its bits. -/
theorem get_congr {field : Field} {word other : BitVec w}
    (same : ∀ j, field.low ≤ j → j < field.low + field.width →
      word.getLsbD j = other.getLsbD j) : field.get word = field.get other := by
  apply Nat.eq_of_testBit_eq
  intro i
  rw [testBit_get, testBit_get]
  by_cases inside : i < field.width
  · rw [same (field.low + i) (by omega) (by omega)]
  · simp [inside]

theorem get_bit (i : Nat) (word : BitVec w) :
    Field.get ⟨i, 1⟩ word = (word.getLsbD i).toNat := by
  rw [get, BitVec.getLsbD, Nat.testBit_eq_decide_div_mod_eq]
  rcases Nat.mod_two_eq_zero_or_one (word.toNat / 2 ^ i) with even | odd
  · simp [even]
  · simp [odd]

theorem bit_of_get {i : Nat} {word : BitVec w} {bit : Bool}
    (held : Field.get ⟨i, 1⟩ word = bit.toNat) : word.getLsbD i = bit := by
  rw [get_bit] at held
  cases bit with
  | false => simpa using held
  | true => simpa using held

theorem get_top {field : Field} (top : field.low + field.width = w) (word : BitVec w) :
    field.get word = word.toNat / 2 ^ field.low := by
  apply Nat.mod_eq_of_lt
  apply Nat.div_lt_of_lt_mul
  rw [← Nat.pow_add, top]
  exact word.isLt

end Field

/-! ## Assignments -/

variable {w : Nat}

/-- Assignments to fields, one after the other. -/
def assign (assignments : List (Field × Nat)) (word : BitVec w) : BitVec w :=
  assignments.foldl (fun word assignment => assignment.1.set assignment.2 word) word

/-- What was assigned to a field last. -/
def lastAssigned (field : Field) : List (Field × Nat) → Nat → Nat
  | [], value => value
  | assignment :: rest, value =>
      lastAssigned field rest
        (if assignment.1 = field then assignment.2 % 2 ^ field.width else value)

/-- The assignments are to the field itself or to fields apart from it. -/
def Clear (field : Field) (assignments : List (Field × Nat)) : Prop :=
  ∀ assignment ∈ assignments, assignment.1 = field ∨ assignment.1.Apart field

instance (field : Field) (assignments : List (Field × Nat)) :
    Decidable (Clear field assignments) :=
  inferInstanceAs (Decidable (∀ assignment ∈ assignments, _))

/-- After some assignments a field holds what was assigned to it last, or what it
held. -/
theorem get_assign {field : Field} {assignments : List (Field × Nat)}
    (fits : ∀ assignment ∈ assignments, assignment.1.low + assignment.1.width ≤ w)
    (clear : Clear field assignments) (word : BitVec w) :
    field.get (assign assignments word) = lastAssigned field assignments (field.get word) := by
  induction assignments generalizing word with
  | nil => rfl
  | cons assignment rest ih =>
      have restFits := fun later member => fits later (List.mem_cons_of_mem assignment member)
      have restClear : Clear field rest :=
        fun later member => clear later (List.mem_cons_of_mem assignment member)
      have here := fits assignment List.mem_cons_self
      have first : field.get (assignment.1.set assignment.2 word) =
          if assignment.1 = field then assignment.2 % 2 ^ field.width else field.get word := by
        by_cases same : assignment.1 = field
        · rw [if_pos same]
          rw [same] at here ⊢
          exact Field.get_set here assignment.2 word
        · rw [if_neg same]
          have apart := (clear assignment List.mem_cons_self).resolve_left same
          exact Field.get_set_of_apart here apart assignment.2 word
      rw [lastAssigned, ← first]
      exact ih restFits restClear _

/-! ## Layouts -/

/-- Fields that lie in a word of `w` bits and do not overlap. -/
def Layout (w : Nat) (fields : List Field) : Prop :=
  (∀ field ∈ fields, field.low + field.width ≤ w) ∧
    ∀ first ∈ fields, ∀ second ∈ fields, first = second ∨ first.Apart second

instance (w : Nat) (fields : List Field) : Decidable (Layout w fields) :=
  inferInstanceAs (Decidable ((∀ field ∈ fields, _) ∧ ∀ first ∈ fields, _))

/-- The assignments are to fields of the layout. -/
def Assigns (fields : List Field) (assignments : List (Field × Nat)) : Prop :=
  ∀ assignment ∈ assignments, assignment.1 ∈ fields

/-- The fields that are listed with a value hold it. -/
def Holds (word : BitVec w) (contents : List (Field × Nat)) : Prop :=
  ∀ content ∈ contents, content.1.get word = content.2

/-- A word holds what was assigned to its fields last. -/
theorem Layout.holds_assign {fields : List Field} (layout : Layout w fields)
    {assignments contents : List (Field × Nat)} (assigns : Assigns fields assignments)
    (listed : Assigns fields contents) {word : BitVec w}
    (last : ∀ content ∈ contents,
      lastAssigned content.1 assignments (content.1.get word) = content.2) :
    Holds (assign assignments word) contents := by
  intro content member
  rw [get_assign (fun assignment inside => layout.1 _ (assigns assignment inside))
    (fun assignment inside => layout.2 _ (assigns assignment inside) _ (listed content member))]
  exact last content member

/-! ## Words that agree outside a field -/

/-- The words agree on every bit that is not one of the field. -/
def SameOutside (field : Field) (word other : BitVec w) : Prop :=
  ∀ j, j < field.low ∨ field.low + field.width ≤ j → word.getLsbD j = other.getLsbD j

namespace SameOutside

variable {field : Field} {word middle other : BitVec w}

theorem refl (word : BitVec w) : SameOutside field word word :=
  fun _ _ => rfl

theorem trans (first : SameOutside field word middle) (second : SameOutside field middle other) :
    SameOutside field word other :=
  fun j outside => (first j outside).trans (second j outside)

/-- An assignment inside the field changes nothing else. -/
theorem of_set {assigned : Field} (fits : assigned.low + assigned.width ≤ w)
    (above : field.low ≤ assigned.low)
    (below : assigned.low + assigned.width ≤ field.low + field.width) (value : Nat)
    (word : BitVec w) : SameOutside field (assigned.set value word) word := by
  intro j outside
  rw [Field.getLsbD_set fits, if_neg (by omega)]

theorem get (same : SameOutside field word other) {read : Field} (apart : read.Apart field) :
    read.get word = read.get other := by
  apply Field.get_congr
  intro j low high
  apply same j
  rcases apart with before | behind
  · exact Or.inl (by omega)
  · exact Or.inr (by omega)

theorem set (same : SameOutside field word other) {assigned : Field}
    (fits : assigned.low + assigned.width ≤ w) (value : Nat) :
    SameOutside field (assigned.set value word) (assigned.set value other) := by
  intro j outside
  rw [Field.getLsbD_set fits, Field.getLsbD_set fits, same j outside]

theorem holds (same : SameOutside field word other) {contents : List (Field × Nat)}
    (apart : ∀ content ∈ contents, content.1.Apart field) (held : Holds other contents) :
    Holds word contents :=
  fun content member => (same.get (apart content member)).trans (held content member)

end SameOutside

end PonyOS.Lib.Bitfield
