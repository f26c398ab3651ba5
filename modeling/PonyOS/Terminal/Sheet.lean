import PonyOS.Terminal.Screen

/-!
# Text on an unbounded page

The same text on a page that never scrolls: a line ends at a newline or after 80
characters, and a newline behind a full line leaves an empty one.  The screen
gives up the empty line when the full one was in its last row, so the second half
compares the last lines of a page with the last of those that are kept.
-/

namespace PonyOS.Terminal

/-! ## The page -/

/-- A line of text, and whether it goes on with a line that was full. -/
structure TextLine where
  wrapped : Bool
  text : List UInt8
deriving DecidableEq, Repr

namespace TextLine

/-- A line before its first character. -/
def empty (wrapped : Bool) : TextLine :=
  { wrapped := wrapped, text := [] }

/-- A line with one more character. -/
def add (line : TextLine) (c : UInt8) : TextLine :=
  { line with text := line.text ++ [c] }

/-- Column `column` of a line. -/
def cell (line : TextLine) (column : Nat) : UInt8 :=
  line.text.getD column space

/-- The 80 columns of a line. -/
def cells (line : TextLine) : List UInt8 :=
  (List.range 80).map line.cell

/-- The line reads as blanks. -/
def Blank (line : TextLine) : Prop :=
  line.cells = (empty false).cells

@[simp]
theorem cell_empty (wrapped : Bool) (column : Nat) : (empty wrapped).cell column = space :=
  rfl

@[simp]
theorem length_add (line : TextLine) (c : UInt8) :
    (line.add c).text.length = line.text.length + 1 := by
  simp [add]

theorem add_ne_empty (line : TextLine) (c : UInt8) (wrapped : Bool) :
    line.add c ≠ empty wrapped := by
  simp [add, empty]

/-- One more character changes one column. -/
theorem cell_add_of_ne {line : TextLine} {column : Nat} (c : UInt8)
    (other : column ≠ line.text.length) : (line.add c).cell column = line.cell column := by
  by_cases inside : column < line.text.length
  · simp [cell, add, List.getElem?_append_left inside]
  · have beyond : line.text.length < column := by omega
    simp [cell, add, List.getElem?_append_right (Nat.le_of_lt beyond),
      List.getElem?_eq_none (Nat.le_of_lt beyond), Nat.sub_ne_zero_of_lt beyond]

/-- Two lines read the same if their columns do. -/
theorem cells_eq_iff {first second : TextLine} :
    first.cells = second.cells ↔
      ∀ column, column < 80 → first.cell column = second.cell column := by
  simp [cells, List.map_inj_left]

@[simp]
theorem blank_empty (wrapped : Bool) : (empty wrapped).Blank :=
  rfl

end TextLine

/-- The current line, and the lines above it from there to the first. -/
structure Sheet where
  current : TextLine
  above : List TextLine
deriving DecidableEq, Repr

namespace Sheet

/-- An empty page. -/
def start : Sheet :=
  { current := .empty false, above := [] }

/-- One character.  A newline moves to the next line, and so does the character
in the last column. -/
def put (sheet : Sheet) (c : UInt8) : Sheet :=
  if isNewline c then { current := .empty false, above := sheet.current :: sheet.above }
  else
    let line := sheet.current.add c
    if line.text.length = 80 then { current := .empty true, above := line :: sheet.above }
    else { sheet with current := line }

/-- A text on an empty page. -/
def render (text : List UInt8) : Sheet :=
  text.foldl put start

/-- The lines from that of the last character up to the first, if the last
character is no newline. -/
def upToLast (sheet : Sheet) : List TextLine :=
  if sheet.current.text = [] then sheet.above else sheet.current :: sheet.above

theorem upToLast_put (sheet : Sheet) {c : UInt8} (printable : isNewline c = false) :
    (sheet.put c).upToLast = sheet.current.add c :: sheet.above := by
  have nonempty : (sheet.current.add c).text ≠ [] := by simp [TextLine.add]
  rw [put, printable]
  simp only [Bool.false_eq_true, if_false]
  by_cases full : (sheet.current.add c).text.length = 80
  · rw [if_pos full]
    rfl
  · rw [if_neg full]
    exact if_neg nonempty

end Sheet

/-! ## Lines that the screen gives up -/

/-- An empty line behind a full one, with at least as many lines above it as the
screen has. -/
def Swallowed (line : TextLine) (above : List TextLine) : Prop :=
  line = .empty true ∧ 25 ≤ above.length

instance (line : TextLine) (above : List TextLine) : Decidable (Swallowed line above) :=
  inferInstanceAs (Decidable (_ ∧ _))

/-- The other lines. -/
def kept : List TextLine → List TextLine
  | [] => []
  | line :: above => if Swallowed line above then kept above else line :: kept above

/-- Among the last `n` lines the lowest that is swallowed, if there is one, has
only blank lines above it in what is left of the `n` rows. -/
def ShowsWhole : Nat → List TextLine → Prop
  | 0, _ => True
  | _, [] => True
  | n + 1, line :: above =>
      if Swallowed line above then ∀ shown ∈ (kept above).take (n + 1), shown.Blank
      else ShowsWhole n above

instance (line : TextLine) : Decidable line.Blank :=
  inferInstanceAs (Decidable (_ = _))

instance decidableShowsWhole : (n : Nat) → (lines : List TextLine) → Decidable (ShowsWhole n lines)
  | 0, _ => isTrue trivial
  | _ + 1, [] => isTrue trivial
  | n + 1, line :: above =>
      if swallowed : Swallowed line above then
        decidable_of_iff (((kept above).take (n + 1)).all fun shown => decide shown.Blank)
          (by rw [ShowsWhole, if_pos swallowed, List.all_eq_true]; simp only [decide_eq_true_eq])
      else
        @decidable_of_iff _ (ShowsWhole n above) (by rw [ShowsWhole, if_neg swallowed])
          (decidableShowsWhole n above)

/-- None of the first 25 lines is swallowed. -/
theorem min_length_kept (lines : List TextLine) :
    min (kept lines).length 25 = min lines.length 25 := by
  induction lines with
  | nil => rfl
  | cons line above ih =>
      rw [kept, List.length_cons]
      by_cases swallowed : Swallowed line above
      · have long := swallowed.2
        rw [if_pos swallowed]
        omega
      · rw [if_neg swallowed, List.length_cons]
        omega

theorem not_swallowed_add (line : TextLine) (c : UInt8) (above : List TextLine) :
    ¬ Swallowed (line.add c) above :=
  fun swallowed => line.add_ne_empty c true swallowed.1

theorem kept_of_not_swallowed {line : TextLine} {above : List TextLine}
    (notSwallowed : ¬ Swallowed line above) : kept (line :: above) = line :: kept above :=
  if_neg notSwallowed

/-- Each of the last lines is blank or among the last that are kept. -/
theorem blank_or_mem_kept {lines : List TextLine} {n : Nat} {line : TextLine}
    (member : line ∈ lines.take n) : line.Blank ∨ line ∈ (kept lines).take n := by
  induction lines generalizing n with
  | nil => exact absurd member (by simp)
  | cons first above ih =>
      cases n with
      | zero => exact absurd member (by simp)
      | succ n =>
          rw [List.take_succ_cons] at member
          by_cases swallowed : Swallowed first above
          · rw [kept, if_pos swallowed]
            rcases List.mem_cons.mp member with rfl | later
            · rw [swallowed.1]
              exact Or.inl (TextLine.blank_empty true)
            · exact (ih later).imp_right (List.take_subset_take_left _ (Nat.le_succ n) ·)
          · rw [kept_of_not_swallowed swallowed, List.take_succ_cons]
            rcases List.mem_cons.mp member with rfl | later
            · exact Or.inr List.mem_cons_self
            · exact (ih later).imp_right (List.mem_cons_of_mem _)

/-- Blank lines read as blanks. -/
theorem take_cells_blank {lines : List TextLine} {n : Nat} (long : n ≤ lines.length)
    (blank : ∀ line ∈ lines.take n, line.Blank) :
    (lines.map TextLine.cells).take n = List.replicate n (TextLine.empty false).cells := by
  rw [← List.map_take, List.eq_replicate_iff]
  constructor
  · rw [List.length_map, List.length_take, Nat.min_eq_left long]
  · intro cells member
    obtain ⟨line, inLines, rfl⟩ := List.mem_map.mp member
    exact blank line inLines

/-- Kept lines that read like a blank line and the lines above it are blank. -/
theorem blank_of_shifted {lines : List TextLine} {n : Nat}
    (same : (TextLine.empty false).cells :: (lines.map TextLine.cells).take n =
      ((kept lines).map TextLine.cells).take (n + 1)) :
    ∀ shown ∈ (kept lines).take (n + 1), shown.Blank := by
  induction n with
  | zero =>
      intro shown member
      have listed := List.mem_map_of_mem (f := TextLine.cells) member
      rw [List.map_take, ← same, List.take_zero] at listed
      exact List.mem_singleton.mp listed
  | succ n ih =>
      -- The first `n + 1` are blank already, and so are the lines they are compared with.
      have shorter := congrArg (List.take (n + 1)) same
      rw [List.take_succ_cons, List.take_take, List.take_take, Nat.min_eq_left (Nat.le_succ n),
        Nat.min_eq_left (Nat.le_succ (n + 1))] at shorter
      have below := ih shorter
      intro shown member
      have listed := List.mem_map_of_mem (f := TextLine.cells) member
      rw [List.map_take, ← same] at listed
      rcases List.mem_cons.mp listed with blank | later
      · exact blank
      · rw [← List.map_take] at later
        obtain ⟨line, inLines, sameCells⟩ := List.mem_map.mp later
        have lineBlank : line.Blank := by
          rcases blank_or_mem_kept inLines with blank | inKept
          · exact blank
          · exact below line inKept
        exact sameCells.symm.trans lineBlank

/-- The last lines read like the last lines that are kept exactly if no swallowed
one shows. -/
theorem take_cells_kept_iff (lines : List TextLine) {n : Nat} (fits : n ≤ 25) :
    (lines.map TextLine.cells).take n = ((kept lines).map TextLine.cells).take n ↔
      ShowsWhole n lines := by
  induction lines generalizing n with
  | nil => cases n <;> simp [kept, ShowsWhole]
  | cons line above ih =>
      cases n with
      | zero => simp [ShowsWhole]
      | succ n =>
          rw [ShowsWhole, List.map_cons, List.take_succ_cons]
          by_cases swallowed : Swallowed line above
          · have blank : line.cells = (TextLine.empty false).cells := by
              rw [swallowed.1]
              rfl
            have long := swallowed.2
            have keptLong := min_length_kept above
            rw [if_pos swallowed, kept, if_pos swallowed, blank]
            constructor
            · exact blank_of_shifted
            · intro allBlank
              have linesBlank : ∀ line ∈ above.take n, line.Blank := by
                intro line member
                rcases blank_or_mem_kept member with blank | inKept
                · exact blank
                · exact allBlank line (List.take_subset_take_left _ (Nat.le_succ n) inKept)
              rw [take_cells_blank (by omega) linesBlank, take_cells_blank (by omega) allBlank]
              rfl
          · rw [if_neg swallowed, kept_of_not_swallowed swallowed, List.map_cons,
              List.take_succ_cons, List.cons.injEq, and_iff_right rfl]
            exact ih (by omega)

end PonyOS.Terminal
