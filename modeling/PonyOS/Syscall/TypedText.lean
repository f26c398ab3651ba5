import Mathlib.Data.List.TakeWhile
import PonyOS.Syscall.ReadLength
import PonyOS.Terminal.Typing

/-!
# The length of typed text

The driver counts the characters of a line with an index, and `terminal_read`
measures the line with `strlen`.  The two agree while no line holds a zero.  So
they agree in all states of a run exactly if no key of the run types one.
-/

namespace PonyOS.Syscall

open PonyOS.FileSystem
open PonyOS.Lib.Transition
open PonyOS.Lib.Word
open PonyOS.Paging
open PonyOS.Process
open PonyOS.Terminal

/-! ## Strings in a row -/

section Row

variable {chars : Nat → UInt8} {text : List UInt8}

theorem strlen_row (short : text.length ≤ 128)
    (holds : ∀ k, k ≤ text.length → chars k = text.getD k 0) :
    strlen chars addressSpace = (text.takeWhile (· ≠ 0)).length := by
  apply strlen_of_text
  · unfold addressSpace
    omega
  · intro k inside
    rw [holds k (Nat.le_of_lt_succ inside)]
    by_cases inText : k < text.length
    · rw [List.getD_append _ _ _ _ inText]
    · have atEnd : k = text.length := Nat.le_antisymm (Nat.le_of_lt_succ inside)
        (Nat.le_of_not_lt inText)
      simp [atEnd]

/-- All of a text comes before its first zero exactly if it has none. -/
theorem length_takeWhile_eq_iff :
    (text.takeWhile (· ≠ 0)).length = text.length ↔ 0 ∉ text := by
  constructor
  · intro whole isZero
    have same := (List.takeWhile_prefix (l := text) (· ≠ 0)).eq_of_length whole
    have nonzero := List.takeWhile_eq_self_iff.mp same 0 isZero
    simp at nonzero
  · intro without
    have same : text.takeWhile (· ≠ 0) = text := by
      apply List.takeWhile_eq_self_iff.mpr
      intro char member
      exact decide_eq_true fun isZero => without (isZero ▸ member)
    rw [same]

end Row

/-! ## Lines and reads -/

/-- Every character typed is there, `strlen` measures every line by its index, and
a read of a line that was handed over, with room for its terminator, answers
with the number of its characters. -/
structure Measured (terminals : Terminals) (editor : LineEditor) : Prop where
  nonzero : ∀ t k, k < terminals.keyboard.cursorInd t → terminals.keyboard.keyboardBuffer t k ≠ 0
  typed : ∀ t, strlen (terminals.keyboard.keyboardBuffer t) addressSpace =
    terminals.keyboard.cursorInd t
  read : ∀ (kernel : Kernel) (line : Line), kernel.terminals.keyboard = terminals.keyboard →
    editor.submitted kernel.terminals.console.activeTerminal = some line →
    ∀ (memory : Memory) (buf count : Nat), line.text.length < count → count < 2147483648 →
      ∃ tried, terminalRead kernel memory buf count = some tried ∧
        tried.value = line.text.length

section State

variable {terminals : Terminals} {editor : LineEditor}

theorem strlen_keyboardBuffer (represents : terminals.RepresentsLines editor) (t : Nat) :
    strlen (terminals.keyboard.keyboardBuffer t) addressSpace =
      ((editor.line t).text.takeWhile (· ≠ 0)).length := by
  have short := (editor.line t).short
  apply strlen_row short
  intro k inside
  exact represents.buffer t k (Nat.le_trans inside short)

/-- What a read of a line that was handed over answers. -/
theorem terminalRead_handed (represents : terminals.RepresentsLines editor) (kernel : Kernel)
    {line : Line} (sameKeyboard : kernel.terminals.keyboard = terminals.keyboard)
    (submitted : editor.submitted kernel.terminals.console.activeTerminal = some line)
    (memory : Memory) (buf : Nat) {count : Nat} (room : line.text.length < count)
    (small : count < 2147483648) :
    ∃ tried, terminalRead kernel memory buf count = some tried ∧
      tried.value = ((line.text.takeWhile (· ≠ 0)).length : Nat) := by
  obtain ⟨raised, row⟩ := represents.handed _ line submitted
  rw [← sameKeyboard] at raised row
  have ready : kernel.terminals.lineReady = true := raised
  have length : strlen (lineThenMemory kernel.terminals memory buf count) addressSpace =
      (line.text.takeWhile (· ≠ 0)).length := by
    apply strlen_row line.short
    intro k inside
    have short := line.short
    rw [lineThenMemory, if_pos (Nat.lt_of_le_of_lt inside room)]
    apply row
    unfold printLim
    omega
  have shorter := (List.takeWhile_prefix (l := line.text) (· ≠ 0)).length_le
  rw [terminalRead, if_pos ready]
  refine ⟨_, rfl, ?_⟩
  simp only
  rw [strlenAt_line kernel.terminals memory buf small, length]
  exact int32_of_lt (by omega)

theorem measured_iff (represents : terminals.RepresentsLines editor) :
    Measured terminals editor ↔ editor.NoNul := by
  constructor
  · intro measured
    constructor
    · intro t
      apply length_takeWhile_eq_iff.mp
      rw [← strlen_keyboardBuffer represents, measured.typed, represents.cursor]
    · intro t line submitted
      apply length_takeWhile_eq_iff.mp
      have short := line.short
      let console : Console := { terminals.console with activeTerminal := t }
      let kernel : Kernel :=
        { shellKernel with terminals := { terminals with console := console } }
      have small : line.text.length + 1 < 2147483648 := by omega
      obtain ⟨tried, answered, value⟩ := measured.read kernel line rfl submitted
        (fun _ => 0) 0 (line.text.length + 1) (Nat.lt_succ_self _) small
      obtain ⟨same, sameAnswer, measuredValue⟩ := terminalRead_handed represents kernel
        rfl submitted (fun _ => 0) 0 (Nat.lt_succ_self _) small
      rw [answered, Option.some.injEq] at sameAnswer
      rw [← sameAnswer, value] at measuredValue
      omega
  · rintro ⟨lacks, handed⟩
    constructor
    · intro t k inside isZero
      rw [represents.cursor] at inside
      have short := (editor.line t).short
      rw [represents.buffer t k (by omega), List.getD_eq_getElem _ _ inside] at isZero
      exact lacks t (isZero ▸ List.getElem_mem inside)
    · intro t
      rw [strlen_keyboardBuffer represents, represents.cursor]
      exact length_takeWhile_eq_iff.mpr (lacks t)
    · intro kernel line sameKeyboard submitted memory buf count room small
      have answered :=
        terminalRead_handed represents kernel sameKeyboard submitted memory buf room small
      rw [length_takeWhile_eq_iff.mpr (handed _ line submitted)] at answered
      exact answered

end State

/-! ## Whole runs -/

/-- The lengths agree in all states of a run exactly if no step of the run is a
key that types a zero. -/
theorem typedText_measured_iff (paging : PageTables) (memory : Memory)
    (printBuffer : Nat → UInt8) (events : List Event) :
    (∀ before, before <+: events →
        Measured (before.foldl Terminals.step (Terminals.boot paging memory printBuffer))
          (before.foldl LineEditor.step .initial)) ↔
      ∀ before event, before ++ [event] <+: events →
        ¬ (before.foldl LineEditor.step .initial).TypesNul event := by
  have measured : ∀ before : List Event,
      Measured (before.foldl Terminals.step (Terminals.boot paging memory printBuffer))
          (before.foldl LineEditor.step .initial) ↔
        (before.foldl LineEditor.step .initial).NoNul :=
    fun before => measured_iff (Terminals.run_representsLines paging memory printBuffer before)
  simp only [measured]
  exact foldl_invariant_iff LineEditor.step LineEditor.NoNul
    (fun editor event => ¬ editor.TypesNul event) (fun _ event clean => clean.step_iff event)
    .initial LineEditor.initial_noNul events

/-- Shift and Space: the zero that they type hides the index from `strlen`. -/
theorem typedText_shiftSpace :
    ¬ Measured ([Event.key true 0x2A, .key true 0x39].foldl Terminals.step
        (Terminals.boot zeroTables (fun _ => 0) fun _ => 0))
      ([Event.key true 0x2A, .key true 0x39].foldl LineEditor.step .initial) := by
  intro measured
  have represents := Terminals.run_representsLines zeroTables (fun _ => 0) (fun _ => 0)
    [.key true 0x2A, .key true 0x39]
  exact ((measured_iff represents).mp measured).lacks 0 (by decide)

end PonyOS.Syscall
