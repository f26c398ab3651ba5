import PonyOS.Terminal.Editor

/-!
# Typed characters

Which characters a line can hold.  The two tables of the driver decide what a
key types: a newline comes from Enter alone, which submits the line at once, and
a zero from the keys that have no shifted character.  From that follow the two
laws about a submitted line: when it ends with the newline of its Enter, and
when it holds no zero.
-/

namespace PonyOS.Terminal

open PonyOS.Lib.Word
open PonyOS.Paging

universe u

/-! ## The tables -/

/-- Only Enter types a newline. -/
theorem keyCharacter_ne_newline :
    ∀ c < 128, c ≠ scancodeEnter → ∀ caps shift, keyCharacter caps shift c ≠ 10 := by
  decide +kernel

theorem keyCharacter_enter : ∀ caps, keyCharacter caps false scancodeEnter = 10 := by
  decide +kernel

/-- The keys whose character has no entry in `special_convert_map`: Space, Tab,
Enter and the plus of the keypad. -/
def unshifted (c : Nat) : Bool :=
  [57, 15, 28, 78].contains c

/-- A mapped key types a zero exactly when it is one of them and Shift is held. -/
theorem keyCharacter_eq_zero_iff :
    ∀ c < 128, scancodesMap c ≠ 0 → ∀ caps shift,
      keyCharacter caps shift c = 0 ↔ shift = true ∧ unshifted c = true := by
  decide +kernel

/-! ## Characters that no line holds -/

namespace LineEditor

/-- No line holds a byte. -/
def Lacks (editor : LineEditor) (byte : UInt8) : Prop :=
  ∀ t, byte ∉ (editor.line t).text

theorem initial_lacks (byte : UInt8) : initial.Lacks byte := by
  intro t
  exact List.not_mem_nil

namespace Lacks

variable {editor : LineEditor} {byte : UInt8}

theorem setCurrent (lacks : editor.Lacks byte) {line : Line} (without : byte ∉ line.text) :
    (editor.setCurrent line).Lacks byte := by
  intro t
  by_cases here : t = editor.display
  · simp only [LineEditor.setCurrent, here, Function.update_self]
    exact without
  · rw [setCurrent_elsewhere here]
    exact lacks t

theorem append (lacks : editor.Lacks byte) {c : UInt8}
    (other : editor.current.text.length < 128 → c ≠ byte) :
    (editor.setCurrent (editor.current.append c)).Lacks byte := by
  apply lacks.setCurrent
  by_cases room : editor.current.text.length < 128
  · rw [Line.append_of_lt room, List.mem_append, List.mem_singleton]
    rintro (before | rfl)
    · exact lacks _ before
    · exact other room rfl
  · rw [Line.append_of_full room]
    exact lacks _

theorem type (lacks : editor.Lacks byte) {c : Nat}
    (other : scancodesMap c ≠ 0 → editor.held scancodeLeftAlt = false →
      editor.current.text.length < 128 → editor.character c ≠ byte) :
    (editor.type c).Lacks byte := by
  unfold LineEditor.type
  split_ifs with clears alt mapped
  · exact lacks.setCurrent List.not_mem_nil
  · intro t
    rw [switchDisplay_line]
    exact lacks t
  · exact lacks.append (other mapped (Bool.eq_false_iff.mpr alt))
  · exact lacks

/-- A key that types nothing or another character, and Enter whatever it types,
for it empties the line. -/
theorem key (lacks : editor.Lacks byte) {c : Nat}
    (typed : c < 128 → c ≠ scancodeEnter → ((editor.hold c).type c).Lacks byte) :
    (editor.key c).Lacks byte := by
  by_cases released : c > 127
  · rw [LineEditor.key, if_pos released]
    exact lacks
  by_cases enter : c = scancodeEnter
  · intro t
    by_cases here : t = editor.display
    · have shown : ((editor.hold c).type c).display = editor.display :=
        (editor.hold c).type_display (Or.inl enter)
      simp only [LineEditor.key, if_neg released, if_pos enter, submit, LineEditor.setCurrent]
      rw [here, shown, Function.update_self]
      exact List.not_mem_nil
    · rw [key_elsewhere here]
      exact lacks t
  · have without := typed (Nat.lt_succ_of_le (Nat.le_of_not_lt released)) enter
    simp only [LineEditor.key, if_neg released, if_neg enter]
    split
    · exact without.setCurrent fun member => without _ (List.dropLast_subset _ member)
    · exact without

end Lacks

/-- A newline never waits in a line: Enter submits it with the rest. -/
theorem run_lacksNewline (events : List Event) : (events.foldl step initial).Lacks 10 := by
  apply List.foldlRecOn (motive := fun editor => editor.Lacks 10) events step (initial_lacks 10)
  intro editor lacks event _
  cases event with
  | key pidFree c =>
      apply lacks.key
      intro pressed notEnter
      have holding : (editor.hold c.toNat).Lacks 10 := lacks
      apply holding.type
      intro _ _ _
      exact keyCharacter_ne_newline c.toNat pressed notEnter _ _
  | _ => exact lacks

/-! ## Enter -/

section Enter

variable {editor : LineEditor}

/-- A mapped key without Alt appends its character. -/
theorem type_of_mapped {c : Nat} (notL : c ≠ scancodeL)
    (noAlt : editor.held scancodeLeftAlt = false) (mapped : scancodesMap c ≠ 0) :
    editor.type c = editor.setCurrent (editor.current.append (editor.character c)) := by
  rw [type, if_neg fun both => notL both.1, noAlt, if_neg Bool.false_ne_true, if_pos mapped]

theorem type_submitted (editor : LineEditor) (c : Nat) :
    (editor.type c).submitted = editor.submitted := by
  unfold type switchDisplay
  split_ifs <;> rfl

/-- Enter alone hands a line over. -/
theorem key_submitted (editor : LineEditor) (c : Nat) :
    (editor.key c).submitted =
      if c = scancodeEnter then
        Function.update editor.submitted editor.display (some ((editor.hold c).type c).current)
      else editor.submitted := by
  have same : ((editor.hold c).type c).submitted = editor.submitted :=
    (editor.hold c).type_submitted c
  by_cases enter : c = scancodeEnter
  · have pressed : ¬ c > 127 := by
      rw [enter]
      decide
    have shown : ((editor.hold c).type c).display = editor.display :=
      (editor.hold c).type_display (Or.inl enter)
    simp only [key, if_neg pressed, if_pos enter, submit, same, shown]
  · rw [if_neg enter, key]
    by_cases released : c > 127
    · rw [if_pos released]
      rfl
    · simp only [if_neg released, if_neg enter]
      split
      · exact same
      · exact same

theorem key_enter (noAlt : editor.held scancodeLeftAlt = false) :
    (editor.key scancodeEnter).submitted editor.display =
      some (editor.current.append (editor.character scancodeEnter)) := by
  have heldAlt : (editor.hold scancodeEnter).held scancodeLeftAlt = false := noAlt
  rw [key_submitted, if_pos rfl, Function.update_self,
    type_of_mapped (by decide) heldAlt (by decide), current_setCurrent]
  rfl

end Enter

end LineEditor

section Handler

variable {σ : Type u} (ops : ScreenOps σ) {screen : σ} {keyboard : Keyboard}

/-- Enter without Alt echoes its character if it fits. -/
theorem scancodeProcessing_enter_screen (pidFree : Bool)
    (noAlt : keyboard.pressedKey scancodeLeftAlt = false)
    (room : keyboard.cursorInd (ops.displayTerminal screen) < 128) :
    (scancodeProcessing ops pidFree screen keyboard 28).screen =
      ops.putcScrollDisplay screen (keyboard.characterConvert scancodeEnter) := by
  have heldAlt : (pressKey keyboard scancodeEnter).pressedKey scancodeLeftAlt = false := noAlt
  have mapped : scancodesMap scancodeEnter ≠ 0 := by decide
  have typed : makeBreak ops pidFree screen keyboard scancodeEnter =
      { screen := ops.putcScrollDisplay screen (keyboard.characterConvert scancodeEnter)
        keyboard := (pressKey keyboard scancodeEnter).appendChar (ops.displayTerminal screen)
          (keyboard.characterConvert scancodeEnter)
        launch := none } := by
    rw [makeBreak, if_neg (by decide)]
    simp only [heldAlt]
    rw [if_neg fun both => absurd both.1 (by decide), if_neg (by decide), if_pos ⟨mapped, room⟩]
    rfl
  have code : (28 : UInt8).toNat = scancodeEnter := rfl
  rw [scancodeProcessing, code, typed, enterKey, if_pos rfl, backspaceKey]
  simp [scancodeEnter, scancodeBackspace]

end Handler

/-- Enter hands over a text, cut to `127` characters, with a newline behind it
and zeros up to the end of the row, and shows the newline on the displayed
terminal. -/
def Terminals.EnterEndsLine (terminals : Terminals) (pidFree : Bool) (text : List UInt8) : Prop :=
  let after := terminals.step (.key pidFree 28)
  let t := terminals.console.displayTerminal
  (∀ k < printLim,
      after.keyboard.printBuffer (printRow t + k) = (text.take 127 ++ [10]).getD k 0) ∧
    after.console.logicalScreen t = (terminals.console.logicalScreen t).putChar 10

section State

variable {terminals : Terminals}

theorem enter_echo (driven : Driven terminals.console terminals.keyboard) (pidFree : Bool)
    (noAlt : terminals.keyboard.pressedKey scancodeLeftAlt = false)
    (room : terminals.keyboard.cursorInd terminals.console.displayTerminal < 128) :
    (terminals.step (.key pidFree 28)).console.logicalScreen terminals.console.displayTerminal =
      (terminals.console.logicalScreen terminals.console.displayTerminal).putChar
        (terminals.keyboard.characterConvert scancodeEnter) := by
  have displayLt := driven.coherent.display_lt
  have view := (scancodeProcessing_simulates driven pidFree 28).screen
  have viewRoom : terminals.keyboard.cursorInd
      (referenceOps.displayTerminal terminals.console.view) < 128 := room
  rw [scancodeProcessing_enter_screen referenceOps pidFree noAlt viewRoom] at view
  have shown := congrFun (congrArg Reference.screen view)
    ⟨terminals.console.displayTerminal, displayLt⟩
  simp only [referenceOps, Reference.onTerminal, Console.view, if_true] at shown
  exact shown.symm

variable {editor : LineEditor}

theorem Terminals.RepresentsLines.enter_row (represents : terminals.RepresentsLines editor)
    (pidFree : Bool) (noAlt : editor.held scancodeLeftAlt = false) :
    ∀ k < printLim, (terminals.step (.key pidFree 28)).keyboard.printBuffer
        (printRow terminals.console.displayTerminal + k) =
      (editor.current.append (editor.character scancodeEnter)).text.getD k 0 := by
  have shown : terminals.console.displayTerminal = editor.display := represents.display
  rw [shown]
  exact ((represents.step (.key pidFree 28)).handed _ _ (editor.key_enter noAlt)).2

/-- A line with room ends with the newline. -/
theorem Terminals.RepresentsLines.enter_room (represents : terminals.RepresentsLines editor)
    (driven : Driven terminals.console terminals.keyboard) (pidFree : Bool)
    (noShift : editor.shift = false) (noAlt : editor.held scancodeLeftAlt = false)
    (room : editor.current.text.length < 128) :
    terminals.EnterEndsLine pidFree editor.current.text := by
  have shown : terminals.console.displayTerminal = editor.display := represents.display
  have newline : editor.character scancodeEnter = 10 := by
    rw [LineEditor.character, noShift, keyCharacter_enter]
  have mapped : scancodesMap scancodeEnter ≠ 0 := by decide
  have typed := represents.characterConvert_eq mapped
  constructor
  · have kept : editor.current.text.take 127 = editor.current.text :=
      List.take_of_length_le (Nat.le_of_lt_succ room)
    have row := represents.enter_row pidFree noAlt
    rw [newline, Line.append_of_lt room] at row
    rw [kept]
    exact row
  · have cursorRoom : terminals.keyboard.cursorInd terminals.console.displayTerminal < 128 := by
      rw [shown, represents.cursor]
      exact room
    have echo := enter_echo driven pidFree (represents.held ▸ noAlt) cursorRoom
    rw [typed, newline] at echo
    exact echo

/-- A full line is handed over as it is. -/
theorem Terminals.RepresentsLines.enter_full (represents : terminals.RepresentsLines editor)
    (lacks : editor.Lacks 10) (pidFree : Bool) (noAlt : editor.held scancodeLeftAlt = false)
    (full : ¬ editor.current.text.length < 128) :
    ¬ terminals.EnterEndsLine pidFree editor.current.text := by
  rintro ⟨newline, -⟩
  have row := represents.enter_row pidFree noAlt
  rw [Line.append_of_full full] at row
  -- The last character of the line stands where the newline should be.
  have length : editor.current.text.length = 128 :=
    Nat.le_antisymm editor.current.short (Nat.le_of_not_lt full)
  have last : editor.current.text.getD 127 0 = 10 := by
    rw [← row 127 (by decide), newline 127 (by decide)]
    simp [length]
  rw [List.getD_eq_getElem _ _ (by omega)] at last
  exact lacks editor.display (last ▸ List.getElem_mem _)

end State

/-- What was typed before an Enter without modifiers: after the events neither
Shift nor Alt is held, and the displayed terminal has a text. -/
def LineEditor.Typed (events : List Event) (text : List UInt8) : Prop :=
  let editor := events.foldl step initial
  editor.shift = false ∧ editor.held scancodeLeftAlt = false ∧ editor.current.text = text

section Run

variable {events : List Event} {text : List UInt8}

theorem LineEditor.Typed.enter_full (typed : Typed events text) (full : ¬ text.length < 128)
    (paging : PageTables) (memory : Memory) (printBuffer : Nat → UInt8) (pidFree : Bool) :
    ¬ (events.foldl Terminals.step
      (Terminals.boot paging memory printBuffer)).EnterEndsLine pidFree text := by
  obtain ⟨-, noAlt, rfl⟩ := typed
  have represents := Terminals.run_representsLines paging memory printBuffer events
  exact represents.enter_full (run_lacksNewline events) pidFree noAlt full

/-- A submitted line ends with the newline of its Enter exactly when fewer than
`128` characters were on it, whatever happened since boot. -/
theorem enter_newline_iff (typed : LineEditor.Typed events text) (paging : PageTables)
    (memory : Memory) (printBuffer : Nat → UInt8) (pidFree : Bool) :
    (events.foldl Terminals.step
        (Terminals.boot paging memory printBuffer)).EnterEndsLine pidFree text ↔
      text.length < 128 := by
  constructor
  · intro ends
    by_contra full
    exact typed.enter_full full paging memory printBuffer pidFree ends
  · intro room
    obtain ⟨noShift, noAlt, rfl⟩ := typed
    have represents := Terminals.run_representsLines paging memory printBuffer events
    have driven := (run_simulates paging memory printBuffer events).1
    exact represents.enter_room driven pidFree noShift noAlt room

end Run

/-- One `a` and Enter. -/
theorem enter_newline_a :
    ([Event.key true 30].foldl Terminals.step
      (Terminals.boot zeroTables (fun _ => 0) fun _ => 0)).EnterEndsLine true [97] :=
  have typed : LineEditor.Typed [.key true 30] [97] := ⟨rfl, rfl, rfl⟩
  (enter_newline_iff typed zeroTables (fun _ => 0) (fun _ => 0) true).mpr (by decide)

theorem LineEditor.typed_replicate :
    Typed (List.replicate 128 (.key true 30)) (List.replicate 128 97) := by
  unfold Typed
  decide +kernel

/-- The `a` key, held down until the line is full, and Enter. -/
theorem enter_newline_lost :
    let events := List.replicate 128 (Event.key true 30)
    let text := List.replicate 128 97
    let terminals :=
      events.foldl Terminals.step (Terminals.boot zeroTables (fun _ => 0) fun _ => 0)
    LineEditor.Typed events text ∧ ¬ terminals.EnterEndsLine true text := by
  have typed := LineEditor.typed_replicate
  have full : ¬ (List.replicate 128 (97 : UInt8)).length < 128 := by
    rw [List.length_replicate]
    decide
  exact ⟨typed, typed.enter_full full zeroTables (fun _ => 0) (fun _ => 0) true⟩

/-! ## Zeros -/

namespace LineEditor

/-- No line holds a zero, and none was handed over. -/
structure NoNul (editor : LineEditor) : Prop where
  lacks : editor.Lacks 0
  handed : ∀ t line, editor.submitted t = some line → 0 ∉ line.text

theorem initial_noNul : initial.NoNul := by
  constructor
  · exact initial_lacks 0
  · rintro t line ⟨⟩

/-- A key that puts a zero on the line: Shift with a key that has no shifted
character, without Alt, where the line has room. -/
def TypesNul (editor : LineEditor) : Event → Prop
  | .key _ c =>
      unshifted c.toNat = true ∧ editor.shift = true ∧ editor.held scancodeLeftAlt = false ∧
        editor.current.text.length < 128
  | _ => False

theorem unshifted_cases {c : Nat} (isUnshifted : unshifted c = true) :
    c = 57 ∨ c = 15 ∨ c = 28 ∨ c = 78 := by
  simpa [unshifted] using isUnshifted

/-- Holding one of these keys changes no modifier. -/
theorem hold_unshifted {c : Nat} (isUnshifted : unshifted c = true) (editor : LineEditor) :
    (editor.hold c).shift = editor.shift ∧
      (editor.hold c).held scancodeLeftAlt = editor.held scancodeLeftAlt := by
  rcases unshifted_cases isUnshifted with rfl | rfl | rfl | rfl
  all_goals exact ⟨rfl, rfl⟩

/-- They are mapped keys without a function of their own, but for Enter. -/
theorem unshifted_mapped {c : Nat} (isUnshifted : unshifted c = true) :
    c < 128 ∧ scancodesMap c ≠ 0 ∧ c ≠ scancodeL ∧ c ≠ scancodeBackspace := by
  rcases unshifted_cases isUnshifted with rfl | rfl | rfl | rfl
  all_goals decide

namespace NoNul

variable {editor : LineEditor}

theorem typed (clean : editor.NoNul) {pidFree : Bool} {c : UInt8}
    (other : ¬ editor.TypesNul (.key pidFree c)) (pressed : c.toNat < 128) :
    ((editor.hold c.toNat).type c.toNat).Lacks 0 := by
  have holding : (editor.hold c.toNat).Lacks 0 := clean.lacks
  apply holding.type
  intro mapped noAlt room isZero
  obtain ⟨shift, isUnshifted⟩ := (keyCharacter_eq_zero_iff _ pressed mapped _ _).mp isZero
  obtain ⟨shiftEq, altEq⟩ := hold_unshifted isUnshifted editor
  exact other ⟨isUnshifted, shiftEq ▸ shift, altEq ▸ noAlt, room⟩

theorem key (clean : editor.NoNul) {pidFree : Bool} {c : UInt8}
    (other : ¬ editor.TypesNul (.key pidFree c)) : (editor.key c.toNat).NoNul := by
  constructor
  · exact clean.lacks.key fun pressed _ => clean.typed other pressed
  · intro t line isSubmitted
    rw [key_submitted] at isSubmitted
    split at isSubmitted
    · next enter =>
      have pressed : c.toNat < 128 := by
        rw [enter]
        decide
      by_cases here : t = editor.display
      · rw [here, Function.update_self, Option.some.injEq] at isSubmitted
        rw [← isSubmitted]
        exact clean.typed other pressed _
      · rw [Function.update_of_ne here] at isSubmitted
        exact clean.handed t line isSubmitted
    · exact clean.handed t line isSubmitted

/-- Such a key leaves a zero on its line, or on the one it hands over. -/
theorem not_key {pidFree : Bool} {c : UInt8} (types : editor.TypesNul (.key pidFree c)) :
    ¬ (editor.key c.toNat).NoNul := by
  obtain ⟨isUnshifted, shift, noAlt, room⟩ := types
  generalize c.toNat = code at isUnshifted
  obtain ⟨pressed, mapped, notL, notBackspace⟩ := unshifted_mapped isUnshifted
  obtain ⟨shiftEq, altEq⟩ := hold_unshifted isUnshifted editor
  have isZero : (editor.hold code).character code = 0 :=
    (keyCharacter_eq_zero_iff code pressed mapped _ _).mpr ⟨shiftEq.trans shift, isUnshifted⟩
  have appended : (0 : UInt8) ∈ (editor.current.append 0).text := by
    rw [Line.append_of_lt room]
    exact List.mem_append_right _ (List.mem_singleton_self 0)
  intro clean
  by_cases enter : code = scancodeEnter
  · subst enter
    have handed := editor.key_enter noAlt
    have sameKey : editor.character scancodeEnter = 0 := isZero
    rw [sameKey] at handed
    exact clean.handed _ _ handed appended
  · apply clean.lacks editor.display
    have typed := type_of_mapped notL (altEq.trans noAlt) mapped
    rw [LineEditor.key, if_neg (Nat.not_lt_of_le (Nat.le_of_lt_succ pressed)), typed, isZero]
    simp only [if_neg enter, if_neg notBackspace]
    have current := (editor.hold code).current_setCurrent (editor.current.append 0)
    exact congrArg Line.text current ▸ appended

theorem step_iff (clean : editor.NoNul) (event : Event) :
    (editor.step event).NoNul ↔ ¬ editor.TypesNul event := by
  cases event with
  | key pidFree c =>
      constructor
      · intro kept types
        exact not_key types kept
      · intro other
        exact clean.key other
  | _ => exact iff_of_true ⟨clean.lacks, clean.handed⟩ not_false

end NoNul

end LineEditor

end PonyOS.Terminal
