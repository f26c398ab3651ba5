import PonyOS.Terminal.Console

/-!
# The keyboard driver and the terminal device

One handler serves every scancode byte: it tracks the modifiers, edits the
line of the displayed terminal, echoes through the screen routines, hands a
finished line to `print_buffer`, and asks for a shell on `Alt+F2` and
`Alt+F3`.  The handler is written over the screen routines it calls, so that
the same text runs on the console and on any other screen.
-/

namespace PonyOS.Terminal

open PonyOS.Lib.Word

universe u

/-! ## Key tables -/

/-- The assignments of `init_scancodes_map` to `scancodes_map`. -/
def scancodeTable : List (Nat × Char) :=
  [(82, '0'), (79, '1'), (80, '2'), (81, '3'), (75, '4'), (76, '5'), (77, '6'),
    (71, '7'), (72, '8'), (73, '9'), (78, '+'), (74, '-'),
    (11, '0'), (2, '1'), (3, '2'), (4, '3'), (5, '4'), (6, '5'), (7, '6'),
    (8, '7'), (9, '8'), (10, '9'),
    (16, 'q'), (17, 'w'), (18, 'e'), (19, 'r'), (20, 't'), (21, 'y'), (22, 'u'),
    (23, 'i'), (24, 'o'), (25, 'p'),
    (30, 'a'), (31, 's'), (32, 'd'), (33, 'f'), (34, 'g'), (35, 'h'), (36, 'j'),
    (37, 'k'), (38, 'l'),
    (44, 'z'), (45, 'x'), (46, 'c'), (47, 'v'), (48, 'b'), (49, 'n'), (50, 'm'),
    (57, ' '), (15, Char.ofNat 9), (28, Char.ofNat 10), (51, ','), (52, '.'),
    (43, Char.ofNat 92), (53, '/'), (12, '-'), (13, '='), (40, Char.ofNat 39),
    (39, ';'), (26, '['), (27, ']')]

/-- `scancodes_map`. -/
def scancodesMap (c : Nat) : UInt8 :=
  ((scancodeTable.find? fun entry => entry.1 = c).map fun entry => entry.2.toUInt8).getD 0

/-- The assignments of `init_scancodes_map` to `special_convert_map`, other
than the letters. -/
def specialConvertTable : List (Char × Char) :=
  [('1', '!'), ('2', '@'), ('3', '#'), ('4', '$'), ('5', '%'), ('6', '^'), ('7', '&'),
    ('8', '*'), ('9', '('), ('0', ')'), ('-', '_'), ('=', '+'), ('[', Char.ofNat 123),
    (']', Char.ofNat 125), (Char.ofNat 92, '|'), (';', ':'), (Char.ofNat 39, Char.ofNat 34),
    (',', '<'), ('.', '>'), ('/', '?')]

/-- `special_convert_map`. -/
def specialConvertMap (res : UInt8) : UInt8 :=
  if 97 ≤ res ∧ res ≤ 122 then res - 32
  else if 65 ≤ res ∧ res ≤ 90 then res + 32
  else
    ((specialConvertTable.find? fun entry => entry.1.toUInt8 = res).map
      fun entry => entry.2.toUInt8).getD 0

/-- `SCANCODE_BACKSPACE`. -/
def scancodeBackspace : Nat := 14

/-- `SCANCODE_ENTER`. -/
def scancodeEnter : Nat := 28

/-- `SCANCODE_LEFTCONTROL`. -/
def scancodeLeftControl : Nat := 29

/-- `SCANCODE_L`. -/
def scancodeL : Nat := 38

/-- `SCANCODE_LEFTSHIFT`. -/
def scancodeLeftShift : Nat := 42

/-- `SCANCODE_RIGHTSHIFT`. -/
def scancodeRightShift : Nat := 54

/-- `SCANCODE_LEFTALT`. -/
def scancodeLeftAlt : Nat := 56

/-- `SCANCODE_CAPSLOCK`. -/
def scancodeCapsLock : Nat := 58

/-- `SCANCODE_F1`. -/
def scancodeF1 : Nat := 59

/-- `SCANCODE_F2`. -/
def scancodeF2 : Nat := 60

/-- `SCANCODE_F3`. -/
def scancodeF3 : Nat := 61

/-! ## State of the driver -/

/-- Globals of the keyboard driver.  The rows of `print_buffer` are adjacent,
so it is kept flat: row `t` starts at `2050 * t`. -/
structure Keyboard where
  pressedKey : Nat → Bool
  keyboardBuffer : Nat → Nat → UInt8
  printBuffer : Nat → UInt8
  capStatus : Bool
  cursorInd : Nat → Nat
  holdNum : Int
  terminalReadReady : Nat → Bool
  terminal2Running : Bool
  terminal3Running : Bool

/-- `PRINT_LIM`: bytes in one row of `print_buffer`. -/
def printLim : Nat := 2050

/-- Start of a row of `print_buffer`. -/
def printRow (terminalId : Nat) : Nat :=
  printLim * terminalId

namespace Keyboard

/-- `keyboard_init`, and the launch flags as the program image has them.
`print_buffer` is not initialised by it. -/
def keyboardInit (printBuffer : Nat → UInt8) : Keyboard :=
  { pressedKey := fun _ => false
    keyboardBuffer := fun _ _ => 0
    printBuffer := printBuffer
    capStatus := false
    cursorInd := fun _ => 0
    holdNum := 0
    terminalReadReady := fun _ => false
    terminal2Running := false
    terminal3Running := false }

/-- `character_convert`. -/
def characterConvert (keyboard : Keyboard) (c : Nat) : UInt8 :=
  if scancodesMap c = 0 then 0
  else
    let res := scancodesMap c
    let res := if keyboard.capStatus ∧ 97 ≤ res ∧ res ≤ 122 then specialConvertMap res else res
    if keyboard.pressedKey scancodeLeftShift ∨ keyboard.pressedKey scancodeRightShift then
      specialConvertMap res
    else res

/-- Empty the line of a terminal: the buffer is zeroed and the index reset. -/
def clearLine (keyboard : Keyboard) (terminalId : Nat) : Keyboard :=
  { keyboard with
    keyboardBuffer := Function.update keyboard.keyboardBuffer terminalId fun _ => 0
    cursorInd := Function.update keyboard.cursorInd terminalId 0 }

/-- Append a character to the line of a terminal. -/
def appendChar (keyboard : Keyboard) (terminalId : Nat) (c : UInt8) : Keyboard :=
  { keyboard with
    keyboardBuffer := Function.update keyboard.keyboardBuffer terminalId
      (Function.update (keyboard.keyboardBuffer terminalId) (keyboard.cursorInd terminalId) c)
    cursorInd := Function.update keyboard.cursorInd terminalId
      (keyboard.cursorInd terminalId + 1) }

/-- Drop the last character of the line of a terminal. -/
def dropChar (keyboard : Keyboard) (terminalId : Nat) : Keyboard :=
  { keyboard with
    keyboardBuffer := Function.update keyboard.keyboardBuffer terminalId
      (Function.update (keyboard.keyboardBuffer terminalId)
        (keyboard.cursorInd terminalId - 1) 0)
    cursorInd := Function.update keyboard.cursorInd terminalId
      (keyboard.cursorInd terminalId - 1) }

/-- `print_buffer` after the line of a terminal has been copied into its
zeroed row. -/
def submittedBuffer (keyboard : Keyboard) (terminalId : Nat) : Nat → UInt8 :=
  fun k =>
    if printRow terminalId ≤ k ∧ k < printRow terminalId + printLim then
      if k < printRow terminalId + 129 then
        keyboard.keyboardBuffer terminalId (k - printRow terminalId)
      else 0
    else keyboard.printBuffer k

/-- The Enter branch: hand the line over, raise the flag, start a new line. -/
def submitLine (keyboard : Keyboard) (terminalId : Nat) : Keyboard :=
  { keyboard.clearLine terminalId with
    printBuffer := keyboard.submittedBuffer terminalId
    terminalReadReady := Function.update keyboard.terminalReadReady terminalId true }

end Keyboard

/-! ## The handler -/

/-- The screen routines that the handler calls. -/
structure ScreenOps (σ : Type u) where
  displayTerminal : σ → Nat
  clear : σ → σ
  putcScrollDisplay : σ → UInt8 → σ
  eraseLastChDisplay : σ → σ
  setDisiplayTerminal : σ → Nat → σ

/-- The routines of the console. -/
def consoleOps : ScreenOps Console where
  displayTerminal := Console.displayTerminal
  clear := Console.clear
  putcScrollDisplay := Console.putcScrollDisplay
  eraseLastChDisplay := Console.eraseLastChDisplay
  setDisiplayTerminal := Console.setDisiplayTerminal

/-- What the handler leaves: the screen, the driver, and the terminal on which
it goes on to execute a shell, if any. -/
structure KeyResult (σ : Type u) where
  screen : σ
  keyboard : Keyboard
  launch : Option Nat

section Handler

variable {σ : Type u} (ops : ScreenOps σ) (pidFree : Bool)

/-- The branch taken while Alt is held.  `pidFree` is the answer of
`get_empty_pid`. -/
def altKey (screen : σ) (keyboard : Keyboard) (c : Nat) : KeyResult σ :=
  if c = scancodeF1 then
    { screen := ops.setDisiplayTerminal screen 0, keyboard := keyboard, launch := none }
  else if c = scancodeF2 then
    let shown := ops.setDisiplayTerminal screen 1
    if keyboard.terminal2Running = false ∧ pidFree = true then
      { screen := shown
        keyboard := { keyboard with terminal2Running := true }
        launch := some 1 }
    else { screen := shown, keyboard := keyboard, launch := none }
  else if c = scancodeF3 then
    let shown := ops.setDisiplayTerminal screen 2
    if keyboard.terminal3Running = false ∧ pidFree = true then
      { screen := shown
        keyboard := { keyboard with terminal3Running := true }
        launch := some 2 }
    else { screen := shown, keyboard := keyboard, launch := none }
  else { screen := screen, keyboard := keyboard, launch := none }

/-- All it changes in the driver is which shells are taken to run. -/
theorem altKey_keyboard (screen : σ) (keyboard : Keyboard) (c : Nat) :
    ∃ second third, (altKey ops pidFree screen keyboard c).keyboard =
      { keyboard with terminal2Running := second, terminal3Running := third } := by
  unfold altKey
  split
  · exact ⟨_, _, rfl⟩
  · split
    · simp only
      split
      · exact ⟨true, _, rfl⟩
      · exact ⟨_, _, rfl⟩
    · split
      · simp only
        split
        · exact ⟨_, true, rfl⟩
        · exact ⟨_, _, rfl⟩
      · exact ⟨_, _, rfl⟩

/-- Modifier bookkeeping for a key press. -/
def pressKey (keyboard : Keyboard) (c : Nat) : Keyboard :=
  { keyboard with
    pressedKey := Function.update keyboard.pressedKey c true
    holdNum := keyboard.holdNum + 1
    capStatus := if c = scancodeCapsLock then !keyboard.capStatus else keyboard.capStatus }

/-- Bookkeeping for a key release, for codes above `MAX_KEY_IND`. -/
def releaseKey (keyboard : Keyboard) (c : Nat) : Keyboard :=
  { keyboard with
    pressedKey := Function.update keyboard.pressedKey (c - 128) false
    holdNum := keyboard.holdNum - 1 }

/-- The first half of `scancode_processing`: release, or press with its
branches. -/
def makeBreak (screen : σ) (keyboard : Keyboard) (c : Nat) : KeyResult σ :=
  if c > 127 then { screen := screen, keyboard := releaseKey keyboard c, launch := none }
  else
    let keyboard := pressKey keyboard c
    let display := ops.displayTerminal screen
    if c = scancodeL ∧ keyboard.pressedKey scancodeLeftControl = true then
      { screen := ops.clear screen, keyboard := keyboard.clearLine display, launch := none }
    else if keyboard.pressedKey scancodeLeftAlt = true then
      altKey ops pidFree screen keyboard c
    else if scancodesMap c ≠ 0 ∧ keyboard.cursorInd display < 128 then
      { screen := ops.putcScrollDisplay screen (keyboard.characterConvert c)
        keyboard := keyboard.appendChar display (keyboard.characterConvert c)
        launch := none }
    else { screen := screen, keyboard := keyboard, launch := none }

/-- The Enter test of `scancode_processing`. -/
def enterKey (result : KeyResult σ) (c : Nat) : KeyResult σ :=
  if c = scancodeEnter then
    { result with
      keyboard := result.keyboard.submitLine (ops.displayTerminal result.screen) }
  else result

/-- The Backspace test of `scancode_processing`. -/
def backspaceKey (result : KeyResult σ) (c : Nat) : KeyResult σ :=
  let display := ops.displayTerminal result.screen
  if c = scancodeBackspace ∧ result.keyboard.cursorInd display ≠ 0 then
    { result with
      screen := ops.eraseLastChDisplay result.screen
      keyboard := result.keyboard.dropChar display }
  else result

/-- `scancode_processing`.  The early returns inside the Alt branch are only
taken for function keys, on which the two later tests do nothing. -/
def scancodeProcessing (screen : σ) (keyboard : Keyboard) (c : UInt8) : KeyResult σ :=
  backspaceKey ops (enterKey ops (makeBreak ops pidFree screen keyboard c.toNat) c.toNat)
    c.toNat

end Handler

/-! ## The terminal device -/

/-- The terminals as a whole. -/
structure Terminals where
  console : Console
  keyboard : Keyboard

namespace Terminals

/-- `terminal_write` with the bytes at `buf`.  A negative count is copied as a
length of more than two gigabytes, which runs off the end of the kernel page
and stops the machine; there is no result. -/
def terminalWrite (terminals : Terminals) (buf : Nat → UInt8) (count : Int) :
    Option (Int × Terminals) :=
  let row := printRow terminals.console.activeTerminal
  let lim := if count < printLim then count else printLim
  if lim < 0 then none
  else
    let copied : Nat → UInt8 := fun k =>
      if row ≤ k ∧ k < row + lim.toNat then buf (k - row)
      else if k = row + lim.toNat then 0
      else terminals.keyboard.printBuffer k
    some (count,
      { console := terminals.console.putsScroll (fun index => copied (row + index)) lim
        keyboard := { terminals.keyboard with printBuffer := copied } })

/-- The bytes that `terminal_read` copies out for a given count. -/
def readLine (terminals : Terminals) (count : Nat) : List UInt8 :=
  (List.range count).map fun k =>
    terminals.keyboard.printBuffer (printRow terminals.console.activeTerminal + k)

/-- The flag that `terminal_read` waits for. -/
def lineReady (terminals : Terminals) : Bool :=
  terminals.keyboard.terminalReadReady terminals.console.activeTerminal

/-- The last store of `terminal_read`. -/
def clearReady (terminals : Terminals) : Terminals :=
  { terminals with
    keyboard := { terminals.keyboard with
      terminalReadReady := Function.update terminals.keyboard.terminalReadReady
        terminals.console.activeTerminal false } }

end Terminals

end PonyOS.Terminal
