import PonyOS.Terminal.Keyboard

/-!
# What drawing leaves alone

The page tables and the two terminal numbers are control state.  No drawing
routine changes them, wherever the cursors are and whatever the tables map, and
a key changes them only through `set_disiplay_terminal`.
-/

namespace PonyOS.Terminal

open PonyOS.Lib.Loop
open PonyOS.Paging

universe u

/-- Page tables, active terminal and displayed terminal. -/
structure Control where
  paging : PageTables
  activeTerminal : Nat
  displayTerminal : Nat

namespace Console

/-- The control state of a console. -/
def control (console : Console) : Control :=
  { paging := console.paging
    activeTerminal := console.activeTerminal
    displayTerminal := console.displayTerminal }

@[simp]
theorem storeAs_control (user : Bool) (console : Console) (address : Nat) (byte : UInt8) :
    (storeAs user console address byte).control = console.control := by
  unfold storeAs
  split <;> rfl

@[simp]
theorem store_control (console : Console) (address : Nat) (byte : UInt8) :
    (console.store address byte).control = console.control :=
  storeAs_control false console address byte

@[simp]
theorem updateCursor_control (console : Console) (x y : Int) :
    (console.updateCursor x y).control = console.control := by
  cases console
  rfl

@[simp]
theorem setCursor_control (console : Console) (terminalId : Nat) (x y : Int) :
    (console.setCursor terminalId x y).control = console.control := by
  cases console
  rfl

@[simp]
theorem putCell_control (console : Console) (base : Nat) (x y : Int) (c : UInt8) :
    (console.putCell base x y c).control = console.control := by
  simp [putCell]

@[simp]
theorem memcpy_control (console : Console) (dest src n : Nat) :
    (console.memcpy dest src n).control = console.control :=
  forUpTo_frame control (fun _ _ => store_control _ _ _) n console

@[simp]
theorem shiftUpAt_control (console : Console) (base terminalId : Nat) :
    (console.shiftUpAt base terminalId).control = console.control := by
  have row : ∀ (y : Nat) (state : Console), (forUpTo 80 (fun x (state : Console) =>
      state.putCell base (x : Nat) (y : Nat)
        (state.load (cellAddress base (x : Nat) (y + 1 : Nat)))) state).control =
      state.control := by
    intro y state
    exact forUpTo_frame control (fun _ _ => putCell_control _ _ _ _ _) 80 state
  simp only [shiftUpAt, setCursor_control]
  rw [forUpTo_frame control (fun _ _ => putCell_control _ _ _ _ _) 80]
  exact forUpTo_frame control row 24 console

@[simp]
theorem scrollAt_control (console : Console) (base terminalId : Nat) :
    (console.scrollAt base terminalId).control = console.control :=
  whileDo_frame control (fun _ => shiftUpAt_control _ _ _) 2 console

@[simp]
theorem putcScrollAt_control (console : Console) (base terminalId : Nat) (c : UInt8) :
    (console.putcScrollAt base terminalId c).control = console.control := by
  unfold putcScrollAt
  split <;> simp

@[simp]
theorem putcScroll_control (console : Console) (c : UInt8) :
    (console.putcScroll c).control = console.control := by
  simp only [putcScroll]
  split <;> simp

theorem putsScroll_control (console : Console) (s : Nat → UInt8) (len : Int) :
    (console.putsScroll s len).control = console.control :=
  forUpTo_frame control (fun _ _ => putcScroll_control _ _) _ console

@[simp]
theorem putcScrollDisplay_control (console : Console) (c : UInt8) :
    (console.putcScrollDisplay c).control = console.control := by
  simp [putcScrollDisplay]

@[simp]
theorem eraseLastChDisplay_control (console : Console) :
    console.eraseLastChDisplay.control = console.control := by
  simp only [eraseLastChDisplay, updateCursor_control, putCell_control]
  split <;> simp

@[simp]
theorem clear_control (console : Console) : console.clear.control = console.control := by
  simp only [clear, updateCursor_control]
  rw [forUpTo_frame control (fun _ _ => by simp) 2000, setCursor_control]

theorem showTerminal_control (console : Console) (terminalId : Nat) :
    (console.showTerminal terminalId).control =
      { paging := console.control.paging.setActiveTerminalPaging console.control.activeTerminal
          (console.control.activeTerminal = terminalId)
        activeTerminal := console.control.activeTerminal
        displayTerminal := terminalId } := by
  cases console
  rfl

theorem setDisiplayTerminal_control (console : Console) (terminalId : Nat) :
    (console.setDisiplayTerminal terminalId).control =
      { paging := console.paging.setActiveTerminalPaging console.activeTerminal
          (console.activeTerminal = terminalId)
        activeTerminal := console.activeTerminal
        displayTerminal := terminalId } := by
  rw [setDisiplayTerminal, showTerminal_control, memcpy_control, memcpy_control]
  rfl

end Console

/-- The display switch that a key asks for, if any. -/
def switchOf (keyboard : Keyboard) (c : Nat) : Option Nat :=
  if c > 127 then none
  else if c = scancodeL ∧ (pressKey keyboard c).pressedKey scancodeLeftControl = true then none
  else if (pressKey keyboard c).pressedKey scancodeLeftAlt = true then
    if c = scancodeF1 then some 0
    else if c = scancodeF2 then some 1
    else if c = scancodeF3 then some 2
    else none
  else none

/-- The terminal on which a key asks for a shell, if any: one that it shows and
that was not launched, while a pid is free. -/
def launchOf (pidFree : Bool) (keyboard : Keyboard) (c : Nat) : Option Nat :=
  match switchOf keyboard c with
  | some 1 => if keyboard.terminal2Running = false ∧ pidFree = true then some 1 else none
  | some 2 => if keyboard.terminal3Running = false ∧ pidFree = true then some 2 else none
  | _ => none

/-- What the first half of the handler does to the screen, with the display
switch that it makes. -/
inductive ScreenChange {σ : Type u} (ops : ScreenOps σ) (screen : σ) : Option Nat → σ → Prop
  | same : ScreenChange ops screen none screen
  | cleared : ScreenChange ops screen none (ops.clear screen)
  | echoed (c : UInt8) : ScreenChange ops screen none (ops.putcScrollDisplay screen c)
  | shown (terminalId : Nat) :
      ScreenChange ops screen (some terminalId) (ops.setDisiplayTerminal screen terminalId)

section Screen

variable {σ : Type u} (ops : ScreenOps σ) (pidFree : Bool) (screen : σ) (keyboard : Keyboard)

theorem altKey_screen (c : Nat) :
    ScreenChange ops screen
      (if c = scancodeF1 then some 0
        else if c = scancodeF2 then some 1
        else if c = scancodeF3 then some 2
        else none)
      (altKey ops pidFree screen keyboard c).screen := by
  unfold altKey
  by_cases first : c = scancodeF1
  · rw [if_pos first, if_pos first]
    exact .shown 0
  rw [if_neg first, if_neg first]
  by_cases second : c = scancodeF2
  · rw [if_pos second, if_pos second]
    by_cases asked : keyboard.terminal2Running = false ∧ pidFree = true
    · simp only [if_pos asked]
      exact .shown 1
    · simp only [if_neg asked]
      exact .shown 1
  rw [if_neg second, if_neg second]
  by_cases third : c = scancodeF3
  · rw [if_pos third, if_pos third]
    by_cases asked : keyboard.terminal3Running = false ∧ pidFree = true
    · simp only [if_pos asked]
      exact .shown 2
    · simp only [if_neg asked]
      exact .shown 2
  · rw [if_neg third, if_neg third]
    exact .same

theorem makeBreak_screen (c : Nat) :
    ScreenChange ops screen (switchOf keyboard c)
      (makeBreak ops pidFree screen keyboard c).screen := by
  unfold makeBreak switchOf
  by_cases release : c > 127
  · rw [if_pos release, if_pos release]
    exact .same
  rw [if_neg release, if_neg release]
  by_cases clears : c = scancodeL ∧ (pressKey keyboard c).pressedKey scancodeLeftControl = true
  · simp only [if_pos clears]
    exact .cleared
  simp only [if_neg clears]
  by_cases alt : (pressKey keyboard c).pressedKey scancodeLeftAlt = true
  · simp only [if_pos alt]
    exact altKey_screen ops pidFree screen (pressKey keyboard c) c
  simp only [if_neg alt]
  split
  · exact .echoed _
  · exact .same

end Screen

/-- A key changes the control state by its display switch only. -/
theorem scancodeProcessing_control (pidFree : Bool) (console : Console) (keyboard : Keyboard)
    (c : UInt8) :
    (scancodeProcessing consoleOps pidFree console keyboard c).screen.control =
      match switchOf keyboard c.toNat with
      | none => console.control
      | some terminalId => (console.setDisiplayTerminal terminalId).control := by
  have first : (makeBreak consoleOps pidFree console keyboard c.toNat).screen.control =
      match switchOf keyboard c.toNat with
      | none => console.control
      | some terminalId => (console.setDisiplayTerminal terminalId).control := by
    have changed := makeBreak_screen consoleOps pidFree console keyboard c.toNat
    generalize switchOf keyboard c.toNat = switched at changed ⊢
    generalize (makeBreak consoleOps pidFree console keyboard c.toNat).screen = screen
      at changed ⊢
    cases changed with
    | same => rfl
    | cleared => exact console.clear_control
    | echoed c => exact console.putcScrollDisplay_control c
    | shown terminalId => rfl
  rw [scancodeProcessing, ← first]
  generalize makeBreak consoleOps pidFree console keyboard c.toNat = before
  have entered : (enterKey consoleOps before c.toNat).screen = before.screen := by
    unfold enterKey
    split <;> rfl
  rw [← entered]
  generalize enterKey consoleOps before c.toNat = result
  unfold backspaceKey
  dsimp only
  split
  · exact result.screen.eraseLastChDisplay_control
  · rfl

/-- The launch flags around a key: a shell is asked for on a terminal at most
once, and only then is its flag raised. -/
inductive LaunchFlags (before after : Keyboard) : Option Nat → Prop
  | same : after.terminal2Running = before.terminal2Running →
      after.terminal3Running = before.terminal3Running → LaunchFlags before after none
  | second : before.terminal2Running = false → after.terminal2Running = true →
      after.terminal3Running = before.terminal3Running → LaunchFlags before after (some 1)
  | third : before.terminal3Running = false → after.terminal3Running = true →
      after.terminal2Running = before.terminal2Running → LaunchFlags before after (some 2)

namespace LaunchFlags

theorem congr {before after source target : Keyboard} {launch : Option Nat}
    (flags : LaunchFlags before after launch)
    (sourceSecond : source.terminal2Running = before.terminal2Running)
    (sourceThird : source.terminal3Running = before.terminal3Running)
    (targetSecond : target.terminal2Running = after.terminal2Running)
    (targetThird : target.terminal3Running = after.terminal3Running) :
    LaunchFlags source target launch := by
  cases flags with
  | same second third =>
      exact .same (by rw [targetSecond, second, sourceSecond])
        (by rw [targetThird, third, sourceThird])
  | second wasFree raised third =>
      exact .second (sourceSecond.trans wasFree) (targetSecond.trans raised)
        (by rw [targetThird, third, sourceThird])
  | third wasFree raised second =>
      exact .third (sourceThird.trans wasFree) (targetThird.trans raised)
        (by rw [targetSecond, second, sourceSecond])

end LaunchFlags

section Launch

variable {σ : Type u} (ops : ScreenOps σ) (pidFree : Bool) (screen : σ) (keyboard : Keyboard)

theorem altKey_launch (c : Nat) :
    LaunchFlags keyboard (altKey ops pidFree screen keyboard c).keyboard
      (altKey ops pidFree screen keyboard c).launch := by
  unfold altKey
  split
  · exact .same rfl rfl
  · split
    · by_cases asked : keyboard.terminal2Running = false ∧ pidFree = true
      · simp only [asked, and_self, if_true]
        exact .second asked.1 rfl rfl
      · simp only [asked, if_false]
        exact .same rfl rfl
    · split
      · by_cases asked : keyboard.terminal3Running = false ∧ pidFree = true
        · simp only [asked, and_self, if_true]
          exact .third asked.1 rfl rfl
        · simp only [asked, if_false]
          exact .same rfl rfl
      · exact .same rfl rfl

theorem scancodeProcessing_launch (c : UInt8) :
    LaunchFlags keyboard (scancodeProcessing ops pidFree screen keyboard c).keyboard
      (scancodeProcessing ops pidFree screen keyboard c).launch := by
  have first : LaunchFlags keyboard (makeBreak ops pidFree screen keyboard c.toNat).keyboard
      (makeBreak ops pidFree screen keyboard c.toNat).launch := by
    unfold makeBreak
    split
    · exact .same rfl rfl
    · simp only
      split
      · exact .same rfl rfl
      · split
        · exact (altKey_launch ops pidFree screen (pressKey keyboard c.toNat) c.toNat).congr
            rfl rfl rfl rfl
        · split
          · exact .same rfl rfl
          · exact .same rfl rfl
  rw [scancodeProcessing]
  generalize makeBreak ops pidFree screen keyboard c.toNat = before at first ⊢
  have entered : LaunchFlags keyboard (enterKey ops before c.toNat).keyboard
      (enterKey ops before c.toNat).launch := by
    unfold enterKey
    split
    · exact first.congr rfl rfl rfl rfl
    · exact first
  generalize enterKey ops before c.toNat = result at entered ⊢
  unfold backspaceKey
  simp only
  split
  · exact entered.congr rfl rfl rfl rfl
  · exact entered

theorem altKey_launch_eq (c : Nat) :
    (altKey ops pidFree screen keyboard c).launch =
      if c = scancodeF1 then none
      else if c = scancodeF2 then
        if keyboard.terminal2Running = false ∧ pidFree = true then some 1 else none
      else if c = scancodeF3 then
        if keyboard.terminal3Running = false ∧ pidFree = true then some 2 else none
      else none := by
  unfold altKey
  split
  · rfl
  split
  · dsimp only
    split <;> rfl
  split
  · dsimp only
    split <;> rfl
  · rfl

/-- The shell that the handler asks for, from the driver alone. -/
theorem scancodeProcessing_launch_eq (c : UInt8) :
    (scancodeProcessing ops pidFree screen keyboard c).launch =
      launchOf pidFree keyboard c.toNat := by
  have first : (makeBreak ops pidFree screen keyboard c.toNat).launch =
      launchOf pidFree keyboard c.toNat := by
    unfold makeBreak launchOf switchOf
    split
    · rfl
    dsimp only
    split
    · rfl
    split
    · rw [altKey_launch_eq]
      split
      · rfl
      split
      · rfl
      split
      · rfl
      · rfl
    · split <;> rfl
  rw [← first, scancodeProcessing]
  generalize makeBreak ops pidFree screen keyboard c.toNat = before
  have entered : (enterKey ops before c.toNat).launch = before.launch := by
    unfold enterKey
    split <;> rfl
  rw [← entered]
  generalize enterKey ops before c.toNat = result
  unfold backspaceKey
  dsimp only
  split <;> rfl

end Launch

end PonyOS.Terminal
