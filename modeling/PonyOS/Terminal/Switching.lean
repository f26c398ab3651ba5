import PonyOS.Terminal.Reference

/-!
# Switches, keys and whole runs

The two switches move text between frames and remap one page, and leave every
logical screen as it was.  The keyboard handler runs the same text on the
console and on private screens; each of its stages keeps the simulation.  The
last section runs both machines from boot on any list of events.
-/

namespace PonyOS.Terminal

open PonyOS.Lib.Loop
open PonyOS.Lib.Transition
open PonyOS.Lib.Word
open PonyOS.Paging

namespace Console

/-! ## Switches -/

/-- The frame that `set_active_terminal_paging` maps is the one that holds the
text of the terminal. -/
theorem remapped_frame (console : Console) {terminalId : Nat} (terminalLt : terminalId < 3) :
    (if decide (terminalId = console.displayTerminal) = true then videoInd
      else frameBits (videoInd + terminalId + 1)) = console.logicalPage terminalId := by
  unfold logicalPage videoInd
  rw [frameBits_of_lt (by omega)]
  by_cases displayed : terminalId = console.displayTerminal
  · simp [displayed]
  · simp only [displayed, decide_false, Bool.false_eq_true, if_false]
    omega

theorem Coherent.setActiveTerminal {console : Console} (coherent : console.Coherent)
    {terminalId : Nat} (terminalLt : terminalId < 3) :
    (console.setActiveTerminal terminalId).Coherent := by
  obtain ⟨task, shape⟩ := coherent.shape
  have remapped := shape.setActiveTerminalPaging terminalId
    (decide (terminalId = console.displayTerminal))
  rw [console.remapped_frame terminalLt] at remapped
  exact ⟨⟨task, remapped⟩, terminalLt, coherent.display_lt, coherent.onScreen, coherent.cursor⟩

theorem Coherent.setupTaskPage {console : Console} (coherent : console.Coherent) (ind : Nat) :
    (console.setupTaskPage ind).Coherent := by
  obtain ⟨task, shape⟩ := coherent.shape
  exact ⟨⟨some ind, shape.setupTaskPage ind⟩, coherent.active_lt, coherent.display_lt,
    coherent.onScreen, coherent.cursor⟩

/-- Saving the displayed terminal puts the text of every terminal into its
backing page. -/
theorem pageOf_saved (console : Console) (terminalId : Nat) :
    (console.withPage (0xB9 + console.displayTerminal) (console.pageOf 0xB8)).pageOf
        (0xB9 + terminalId) =
      console.pageOf (console.logicalPage terminalId) := by
  unfold logicalPage
  by_cases displayed : terminalId = console.displayTerminal
  · rw [if_pos displayed, displayed, pageOf_withPage_self]
  · rw [if_neg displayed, pageOf_withPage_of_ne _ _ (by omega)]

/-- `set_disiplay_terminal` with its copies replaced by what they write. -/
theorem Coherent.setDisiplayTerminal_eq {console : Console} (coherent : console.Coherent)
    {terminalId : Nat} (terminalLt : terminalId < 3) :
    console.setDisiplayTerminal terminalId =
      (({ (console.withPage (0xB9 + console.displayTerminal) (console.pageOf 0xB8)).withPage
            0xB8 (console.pageOf (console.logicalPage terminalId)) with
          displayTerminal := terminalId } : Console).setActiveTerminal
        console.activeTerminal).updateCursor
          (console.screenX terminalId) (console.screenY terminalId) := by
  have saved := memcpy_eq console (coherent.maps_terminalMem coherent.display_lt)
    coherent.maps_physicalVideoMem (by omega)
  have shown := memcpy_eq
    (console.withPage (0xB9 + console.displayTerminal) (console.pageOf 0xB8))
    coherent.maps_physicalVideoMem (coherent.maps_terminalMem terminalLt) (by omega)
  rw [pageOf_saved] at shown
  rw [setDisiplayTerminal, saved, shown]
  rfl

/-- A display switch changes no logical screen. -/
theorem Coherent.setDisiplayTerminal_logicalScreen {console : Console}
    (coherent : console.Coherent) {terminalId : Nat} (terminalLt : terminalId < 3)
    (other : Nat) :
    (console.setDisiplayTerminal terminalId).logicalScreen other =
      console.logicalScreen other := by
  rw [coherent.setDisiplayTerminal_eq terminalLt]
  ext1
  · change pageOf ((console.withPage _ _).withPage 0xB8 _)
      (if other = terminalId then 0xB8 else 0xB9 + other) = _
    by_cases shown : other = terminalId
    · rw [if_pos shown, pageOf_withPage_self, shown]
      rfl
    · rw [if_neg shown, pageOf_withPage_of_ne _ _ (by omega), pageOf_saved]
      rfl
  · rfl
  · rfl

theorem Coherent.setDisiplayTerminal_view {console : Console} (coherent : console.Coherent)
    {terminalId : Nat} (terminalLt : terminalId < 3) :
    (console.setDisiplayTerminal terminalId).view =
      { console.view with displayTerminal := terminalId } := by
  have screens : (fun t : Fin 3 => (console.setDisiplayTerminal terminalId).logicalScreen t) =
      fun t : Fin 3 => console.logicalScreen t := by
    funext t
    exact coherent.setDisiplayTerminal_logicalScreen terminalLt t
  rw [view, screens, coherent.setDisiplayTerminal_eq terminalLt]
  rfl

theorem Coherent.setDisiplayTerminal_activeTerminal {console : Console}
    (coherent : console.Coherent) {terminalId : Nat} (terminalLt : terminalId < 3) :
    (console.setDisiplayTerminal terminalId).activeTerminal = console.activeTerminal := by
  rw [coherent.setDisiplayTerminal_eq terminalLt]
  rfl

theorem Coherent.setDisiplayTerminal {console : Console} (coherent : console.Coherent)
    {terminalId : Nat} (terminalLt : terminalId < 3) :
    (console.setDisiplayTerminal terminalId).Coherent := by
  have screens := coherent.setDisiplayTerminal_logicalScreen terminalLt
  have switchedEq := coherent.setDisiplayTerminal_eq terminalLt
  generalize switched : console.setDisiplayTerminal terminalId = target at screens switchedEq
  have onScreen : ∀ t : Fin 3, (target.logicalScreen t).OnScreen := by
    intro t
    rw [screens]
    exact coherent.onScreen t
  have display : target.displayTerminal = terminalId := by
    rw [switchedEq]
    rfl
  constructor
  · obtain ⟨task, shape⟩ := coherent.shape
    have active : target.activeTerminal = console.activeTerminal := by
      rw [switchedEq]
      rfl
    have paging : target.paging = console.paging.setActiveTerminalPaging console.activeTerminal
        (decide (console.activeTerminal = target.displayTerminal)) := by
      rw [display, switchedEq]
      rfl
    have remapped := shape.setActiveTerminalPaging console.activeTerminal
      (decide (console.activeTerminal = target.displayTerminal))
    rw [target.remapped_frame coherent.active_lt] at remapped
    rw [active, paging]
    exact ⟨task, remapped⟩
  · rw [switchedEq]
    exact coherent.active_lt
  · rw [display]
    exact terminalLt
  · exact onScreen
  · have on := coherent.onScreen_of_lt terminalLt
    rw [display, screens, switchedEq]
    exact congrArg Console.hardwareCursor
      (updateCursor_of_onScreen _ on : updateCursor _ _ _ = _)

end Console

/-! ## The keyboard handler -/

/-- The console and the driver between two events. -/
structure Driven (console : Console) (keyboard : Keyboard) : Prop where
  coherent : console.Coherent
  behind : LineBehindCursor console keyboard

theorem Driven.behind_of_lt {console : Console} {keyboard : Keyboard}
    (driven : Driven console keyboard) {terminalId : Nat} (terminalLt : terminalId < 3) :
    (keyboard.cursorInd terminalId : Int) ≤ (console.logicalScreen terminalId).position ∧
      keyboard.cursorInd terminalId ≤ 128 :=
  driven.behind ⟨terminalId, terminalLt⟩

/-- Painting a terminal keeps every line behind its cursor if it does so for
that terminal. -/
theorem Driven.paint {console : Console} {keyboard next : Keyboard}
    (driven : Driven console keyboard) {terminalId : Nat} (terminalLt : terminalId < 3)
    {screen : Screen} (on : screen.OnScreen)
    (others : ∀ t, t ≠ terminalId → next.cursorInd t = keyboard.cursorInd t)
    (behind : (next.cursorInd terminalId : Int) ≤ screen.position ∧
      next.cursorInd terminalId ≤ 128) :
    Driven (console.paint terminalId screen) next := by
  constructor
  · exact driven.coherent.paint terminalLt on
  · intro t
    by_cases here : t.val = terminalId
    · rw [here, Console.paint_logicalScreen_self]
      exact behind
    · rw [Console.paint_logicalScreen_of_ne console screen terminalLt t.isLt here,
        others t here]
      exact driven.behind t

theorem Driven.congr {console : Console} {keyboard next : Keyboard}
    (driven : Driven console keyboard) (same : next.cursorInd = keyboard.cursorInd) :
    Driven console next := by
  constructor
  · exact driven.coherent
  · intro t
    rw [same]
    exact driven.behind t

/-- A new line is behind every cursor. -/
theorem Driven.newLine {console : Console} {keyboard next : Keyboard}
    (driven : Driven console keyboard) (terminalId : Nat)
    (emptied : next.cursorInd = Function.update keyboard.cursorInd terminalId 0) :
    Driven console next := by
  constructor
  · exact driven.coherent
  · intro t
    rw [emptied]
    by_cases here : t.val = terminalId
    · have on := driven.coherent.onScreen t
      have xNonneg := on.x_nonneg
      have yNonneg := on.y_nonneg
      rw [here, Function.update_self, ← here]
      simp only [Screen.position]
      omega
    · rw [Function.update_of_ne here]
      exact driven.behind t

/-- Process output moves no cursor back behind its line. -/
theorem Driven.output {console : Console} {keyboard : Keyboard}
    (driven : Driven console keyboard) (c : UInt8) :
    Driven (console.putcScroll c) keyboard := by
  have activeLt := driven.coherent.active_lt
  have on := driven.coherent.onScreen_of_lt activeLt
  obtain ⟨behind, short⟩ := driven.behind_of_lt activeLt
  rw [driven.coherent.putcScroll_eq]
  apply driven.paint activeLt (on.putChar c)
  · intros
    rfl
  · rcases on.putChar_position c with forward | low
    · exact ⟨by omega, short⟩
    · exact ⟨by omega, short⟩

theorem Driven.setActiveTerminal {console : Console} {keyboard : Keyboard}
    (driven : Driven console keyboard) {terminalId : Nat} (terminalLt : terminalId < 3) :
    Driven (console.setActiveTerminal terminalId) keyboard :=
  ⟨driven.coherent.setActiveTerminal terminalLt, driven.behind⟩

theorem Driven.setupTaskPage {console : Console} {keyboard : Keyboard}
    (driven : Driven console keyboard) (ind : Nat) :
    Driven (console.setupTaskPage ind) keyboard :=
  ⟨driven.coherent.setupTaskPage ind, driven.behind⟩

theorem Driven.setDisiplayTerminal {console : Console} {keyboard : Keyboard}
    (driven : Driven console keyboard) {terminalId : Nat} (terminalLt : terminalId < 3) :
    Driven (console.setDisiplayTerminal terminalId) keyboard := by
  constructor
  · exact driven.coherent.setDisiplayTerminal terminalLt
  · intro t
    rw [driven.coherent.setDisiplayTerminal_logicalScreen terminalLt]
    exact driven.behind t

/-- A result on the console and the same result on private screens. -/
structure Simulates (concrete : KeyResult Console) (abstract : KeyResult Reference) : Prop where
  driven : Driven concrete.screen concrete.keyboard
  screen : abstract.screen = concrete.screen.view
  keyboard : abstract.keyboard = concrete.keyboard
  launch : abstract.launch = concrete.launch

/-- The Alt branch switches the display and may start a shell. -/
theorem altKey_simulates {console : Console} {keyboard : Keyboard}
    (driven : Driven console keyboard) (pidFree : Bool) (c : Nat) :
    Simulates (altKey consoleOps pidFree console keyboard c)
      (altKey referenceOps pidFree console.view keyboard c) := by
  have shown : ∀ (terminalId : Nat) (next : Keyboard) (launch : Option Nat), terminalId < 3 →
      next.cursorInd = keyboard.cursorInd →
      Simulates
        { screen := consoleOps.setDisiplayTerminal console terminalId
          keyboard := next
          launch := launch }
        { screen := referenceOps.setDisiplayTerminal console.view terminalId
          keyboard := next
          launch := launch } := by
    intro terminalId next launch terminalLt same
    constructor
    · exact (driven.setDisiplayTerminal terminalLt).congr same
    · exact (driven.coherent.setDisiplayTerminal_view terminalLt).symm
    · rfl
    · rfl
  unfold altKey
  by_cases first : c = scancodeF1
  · rw [if_pos first, if_pos first]
    exact shown 0 keyboard none (by decide) rfl
  rw [if_neg first, if_neg first]
  by_cases second : c = scancodeF2
  · rw [if_pos second, if_pos second]
    by_cases fresh : keyboard.terminal2Running = false ∧ pidFree = true
    · simp only [if_pos fresh]
      exact shown 1 { keyboard with terminal2Running := true } (some 1) (by decide) rfl
    · simp only [if_neg fresh]
      exact shown 1 keyboard none (by decide) rfl
  rw [if_neg second, if_neg second]
  by_cases third : c = scancodeF3
  · rw [if_pos third, if_pos third]
    by_cases fresh : keyboard.terminal3Running = false ∧ pidFree = true
    · simp only [if_pos fresh]
      exact shown 2 { keyboard with terminal3Running := true } (some 2) (by decide) rfl
    · simp only [if_neg fresh]
      exact shown 2 keyboard none (by decide) rfl
  · rw [if_neg third, if_neg third]
    exact ⟨driven, rfl, rfl, rfl⟩

/-- Ctrl+L clears the displayed terminal and its line. -/
theorem clear_simulates {console : Console} {keyboard : Keyboard}
    (driven : Driven console keyboard) :
    Simulates
      { screen := consoleOps.clear console
        keyboard := keyboard.clearLine (consoleOps.displayTerminal console)
        launch := none }
      { screen := referenceOps.clear console.view
        keyboard := keyboard.clearLine (referenceOps.displayTerminal console.view)
        launch := none } := by
  have displayLt := driven.coherent.display_lt
  have cleared : consoleOps.clear console = _ := driven.coherent.clear_eq
  have display : consoleOps.displayTerminal console = console.displayTerminal := rfl
  constructor
  · simp only [cleared, display]
    apply driven.paint displayLt
    · exact ⟨by simp [Screen.erase], by simp [Screen.erase], by simp [Screen.erase],
        by simp [Screen.erase], by simp [Screen.erase]⟩
    · intro t other
      simp [Keyboard.clearLine, other]
    · simp [Keyboard.clearLine, Screen.erase, Screen.position]
  · simp only [cleared]
    exact (console.paint_view displayLt Screen.erase).symm
  · rfl
  · rfl

/-- An echoed character extends the line and the screen together. -/
theorem echo_simulates {console : Console} {keyboard : Keyboard}
    (driven : Driven console keyboard) (c : UInt8)
    (room : keyboard.cursorInd (consoleOps.displayTerminal console) < 128) :
    Simulates
      { screen := consoleOps.putcScrollDisplay console c
        keyboard := keyboard.appendChar (consoleOps.displayTerminal console) c
        launch := none }
      { screen := referenceOps.putcScrollDisplay console.view c
        keyboard := keyboard.appendChar (referenceOps.displayTerminal console.view) c
        launch := none } := by
  have displayLt := driven.coherent.display_lt
  have on := driven.coherent.onScreen_of_lt displayLt
  obtain ⟨behind, -⟩ := driven.behind_of_lt displayLt
  have put : consoleOps.putcScrollDisplay console c = _ :=
    driven.coherent.putcScrollDisplay_eq c
  have display : consoleOps.displayTerminal console = console.displayTerminal := rfl
  rw [display] at room
  constructor
  · simp only [put, display]
    apply driven.paint displayLt (on.putChar c)
    · intro t other
      simp [Keyboard.appendChar, other]
    · simp only [Keyboard.appendChar, Function.update_self]
      rcases on.putChar_position c with forward | low <;> omega
  · simp only [put]
    exact (console.paint_view displayLt fun screen => screen.putChar c).symm
  · rfl
  · rfl

theorem makeBreak_simulates {console : Console} {keyboard : Keyboard}
    (driven : Driven console keyboard) (pidFree : Bool) (c : Nat) :
    Simulates (makeBreak consoleOps pidFree console keyboard c)
      (makeBreak referenceOps pidFree console.view keyboard c) := by
  have pressed : Driven console (pressKey keyboard c) := driven.congr rfl
  unfold makeBreak
  by_cases release : c > 127
  · rw [if_pos release, if_pos release]
    exact ⟨driven.congr rfl, rfl, rfl, rfl⟩
  rw [if_neg release, if_neg release]
  by_cases clears : c = scancodeL ∧ (pressKey keyboard c).pressedKey scancodeLeftControl = true
  · simp only [if_pos clears]
    exact clear_simulates pressed
  simp only [if_neg clears]
  by_cases alt : (pressKey keyboard c).pressedKey scancodeLeftAlt = true
  · simp only [if_pos alt]
    exact altKey_simulates pressed pidFree c
  simp only [if_neg alt]
  have display : referenceOps.displayTerminal console.view =
      consoleOps.displayTerminal console := rfl
  by_cases echoes : scancodesMap c ≠ 0 ∧
      (pressKey keyboard c).cursorInd (consoleOps.displayTerminal console) < 128
  · rw [if_pos echoes, if_pos (display ▸ echoes)]
    exact echo_simulates pressed ((pressKey keyboard c).characterConvert c) echoes.2
  · rw [if_neg echoes, if_neg (display ▸ echoes)]
    exact ⟨pressed, rfl, rfl, rfl⟩

theorem enterKey_simulates {concrete : KeyResult Console} {abstract : KeyResult Reference}
    (simulated : Simulates concrete abstract) (c : Nat) :
    Simulates (enterKey consoleOps concrete c) (enterKey referenceOps abstract c) := by
  unfold enterKey
  by_cases enter : c = scancodeEnter
  · rw [if_pos enter, if_pos enter]
    constructor
    · exact simulated.driven.newLine concrete.screen.displayTerminal rfl
    · exact simulated.screen
    · rw [simulated.screen, simulated.keyboard]
      rfl
    · exact simulated.launch
  · rw [if_neg enter, if_neg enter]
    exact simulated

theorem backspaceKey_simulates {concrete : KeyResult Console} {abstract : KeyResult Reference}
    (simulated : Simulates concrete abstract) (c : Nat) :
    Simulates (backspaceKey consoleOps concrete c) (backspaceKey referenceOps abstract c) := by
  obtain ⟨driven, screenEq, keyboardEq, launchEq⟩ := simulated
  have displayLt := driven.coherent.display_lt
  have on := driven.coherent.onScreen_of_lt displayLt
  obtain ⟨behind, short⟩ := driven.behind_of_lt displayLt
  have display : referenceOps.displayTerminal abstract.screen =
      consoleOps.displayTerminal concrete.screen := by
    rw [screenEq]
    rfl
  unfold backspaceKey
  simp only [display, keyboardEq]
  by_cases erases : c = scancodeBackspace ∧
      concrete.keyboard.cursorInd (consoleOps.displayTerminal concrete.screen) ≠ 0
  · rw [if_pos erases, if_pos erases]
    have typed : concrete.keyboard.cursorInd concrete.screen.displayTerminal ≠ 0 := erases.2
    have positive :
        0 < (concrete.screen.logicalScreen concrete.screen.displayTerminal).position := by
      omega
    have erased : consoleOps.eraseLastChDisplay concrete.screen = _ :=
      driven.coherent.eraseLastChDisplay_eq positive
    obtain ⟨erasedOn, -, back⟩ := on.backspace positive
    constructor
    · simp only [erased]
      apply driven.paint displayLt erasedOn
      · intro t other
        have elsewhere : t ≠ consoleOps.displayTerminal concrete.screen := other
        simp [Keyboard.dropChar, elsewhere]
      · have here : (concrete.keyboard.dropChar
            (consoleOps.displayTerminal concrete.screen)).cursorInd
              concrete.screen.displayTerminal =
            concrete.keyboard.cursorInd concrete.screen.displayTerminal - 1 :=
          Function.update_self ..
        rw [here, back]
        omega
    · simp only [erased, screenEq]
      exact (concrete.screen.paint_view displayLt Screen.backspace).symm
    · rfl
    · exact launchEq
  · rw [if_neg erases, if_neg erases]
    exact ⟨driven, screenEq, keyboardEq, launchEq⟩

/-- `scancode_processing` on the console is `scancode_processing` on private
screens. -/
theorem scancodeProcessing_simulates {console : Console} {keyboard : Keyboard}
    (driven : Driven console keyboard) (pidFree : Bool) (c : UInt8) :
    Simulates (scancodeProcessing consoleOps pidFree console keyboard c)
      (scancodeProcessing referenceOps pidFree console.view keyboard c) :=
  backspaceKey_simulates
    (enterKey_simulates (makeBreak_simulates driven pidFree c.toNat) c.toNat) c.toNat

/-! ## Whole runs -/

theorem putcScroll_view {console : Console} (coherent : console.Coherent) (c : UInt8) :
    (console.putcScroll c).view = console.view.output c := by
  rw [coherent.putcScroll_eq]
  exact console.paint_view coherent.active_lt fun screen => screen.putChar c

/-- `puts_scroll` is process output character by character. -/
theorem putsScroll_simulates {console : Console} {keyboard : Keyboard}
    (driven : Driven console keyboard) (s : Nat → UInt8) (n : Nat) :
    Driven (forUpTo n (fun index state => state.putcScroll (s index)) console) keyboard ∧
      (forUpTo n (fun index state => state.putcScroll (s index)) console).view =
        forUpTo n (fun index reference => reference.output (s index)) console.view := by
  apply forUpTo_rule (fun n state => Driven state keyboard ∧ state.view =
    forUpTo n (fun index reference => reference.output (s index)) console.view) n
  · exact ⟨driven, rfl⟩
  · rintro index state - ⟨stateDriven, stateView⟩
    constructor
    · exact stateDriven.output (s index)
    · rw [putcScroll_view stateDriven.coherent, stateView, forUpTo_succ]

/-- Output keeps the invariant and the two terminal numbers. -/
theorem putsScroll_driven {console : Console} {keyboard : Keyboard}
    (driven : Driven console keyboard) (s : Nat → UInt8) (len : Int) :
    Driven (console.putsScroll s len) keyboard ∧
      (console.putsScroll s len).activeTerminal = console.activeTerminal ∧
      (console.putsScroll s len).displayTerminal = console.displayTerminal ∧
      (console.putsScroll s len).paging = console.paging := by
  unfold Console.putsScroll
  apply forUpTo_rule (fun _ state => Driven state keyboard ∧
    state.activeTerminal = console.activeTerminal ∧
    state.displayTerminal = console.displayTerminal ∧ state.paging = console.paging)
  · exact ⟨driven, rfl, rfl, rfl⟩
  · rintro index state - ⟨stateDriven, sameActive, sameDisplay, samePaging⟩
    have fields := state.paint_fields state.activeTerminal
      ((state.logicalScreen state.activeTerminal).putChar (s index))
    rw [← stateDriven.coherent.putcScroll_eq] at fields
    exact ⟨stateDriven.output (s index), fields.2.1.trans sameActive,
      fields.2.2.trans sameDisplay, fields.1.trans samePaging⟩

theorem vidmapStore_simulates {console : Console} {keyboard : Keyboard}
    (driven : Driven console keyboard) (offset : Fin 4096) (byte : UInt8) :
    Driven (console.vidmapStore offset byte) keyboard ∧
      (console.vidmapStore offset byte).view = console.view.store offset byte := by
  have activeLt := driven.coherent.active_lt
  have on := driven.coherent.onScreen_of_lt activeLt
  rw [driven.coherent.vidmapStore_eq]
  constructor
  · apply driven.paint activeLt
    · exact ⟨on.x_nonneg, on.x_lt, on.y_nonneg, on.y_le, on.below⟩
    · intros
      rfl
    · exact driven.behind_of_lt activeLt
  · exact console.paint_view activeLt fun screen =>
      { screen with page := screen.page.set offset byte }

/-- One event keeps the invariant and commutes with the view. -/
theorem step_simulates (terminals : Terminals)
    (driven : Driven terminals.console terminals.keyboard) (event : Event) :
    Driven (terminals.step event).console (terminals.step event).keyboard ∧
      ((terminals.step event).console.view, (terminals.step event).keyboard) =
        Reference.step (terminals.console.view, terminals.keyboard) event := by
  cases event with
  | putcScroll c =>
      have view := putcScroll_view driven.coherent c
      exact ⟨driven.output c, congrArg (·, terminals.keyboard) view⟩
  | putsScroll s len =>
      obtain ⟨kept, view⟩ := putsScroll_simulates driven s
        (if len = -1 then (FileSystem.strlen s FileSystem.addressSpace : Int) else len).toNat
      exact ⟨kept, congrArg (·, terminals.keyboard) view⟩
  | vidmapStore offset byte =>
      obtain ⟨kept, view⟩ := vidmapStore_simulates driven offset byte
      exact ⟨kept, congrArg (·, terminals.keyboard) view⟩
  | key pidFree c =>
      obtain ⟨kept, screen, keyboard, -⟩ := scancodeProcessing_simulates driven pidFree c
      exact ⟨kept, Prod.ext screen.symm keyboard.symm⟩
  | setActiveTerminal terminalId =>
      exact ⟨driven.setActiveTerminal terminalId.isLt, rfl⟩
  | setDisiplayTerminal terminalId =>
      have kept := driven.setDisiplayTerminal terminalId.isLt
      have view := driven.coherent.setDisiplayTerminal_view terminalId.isLt
      have stepEq : terminals.step (.setDisiplayTerminal terminalId) =
          { terminals with console := terminals.console.setDisiplayTerminal terminalId } := rfl
      -- Hide the page copies from the definitional unfolder.
      generalize terminals.console.setDisiplayTerminal terminalId = target at kept view stepEq
      rw [stepEq]
      exact ⟨kept, congrArg (·, terminals.keyboard) view⟩

/-- The screen statics after `paging_init`: cursors home, terminal `0` shown
and active.  Memory holds whatever it held. -/
def Console.boot (paging : PageTables) (memory : Memory) : Console :=
  { paging := paging.pagingInit
    memory := memory
    screenX := fun _ => 0
    screenY := fun _ => 0
    displayTerminal := 0
    activeTerminal := 0
    hardwareCursor := 0 }

/-- The terminals when the first program is about to start: `paging_init`,
`keyboard_init`, then `clear`. -/
def Terminals.boot (paging : PageTables) (memory : Memory) (printBuffer : Nat → UInt8) :
    Terminals :=
  { console := (Console.boot paging memory).clear
    keyboard := Keyboard.keyboardInit printBuffer }

theorem Console.boot_coherent (paging : PageTables) (memory : Memory) :
    (Console.boot paging memory).Coherent := by
  constructor
  · exact ⟨none, pagingInit_shape paging⟩
  · change 0 < 3
    decide
  · change 0 < 3
    decide
  · intro t
    exact ⟨by simp [logicalScreen, screenAt, boot], by simp [logicalScreen, screenAt, boot],
      by simp [logicalScreen, screenAt, boot], by simp [logicalScreen, screenAt, boot],
      by simp [logicalScreen, screenAt, boot]⟩
  · simp [logicalScreen, screenAt, boot, Screen.position]

theorem Console.boot_driven (paging : PageTables) (memory : Memory)
    (printBuffer : Nat → UInt8) :
    Driven (Console.boot paging memory) (Keyboard.keyboardInit printBuffer) := by
  constructor
  · exact Console.boot_coherent paging memory
  · intro t
    simp [Keyboard.keyboardInit, logicalScreen, screenAt, boot, Screen.position]

theorem Terminals.boot_driven (paging : PageTables) (memory : Memory)
    (printBuffer : Nat → UInt8) :
    Driven (Terminals.boot paging memory printBuffer).console
      (Terminals.boot paging memory printBuffer).keyboard := by
  have cleared := (clear_simulates (Console.boot_driven paging memory printBuffer)).driven
  simp only [consoleOps] at cleared
  apply cleared.congr
  simp [boot, Keyboard.keyboardInit, Keyboard.clearLine]

/-- The reference machine that starts with the same screens. -/
def Terminals.reference (terminals : Terminals) : Reference × Keyboard :=
  (terminals.console.view, terminals.keyboard)

/-- Every run of the terminals is a run of the reference machine. -/
theorem run_simulates (paging : PageTables) (memory : Memory) (printBuffer : Nat → UInt8)
    (events : List Event) :
    let start := Terminals.boot paging memory printBuffer
    Driven (events.foldl Terminals.step start).console
        (events.foldl Terminals.step start).keyboard ∧
      (events.foldl Terminals.step start).reference =
        events.foldl Reference.step start.reference :=
  foldl_simulation Terminals.step Reference.step Terminals.reference
    (fun terminals => Driven terminals.console terminals.keyboard)
    (fun terminals event driven => (step_simulates terminals driven event).1)
    (fun terminals event driven => (step_simulates terminals driven event).2)
    events _ (Terminals.boot_driven paging memory printBuffer)

/-- Terminal switching is transparent.  After any events, every logical screen
and cursor is that of the reference machine, the hardware cursor is on the
displayed terminal, a further switch of either kind changes no logical screen,
and where the active terminal is the displayed one the two routines that put a
character do the same. -/
theorem terminalSwitching_transparent (paging : PageTables) (memory : Memory)
    (printBuffer : Nat → UInt8) (events : List Event) :
    let start := Terminals.boot paging memory printBuffer
    let final := (events.foldl Terminals.step start).console
    let reference := (events.foldl Reference.step start.reference).1
    (∀ t : Fin 3, final.logicalScreen t = reference.screen t) ∧
      final.activeTerminal = reference.activeTerminal ∧
      final.displayTerminal = reference.displayTerminal ∧
      (∀ t : Fin 3, t.val = reference.displayTerminal →
        final.hardwareCursor = (reference.screen t).position.toNat) ∧
      (∀ t u : Fin 3, (final.setDisiplayTerminal u).logicalScreen t = final.logicalScreen t) ∧
      (∀ t u : Fin 3, (final.setActiveTerminal u).logicalScreen t = final.logicalScreen t) ∧
      (final.activeTerminal = final.displayTerminal →
        ∀ c, final.putcScroll c = final.putcScrollDisplay c) := by
  intro start final reference
  obtain ⟨driven, runEq⟩ := run_simulates paging memory printBuffer events
  have viewEq : final.view = reference := congrArg Prod.fst runEq
  have coherent : final.Coherent := driven.coherent
  rw [← viewEq]
  refine ⟨fun t => rfl, rfl, rfl, ?_, ?_, fun t u => rfl, ?_⟩
  · intro t displayed
    change t.val = final.displayTerminal at displayed
    rw [coherent.cursor, ← displayed]
    rfl
  · intro t u
    exact coherent.setDisiplayTerminal_logicalScreen u.isLt t
  · intro same c
    rw [coherent.putcScroll_eq, coherent.putcScrollDisplay_eq, same]

end PonyOS.Terminal
