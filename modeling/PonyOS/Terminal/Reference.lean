import PonyOS.Lib.Transition
import PonyOS.Terminal.Drawing
import PonyOS.Terminal.Keyboard

/-!
# Terminal switching is transparent

The reference machine gives every terminal a private page and cursor and has
one routine that puts a character.  Process output goes to the active
terminal, the keyboard works on the displayed one, and a switch changes
nothing but the two terminal numbers.

The console refines it.  The view of a console takes the text of the displayed
terminal from VGA memory and that of every other terminal from its backing
page; the invariant ties the remapped page to the active terminal, keeps every
cursor on its screen and never before the start of the line being typed, and
keeps the hardware cursor on the displayed terminal.
-/

namespace PonyOS.Terminal

open PonyOS.Lib.Loop
open PonyOS.Lib.Transition
open PonyOS.Lib.Word
open PonyOS.Paging

universe u v

/-! ## The reference machine -/

/-- Terminals with private screens. -/
structure Reference where
  screen : Fin 3 → Screen
  activeTerminal : Nat
  displayTerminal : Nat

namespace Reference

/-- Change the screen of one terminal. -/
def onTerminal (reference : Reference) (terminalId : Nat) (change : Screen → Screen) :
    Reference :=
  { reference with
    screen := fun t =>
      if t.val = terminalId then change (reference.screen t) else reference.screen t }

/-- Process output: one character on the active terminal. -/
def output (reference : Reference) (c : UInt8) : Reference :=
  reference.onTerminal reference.activeTerminal fun screen => screen.putChar c

/-- A user store into the page of the active terminal. -/
def store (reference : Reference) (offset : Nat) (byte : UInt8) : Reference :=
  reference.onTerminal reference.activeTerminal fun screen =>
    { screen with page := screen.page.set offset byte }

end Reference

/-- The routines of the keyboard handler on private screens. -/
def referenceOps : ScreenOps Reference where
  displayTerminal := Reference.displayTerminal
  clear reference := reference.onTerminal reference.displayTerminal Screen.erase
  putcScrollDisplay reference c :=
    reference.onTerminal reference.displayTerminal fun screen => screen.putChar c
  eraseLastChDisplay reference :=
    reference.onTerminal reference.displayTerminal Screen.backspace
  setDisiplayTerminal reference terminalId :=
    { reference with displayTerminal := terminalId }

/-! ## Events -/

/-- What can happen to the terminals. -/
inductive Event
  | putcScroll (c : UInt8)
  | putsScroll (s : Nat → UInt8) (len : Int)
  | vidmapStore (offset : Fin 4096) (byte : UInt8)
  | key (pidFree : Bool) (c : UInt8)
  | setActiveTerminal (terminalId : Fin 3)
  | setDisiplayTerminal (terminalId : Fin 3)

/-- One event on the console and the keyboard driver. -/
def Terminals.step (terminals : Terminals) : Event → Terminals
  | .putcScroll c => { terminals with console := terminals.console.putcScroll c }
  | .putsScroll s len => { terminals with console := terminals.console.putsScroll s len }
  | .vidmapStore offset byte =>
      { terminals with console := terminals.console.vidmapStore offset byte }
  | .key pidFree c =>
      let result := scancodeProcessing consoleOps pidFree terminals.console terminals.keyboard c
      { console := result.screen, keyboard := result.keyboard }
  | .setActiveTerminal terminalId =>
      { terminals with console := terminals.console.setActiveTerminal terminalId }
  | .setDisiplayTerminal terminalId =>
      { terminals with console := terminals.console.setDisiplayTerminal terminalId }

/-- One event on the reference machine and the keyboard driver. -/
def Reference.step (state : Reference × Keyboard) : Event → Reference × Keyboard
  | .putcScroll c => (state.1.output c, state.2)
  | .putsScroll s len =>
      let lim := if len = -1 then (FileSystem.strlen s FileSystem.addressSpace : Int) else len
      (forUpTo lim.toNat (fun index reference => reference.output (s index)) state.1, state.2)
  | .vidmapStore offset byte => (state.1.store offset byte, state.2)
  | .key pidFree c =>
      let result := scancodeProcessing referenceOps pidFree state.1 state.2 c
      (result.screen, result.keyboard)
  | .setActiveTerminal terminalId => ({ state.1 with activeTerminal := terminalId }, state.2)
  | .setDisiplayTerminal terminalId =>
      ({ state.1 with displayTerminal := terminalId }, state.2)

/-! ## View and invariant -/

namespace Console

/-- The frame that holds the text of a terminal: VGA memory for the displayed
terminal, its backing page for any other. -/
def logicalPage (console : Console) (terminalId : Nat) : Nat :=
  if terminalId = console.displayTerminal then 0xB8 else 0xB9 + terminalId

/-- The screen of a terminal, wherever its text is. -/
def logicalScreen (console : Console) (terminalId : Nat) : Screen :=
  console.screenAt (console.logicalPage terminalId) terminalId

/-- The console seen as private screens. -/
def view (console : Console) : Reference :=
  { screen := fun t => console.logicalScreen t
    activeTerminal := console.activeTerminal
    displayTerminal := console.displayTerminal }

/-- What every reachable console satisfies. -/
structure Coherent (console : Console) : Prop where
  shape : ∃ task, Shape console.paging (console.logicalPage console.activeTerminal) task
  active_lt : console.activeTerminal < 3
  display_lt : console.displayTerminal < 3
  onScreen : ∀ t : Fin 3, (console.logicalScreen t).OnScreen
  cursor : console.hardwareCursor =
    (console.logicalScreen console.displayTerminal).position.toNat

end Console

/-- The line being typed on a terminal ends at or before its cursor. -/
def LineBehindCursor (console : Console) (keyboard : Keyboard) : Prop :=
  ∀ t : Fin 3, (keyboard.cursorInd t : Int) ≤ (console.logicalScreen t).position ∧
    keyboard.cursorInd t ≤ 128

namespace Console

theorem logicalPage_ne (console : Console) {first second : Nat} (firstLt : first < 3)
    (secondLt : second < 3) (distinct : first ≠ second) :
    console.logicalPage first ≠ console.logicalPage second := by
  unfold logicalPage
  split <;> split <;> omega

/-- Replace the screen of a terminal, wherever its text is; the hardware
cursor follows when the terminal is displayed. -/
def paint (console : Console) (terminalId : Nat) (screen : Screen) : Console :=
  let painted := console.drawn (console.logicalPage terminalId) terminalId screen
  if terminalId = console.displayTerminal then painted.updateCursor screen.x screen.y
  else painted

theorem paint_fields (console : Console) (terminalId : Nat) (screen : Screen) :
    (console.paint terminalId screen).paging = console.paging ∧
      (console.paint terminalId screen).activeTerminal = console.activeTerminal ∧
      (console.paint terminalId screen).displayTerminal = console.displayTerminal := by
  unfold paint
  split <;> exact ⟨rfl, rfl, rfl⟩

theorem paint_logicalPage (console : Console) (terminalId other : Nat) (screen : Screen) :
    (console.paint terminalId screen).logicalPage other = console.logicalPage other := by
  rw [logicalPage, (console.paint_fields terminalId screen).2.2, logicalPage]

theorem paint_screenAt (console : Console) (terminalId frame other : Nat) (screen : Screen) :
    (console.paint terminalId screen).screenAt frame other =
      (console.drawn (console.logicalPage terminalId) terminalId screen).screenAt frame other := by
  unfold paint
  split <;> rfl

theorem paint_logicalScreen_self (console : Console) (terminalId : Nat) (screen : Screen) :
    (console.paint terminalId screen).logicalScreen terminalId = screen := by
  rw [logicalScreen, paint_logicalPage, paint_screenAt, screenAt_drawn_self]

theorem paint_logicalScreen_of_ne (console : Console) {terminalId other : Nat} (screen : Screen)
    (terminalLt : terminalId < 3) (otherLt : other < 3) (distinct : other ≠ terminalId) :
    (console.paint terminalId screen).logicalScreen other = console.logicalScreen other := by
  rw [logicalScreen, paint_logicalPage, paint_screenAt]
  apply screenAt_drawn_of_ne console screen distinct
  exact console.logicalPage_ne otherLt terminalLt distinct

/-- Painting is a change of one private screen. -/
theorem paint_view (console : Console) {terminalId : Nat} (terminalLt : terminalId < 3)
    (change : Screen → Screen) :
    (console.paint terminalId (change (console.logicalScreen terminalId))).view =
      console.view.onTerminal terminalId change := by
  obtain ⟨-, sameActive, sameDisplay⟩ :=
    console.paint_fields terminalId (change (console.logicalScreen terminalId))
  simp only [view, Reference.onTerminal, sameActive, sameDisplay, Reference.mk.injEq, and_true]
  funext t
  by_cases here : t.val = terminalId
  · rw [if_pos here, here, paint_logicalScreen_self]
  · rw [if_neg here, paint_logicalScreen_of_ne console _ terminalLt t.isLt here]

namespace Coherent

variable {console : Console}

/-- Process output reaches the text of the active terminal. -/
theorem maps_videoMem (coherent : console.Coherent) :
    MapsTo console.paging videoMem (console.logicalPage console.activeTerminal) := by
  obtain ⟨task, shape⟩ := coherent.shape
  constructor
  · decide
  · intro offset inPage
    exact shape.translate_low 0xB8 (by decide) (by decide) inPage

/-- The second video page always reaches VGA memory. -/
theorem maps_physicalVideoMem (coherent : console.Coherent) :
    MapsTo console.paging physicalVideoMem 0xB8 := by
  obtain ⟨task, shape⟩ := coherent.shape
  constructor
  · decide
  · intro offset inPage
    exact shape.translate_low 0xBC (by decide) (by decide) inPage

/-- Backing pages are mapped one to one. -/
theorem maps_terminalMem (coherent : console.Coherent) {terminalId : Nat}
    (terminalLt : terminalId < 3) :
    MapsTo console.paging (terminalMem terminalId) (0xB9 + terminalId) := by
  obtain ⟨task, shape⟩ := coherent.shape
  constructor
  · unfold terminalMem
    omega
  · intro offset inPage
    have address : terminalMem terminalId + offset = (0xB9 + terminalId) * 4096 + offset := by
      unfold terminalMem
      omega
    have notVideo : 0xB9 + terminalId ≠ videoInd := by
      unfold videoInd
      omega
    have notStatic : 0xB9 + terminalId ≠ staticVideoInd := by
      unfold staticVideoInd
      omega
    rw [address, shape.translate_low _ (by omega) (by omega) inPage, shapeTable, if_neg notVideo,
      if_neg notStatic]
    rfl

theorem onScreen_of_lt (coherent : console.Coherent) {terminalId : Nat}
    (terminalLt : terminalId < 3) : (console.logicalScreen terminalId).OnScreen :=
  coherent.onScreen ⟨terminalId, terminalLt⟩

end Coherent

/-- The position of a cursor on the screen fits the cursor register. -/
theorem updateCursor_of_onScreen (console : Console) {screen : Screen} (on : screen.OnScreen) :
    console.updateCursor screen.x screen.y =
      { console with hardwareCursor := screen.position.toNat } := by
  have xNonneg := on.x_nonneg
  have xLt := on.x_lt
  have yNonneg := on.y_nonneg
  have yLe := on.y_le
  have small : (screen.y * 80 + screen.x) % 65536 = screen.y * 80 + screen.x := by omega
  rw [updateCursor, small]
  rfl

/-- Painting a screen whose cursor is on it keeps the invariant. -/
theorem Coherent.paint {console : Console} (coherent : console.Coherent) {terminalId : Nat}
    (terminalLt : terminalId < 3) {screen : Screen} (on : screen.OnScreen) :
    (console.paint terminalId screen).Coherent := by
  obtain ⟨samePaging, sameActive, sameDisplay⟩ := console.paint_fields terminalId screen
  constructor
  · rw [samePaging, sameActive, paint_logicalPage]
    exact coherent.shape
  · rw [sameActive]
    exact coherent.active_lt
  · rw [sameDisplay]
    exact coherent.display_lt
  · intro t
    by_cases here : t.val = terminalId
    · rw [here, paint_logicalScreen_self]
      exact on
    · rw [paint_logicalScreen_of_ne console screen terminalLt t.isLt here]
      exact coherent.onScreen t
  · rw [sameDisplay]
    by_cases displayed : terminalId = console.displayTerminal
    · rw [← displayed, paint_logicalScreen_self, Console.paint, if_pos displayed,
        updateCursor_of_onScreen _ on]
    · rw [paint_logicalScreen_of_ne console screen terminalLt coherent.display_lt
        (Ne.symm displayed), Console.paint, if_neg displayed]
      exact coherent.cursor

/-! ## The routines paint one logical screen -/

/-- `putc_scroll` puts the character on the active terminal. -/
theorem Coherent.putcScroll_eq {console : Console} (coherent : console.Coherent) (c : UInt8) :
    console.putcScroll c =
      console.paint console.activeTerminal
        ((console.logicalScreen console.activeTerminal).putChar c) := by
  have drawnEq := putcScrollAt_eq console console.activeTerminal coherent.maps_videoMem
    (coherent.onScreen_of_lt coherent.active_lt) c
  simp only [putcScroll, drawnEq, drawn_screenX, drawn_screenY]
  rfl

/-- `putc_scroll_display` puts the character on the displayed terminal. -/
theorem Coherent.putcScrollDisplay_eq {console : Console} (coherent : console.Coherent)
    (c : UInt8) :
    console.putcScrollDisplay c =
      console.paint console.displayTerminal
        ((console.logicalScreen console.displayTerminal).putChar c) := by
  have onFrame : console.logicalScreen console.displayTerminal =
      console.screenAt 0xB8 console.displayTerminal := by
    rw [logicalScreen, logicalPage, if_pos rfl]
  have on := coherent.onScreen_of_lt coherent.display_lt
  rw [onFrame] at on
  have drawnEq := putcScrollAt_eq console console.displayTerminal
    coherent.maps_physicalVideoMem on c
  simp only [putcScrollDisplay, drawnEq, drawn_screenX, drawn_screenY]
  rw [Console.paint, if_pos rfl, onFrame, logicalPage, if_pos rfl]

/-- `clear` erases the displayed terminal. -/
theorem Coherent.clear_eq {console : Console} (coherent : console.Coherent) :
    console.clear =
      console.paint console.displayTerminal
        (console.logicalScreen console.displayTerminal).erase := by
  rw [Console.clear_eq console coherent.maps_physicalVideoMem, Console.paint, if_pos rfl,
    logicalScreen, logicalPage, if_pos rfl]
  rfl

/-- `erase_last_ch_display` steps back on the displayed terminal. -/
theorem Coherent.eraseLastChDisplay_eq {console : Console} (coherent : console.Coherent)
    (positive : 0 < (console.logicalScreen console.displayTerminal).position) :
    console.eraseLastChDisplay =
      console.paint console.displayTerminal
        (console.logicalScreen console.displayTerminal).backspace := by
  have onFrame : console.logicalScreen console.displayTerminal =
      console.screenAt 0xB8 console.displayTerminal := by
    rw [logicalScreen, logicalPage, if_pos rfl]
  have on := coherent.onScreen_of_lt coherent.display_lt
  rw [onFrame] at on positive
  rw [Console.eraseLastChDisplay_eq console coherent.maps_physicalVideoMem on positive,
    Console.paint, if_pos rfl, onFrame, logicalPage, if_pos rfl]

/-- A user store through the video window lands on the active terminal. -/
theorem Coherent.vidmapStore_eq {console : Console} (coherent : console.Coherent)
    (offset : Fin 4096) (byte : UInt8) :
    console.vidmapStore offset byte =
      console.paint console.activeTerminal
        { console.logicalScreen console.activeTerminal with
          page := (console.logicalScreen console.activeTerminal).page.set offset byte } := by
  obtain ⟨task, shape⟩ := coherent.shape
  generalize frameEq : console.logicalPage console.activeTerminal = frame at shape
  have translated : console.paging.translate true (videoUser + offset) =
      some (frame * 4096 + offset) := by
    have window := shape.translate_window true 0xB8 (by decide) (by decide) offset.isLt
    exact window
  -- The store is a supervisor store to the same frame, so it sets one byte of the page.
  have stored : console.vidmapStore offset byte =
      console.withPage frame ((console.pageOf frame).set offset byte) := by
    have kernelStore := store_withPage console (console.pageOf frame)
      (frameEq ▸ coherent.maps_videoMem) offset.isLt byte
    have kernelTranslated : console.paging.translate false (videoMem + offset) =
        some (frame * 4096 + offset) :=
      (frameEq ▸ coherent.maps_videoMem : MapsTo console.paging videoMem frame).translate
        offset offset.isLt
    rw [withPage_pageOf, store, storeAs, kernelTranslated] at kernelStore
    rw [vidmapStore, storeAs, translated]
    exact kernelStore
  have drawnEq : console.drawn frame console.activeTerminal
      { console.logicalScreen console.activeTerminal with
        page := (console.logicalScreen console.activeTerminal).page.set offset byte } =
      console.withPage frame ((console.pageOf frame).set offset byte) := by
    simp only [drawn, logicalScreen, frameEq, screenAt, setCursor, withPage,
      Function.update_eq_self]
  have on := coherent.onScreen_of_lt coherent.active_lt
  rw [stored, Console.paint, frameEq, drawnEq]
  by_cases displayed : console.activeTerminal = console.displayTerminal
  · have cursor := coherent.cursor
    rw [← displayed] at cursor
    rw [if_pos displayed, updateCursor_of_onScreen _ on, ← cursor]
    rfl
  · rw [if_neg displayed]

end Console

end PonyOS.Terminal
