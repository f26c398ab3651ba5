import PonyOS.Terminal.Frame
import PonyOS.Terminal.Switching

/-!
# Screen writes stay on the screen

No screen routine checks the cell it writes.  To state where they write, the
routines are run once more with a record of every character cell they store
to; dropping the record gives the routines of the console back.  The record
then holds only cells of the screen: the cursor is on it whenever a character
is put, and `erase_last_ch_display` steps back only over a line that the
cursor has already passed.
-/

namespace PonyOS.Terminal

open PonyOS.Lib.Loop
open PonyOS.Lib.Transition
open PonyOS.Lib.Word
open PonyOS.Paging

universe u v

/-- A character cell, counted from the base address of the page it is in. -/
structure Cell where
  base : Nat
  index : Int

/-- One of the cells of the screen, in a page that the routines draw on. -/
structure Cell.OnPage (cell : Cell) : Prop where
  base : cell.base = videoMem ∨ cell.base = physicalVideoMem
  index_nonneg : 0 ≤ cell.index
  index_lt : cell.index < 2000

/-- A console with the cells written so far, the last one first. -/
structure Traced where
  console : Console
  cells : List Cell

namespace Traced

/-! ## The routines with a record -/

/-- A change of the console that writes no character. -/
def onConsole (traced : Traced) (change : Console → Console) : Traced :=
  { traced with console := change traced.console }

/-- Store a character with the standard attribute. -/
def putCell (traced : Traced) (base : Nat) (x y : Int) (c : UInt8) : Traced :=
  { console := traced.console.putCell base x y c
    cells := { base := base, index := 80 * y + x } :: traced.cells }

def setCursor (traced : Traced) (terminalId : Nat) (x y : Int) : Traced :=
  traced.onConsole fun console => console.setCursor terminalId x y

def updateCursor (traced : Traced) (x y : Int) : Traced :=
  traced.onConsole fun console => console.updateCursor x y

/-- The common body of `shift_up` and `shift_up_display`. -/
def shiftUpAt (traced : Traced) (base terminalId : Nat) : Traced :=
  let moved := forUpTo 24 (fun y state =>
    forUpTo 80 (fun x state =>
      state.putCell base x y
        (state.console.load (Console.cellAddress base x (y + 1 : Nat)))) state) traced
  let blanked := forUpTo 80 (fun x state => state.putCell base x 24 space) moved
  blanked.setCursor terminalId 0 24

/-- `while (screen_y_multi[t] >= NUM_ROWS) shift_up();`. -/
def scrollAt (traced : Traced) (base terminalId : Nat) : Traced :=
  whileDo 2 (fun state => decide (state.console.screenY terminalId ≥ 25))
    (fun state => state.shiftUpAt base terminalId) traced

/-- The common body of `putc_scroll` and `putc_scroll_display`, up to the
cursor update. -/
def putcScrollAt (traced : Traced) (base terminalId : Nat) (c : UInt8) : Traced :=
  if isNewline c then
    (traced.setCursor terminalId 0 (traced.console.screenY terminalId + 1)).scrollAt base
      terminalId
  else
    let scrolled := traced.scrollAt base terminalId
    let x := scrolled.console.screenX terminalId
    let y := scrolled.console.screenY terminalId
    (scrolled.putCell base x y c).setCursor terminalId
      ((x + 1).tmod 80) (y + (x + 1).tdiv 80)

/-- `putc_scroll`. -/
def putcScroll (traced : Traced) (c : UInt8) : Traced :=
  let active := traced.console.activeTerminal
  let drawn := traced.putcScrollAt videoMem active c
  if active = drawn.console.displayTerminal then
    drawn.updateCursor (drawn.console.screenX active) (drawn.console.screenY active)
  else drawn

/-- `putc_scroll_display`. -/
def putcScrollDisplay (traced : Traced) (c : UInt8) : Traced :=
  let display := traced.console.displayTerminal
  let drawn := traced.putcScrollAt physicalVideoMem display c
  drawn.updateCursor (drawn.console.screenX display) (drawn.console.screenY display)

/-- `erase_last_ch_display`. -/
def eraseLastChDisplay (traced : Traced) : Traced :=
  let display := traced.console.displayTerminal
  let moved :=
    if traced.console.screenX display = 0 then
      traced.setCursor display 79 (traced.console.screenY display - 1)
    else
      traced.setCursor display (traced.console.screenX display - 1)
        (traced.console.screenY display)
  let x := moved.console.screenX display
  let y := moved.console.screenY display
  (moved.putCell physicalVideoMem x y space).updateCursor x y

/-- The two stores of one round of `clear`. -/
def blankCell (traced : Traced) (i : Nat) : Traced :=
  { console := (traced.console.store (physicalVideoMem + 2 * i) space).store
      (physicalVideoMem + 2 * i + 1) attrib
    cells := { base := physicalVideoMem, index := i } :: traced.cells }

/-- `clear`. -/
def clear (traced : Traced) : Traced :=
  let display := traced.console.displayTerminal
  let home := traced.setCursor display 0 0
  let blank := forUpTo 2000 (fun i state => state.blankCell i) home
  blank.updateCursor 0 0

/-- `puts_scroll`. -/
def putsScroll (traced : Traced) (s : Nat → UInt8) (len : Int) : Traced :=
  let lim := if len = -1 then (FileSystem.strlen s FileSystem.addressSpace : Int) else len
  forUpTo lim.toNat (fun index state => state.putcScroll (s index)) traced

/-- `set_disiplay_terminal`: it copies pages and puts no character. -/
def setDisiplayTerminal (traced : Traced) (terminalId : Nat) : Traced :=
  traced.onConsole fun console => console.setDisiplayTerminal terminalId

@[simp]
theorem setCursor_screenX (traced : Traced) (terminalId : Nat) (x y : Int) :
    (traced.setCursor terminalId x y).console.screenX terminalId = x :=
  Function.update_self ..

@[simp]
theorem setCursor_screenY (traced : Traced) (terminalId : Nat) (x y : Int) :
    (traced.setCursor terminalId x y).console.screenY terminalId = y :=
  Function.update_self ..

/-! ## Dropping the record -/

theorem shiftUpAt_console (traced : Traced) (base terminalId : Nat) :
    (traced.shiftUpAt base terminalId).console = traced.console.shiftUpAt base terminalId := by
  have row : ∀ (y : Nat) (state : Traced), forUpTo 80 (fun x (state : Console) =>
      state.putCell base (x : Nat) (y : Nat)
        (state.load (Console.cellAddress base (x : Nat) (y + 1 : Nat)))) state.console =
      (forUpTo 80 (fun x (state : Traced) => state.putCell base (x : Nat) (y : Nat)
        (state.console.load (Console.cellAddress base (x : Nat) (y + 1 : Nat)))) state).console :=
    fun y state => forUpTo_hom Traced.console 80 (fun _ _ _ => rfl) state
  have moved := forUpTo_hom Traced.console 24 (fun y state _ => row y state) traced
  simp only [Console.shiftUpAt, shiftUpAt, setCursor, onConsole]
  rw [moved, forUpTo_hom Traced.console 80 (fun x state _ => ?_)]
  rfl

theorem scrollAt_console (traced : Traced) (base terminalId : Nat) :
    (traced.scrollAt base terminalId).console = traced.console.scrollAt base terminalId := by
  unfold scrollAt Console.scrollAt
  symm
  apply whileDo_hom Traced.console
  · intro state
    rfl
  · intro state
    exact (state.shiftUpAt_console base terminalId).symm

theorem putcScrollAt_console (traced : Traced) (base terminalId : Nat) (c : UInt8) :
    (traced.putcScrollAt base terminalId c).console =
      traced.console.putcScrollAt base terminalId c := by
  unfold putcScrollAt Console.putcScrollAt
  split
  · rw [scrollAt_console]
    rfl
  · simp only [setCursor, onConsole, putCell, scrollAt_console]

theorem putcScroll_console (traced : Traced) (c : UInt8) :
    (traced.putcScroll c).console = traced.console.putcScroll c := by
  simp only [putcScroll, Console.putcScroll, ← putcScrollAt_console]
  split <;> rfl

theorem putcScrollDisplay_console (traced : Traced) (c : UInt8) :
    (traced.putcScrollDisplay c).console = traced.console.putcScrollDisplay c := by
  simp only [putcScrollDisplay, Console.putcScrollDisplay, ← putcScrollAt_console]
  rfl

theorem eraseLastChDisplay_console (traced : Traced) :
    traced.eraseLastChDisplay.console = traced.console.eraseLastChDisplay := by
  unfold eraseLastChDisplay Console.eraseLastChDisplay
  by_cases firstColumn : traced.console.screenX traced.console.displayTerminal = 0
  · simp only [if_pos firstColumn]
    rfl
  · simp only [if_neg firstColumn]
    rfl

theorem clear_console (traced : Traced) : traced.clear.console = traced.console.clear := by
  have blank : ∀ state : Traced, forUpTo 2000 (fun i (console : Console) =>
      (console.store (physicalVideoMem + 2 * i) space).store
        (physicalVideoMem + 2 * i + 1) attrib) state.console =
      (forUpTo 2000 (fun i (state : Traced) => state.blankCell i) state).console :=
    fun state => forUpTo_hom Traced.console 2000 (fun _ _ _ => rfl) state
  simp only [Console.clear, clear, updateCursor, onConsole]
  rw [← blank]
  rfl

theorem setDisiplayTerminal_console (traced : Traced) (terminalId : Nat) :
    (traced.setDisiplayTerminal terminalId).console =
      traced.console.setDisiplayTerminal terminalId :=
  rfl

theorem putsScroll_console (traced : Traced) (s : Nat → UInt8) (len : Int) :
    (traced.putsScroll s len).console = traced.console.putsScroll s len :=
  (forUpTo_hom Traced.console _
    (fun index state _ => (state.putcScroll_console (s index)).symm) traced).symm

/-! ## Recorded cells -/

/-- Every recorded cell is on the screen. -/
def OnPages (traced : Traced) : Prop :=
  ∀ cell ∈ traced.cells, cell.OnPage

variable {traced : Traced}

theorem OnPages.onConsole (kept : traced.OnPages) (change : Console → Console) :
    (traced.onConsole change).OnPages :=
  kept

theorem OnPages.record (kept : traced.OnPages) (console : Console) {base : Nat} {index : Int}
    (drawable : base = videoMem ∨ base = physicalVideoMem) (nonneg : 0 ≤ index)
    (small : index < 2000) :
    OnPages { console := console, cells := { base := base, index := index } :: traced.cells } := by
  intro cell member
  rcases List.mem_cons.mp member with rfl | earlier
  · exact ⟨drawable, nonneg, small⟩
  · exact kept cell earlier

theorem OnPages.putCell (kept : traced.OnPages) {base : Nat} {x y : Int} (c : UInt8)
    (drawable : base = videoMem ∨ base = physicalVideoMem) (nonneg : 0 ≤ 80 * y + x)
    (small : 80 * y + x < 2000) : (traced.putCell base x y c).OnPages :=
  kept.record _ drawable nonneg small

/-- `shift_up` and `shift_up_display` write the cells of the screen, wherever
the cursors are. -/
theorem OnPages.shiftUpAt (kept : traced.OnPages) {base : Nat} (terminalId : Nat)
    (drawable : base = videoMem ∨ base = physicalVideoMem) :
    (traced.shiftUpAt base terminalId).OnPages := by
  have moved : OnPages (forUpTo 24 (fun y state => forUpTo 80 (fun x state =>
      state.putCell base x y
        (state.console.load (Console.cellAddress base x (y + 1 : Nat)))) state) traced) := by
    apply forUpTo_rule (fun _ => OnPages) 24 kept
    intro y state rowBound stateKept
    apply forUpTo_rule (fun _ => OnPages) 80 stateKept
    intro x state columnBound innerKept
    exact innerKept.putCell _ drawable (by omega) (by omega)
  have blanked : ∀ state : Traced, state.OnPages →
      OnPages (forUpTo 80 (fun x state => state.putCell base x 24 space) state) := by
    intro state stateKept
    apply forUpTo_rule (fun _ => OnPages) 80 stateKept
    intro x state columnBound innerKept
    exact innerKept.putCell space drawable (by omega) (by omega)
  unfold Traced.shiftUpAt
  exact (blanked _ moved).onConsole _

theorem OnPages.scrollAt (kept : traced.OnPages) {base : Nat} (terminalId : Nat)
    (drawable : base = videoMem ∨ base = physicalVideoMem) :
    (traced.scrollAt base terminalId).OnPages :=
  whileDo_rule OnPages (fun _ stateKept => stateKept.shiftUpAt terminalId drawable) 2 kept

/-- A character goes to a cell of the screen when the cursor is not left of
it, above it or right of it: a cursor below the screen is scrolled up first. -/
theorem OnPages.putcScrollAt (kept : traced.OnPages) {base : Nat} (terminalId : Nat)
    (drawable : base = videoMem ∨ base = physicalVideoMem)
    (xNonneg : 0 ≤ traced.console.screenX terminalId)
    (xLt : traced.console.screenX terminalId < 80)
    (yNonneg : 0 ≤ traced.console.screenY terminalId) (c : UInt8) :
    (traced.putcScrollAt base terminalId c).OnPages := by
  unfold Traced.putcScrollAt
  by_cases newline : isNewline c = true
  · rw [if_pos newline]
    have moved : (traced.setCursor terminalId 0
        (traced.console.screenY terminalId + 1)).OnPages := kept
    exact moved.scrollAt terminalId drawable
  · rw [if_neg newline]
    have scrolledKept := kept.scrollAt terminalId drawable
    have cursor : 0 ≤ (traced.scrollAt base terminalId).console.screenX terminalId ∧
        (traced.scrollAt base terminalId).console.screenX terminalId < 80 ∧
        0 ≤ (traced.scrollAt base terminalId).console.screenY terminalId ∧
        (traced.scrollAt base terminalId).console.screenY terminalId < 25 := by
      rw [scrollAt_console]
      rcases traced.console.scrollAt_cases base terminalId with ⟨above, skipped⟩ | ⟨-, once⟩
      · rw [skipped]
        exact ⟨xNonneg, xLt, yNonneg, above⟩
      · rw [once]
        simp [Console.shiftUpAt, Console.setCursor]
    rcases cursor with ⟨columnNonneg, columnLt, rowNonneg, rowLt⟩
    have put := scrolledKept.putCell c drawable
      (show 0 ≤ 80 * (traced.scrollAt base terminalId).console.screenY terminalId +
        (traced.scrollAt base terminalId).console.screenX terminalId by omega) (by omega)
    exact put

theorem OnPages.putcScroll (kept : traced.OnPages) (coherent : traced.console.Coherent)
    (c : UInt8) : (traced.putcScroll c).OnPages := by
  have on := coherent.onScreen_of_lt coherent.active_lt
  have drawn := kept.putcScrollAt traced.console.activeTerminal (.inl rfl) on.x_nonneg on.x_lt
    on.y_nonneg c
  unfold Traced.putcScroll
  by_cases displayed : traced.console.activeTerminal =
      (traced.putcScrollAt videoMem traced.console.activeTerminal c).console.displayTerminal
  · simp only [if_pos displayed]
    exact drawn
  · simp only [if_neg displayed]
    exact drawn

theorem OnPages.putcScrollDisplay (kept : traced.OnPages) (coherent : traced.console.Coherent)
    (c : UInt8) : (traced.putcScrollDisplay c).OnPages := by
  have on := coherent.onScreen_of_lt coherent.display_lt
  have drawn := kept.putcScrollAt traced.console.displayTerminal (.inr rfl) on.x_nonneg on.x_lt
    on.y_nonneg c
  exact drawn

theorem OnPages.putsScroll (kept : traced.OnPages) {keyboard : Keyboard}
    (driven : Driven traced.console keyboard) (s : Nat → UInt8) (len : Int) :
    (traced.putsScroll s len).OnPages := by
  have all : (traced.putsScroll s len).OnPages ∧
      Driven (traced.putsScroll s len).console keyboard := by
    apply forUpTo_rule (fun _ state => OnPages state ∧ Driven state.console keyboard)
    · exact ⟨kept, driven⟩
    · rintro index state - ⟨stateKept, stateDriven⟩
      rw [putcScroll_console]
      exact ⟨stateKept.putcScroll stateDriven.coherent (s index), stateDriven.output (s index)⟩
  exact all.1

/-- `erase_last_ch_display` has no guard of its own; it needs a cursor past
the first cell. -/
theorem OnPages.eraseLastChDisplay (kept : traced.OnPages) (coherent : traced.console.Coherent)
    (positive : 0 <
      (traced.console.logicalScreen traced.console.displayTerminal).position) :
    traced.eraseLastChDisplay.OnPages := by
  have on := coherent.onScreen_of_lt coherent.display_lt
  have xLt := on.x_lt
  have yLe := on.y_le
  have below := on.below
  simp only [Screen.position, Console.logicalScreen, Console.screenAt] at positive xLt yLe below
  have moved : ∀ x y : Int, 0 ≤ 80 * y + x → 80 * y + x < 2000 →
      (((traced.setCursor traced.console.displayTerminal x y).putCell physicalVideoMem x y
        space).updateCursor x y).OnPages := by
    intro x y nonneg small
    apply OnPages.onConsole
    exact (kept.onConsole _).putCell space (.inr rfl) nonneg small
  unfold Traced.eraseLastChDisplay
  by_cases firstColumn : traced.console.screenX traced.console.displayTerminal = 0
  · simp only [if_pos firstColumn, setCursor_screenX, setCursor_screenY]
    exact moved 79 (traced.console.screenY traced.console.displayTerminal - 1) (by omega)
      (by omega)
  · simp only [if_neg firstColumn, setCursor_screenX, setCursor_screenY]
    exact moved (traced.console.screenX traced.console.displayTerminal - 1)
      (traced.console.screenY traced.console.displayTerminal) (by omega) (by omega)

theorem OnPages.clear (kept : traced.OnPages) : traced.clear.OnPages := by
  have home : (traced.setCursor traced.console.displayTerminal 0 0).OnPages := kept
  apply OnPages.onConsole
  apply forUpTo_rule (fun _ => OnPages) 2000 home
  intro i state bound stateKept
  exact stateKept.record _ (.inr rfl) (by omega) (by omega)

theorem OnPages.setDisiplayTerminal (kept : traced.OnPages) (terminalId : Nat) :
    (traced.setDisiplayTerminal terminalId).OnPages :=
  kept.onConsole fun console => console.setDisiplayTerminal terminalId

end Traced

/-! ## The handler with a record -/

/-- The routines with a record, as the handler calls them. -/
def tracedOps : ScreenOps Traced where
  displayTerminal traced := traced.console.displayTerminal
  clear := Traced.clear
  putcScrollDisplay := Traced.putcScrollDisplay
  eraseLastChDisplay := Traced.eraseLastChDisplay
  setDisiplayTerminal := Traced.setDisiplayTerminal

/-- A view of one screen as another under which the routines agree. -/
structure ScreenOps.Views {σ : Type u} {τ : Type v} (source : ScreenOps σ)
    (target : ScreenOps τ) (view : σ → τ) : Prop where
  displayTerminal : ∀ screen, target.displayTerminal (view screen) =
    source.displayTerminal screen
  clear : ∀ screen, target.clear (view screen) = view (source.clear screen)
  putcScrollDisplay : ∀ screen c, target.putcScrollDisplay (view screen) c =
    view (source.putcScrollDisplay screen c)
  eraseLastChDisplay : ∀ screen, target.eraseLastChDisplay (view screen) =
    view (source.eraseLastChDisplay screen)
  setDisiplayTerminal : ∀ screen terminalId, target.setDisiplayTerminal (view screen) terminalId =
    view (source.setDisiplayTerminal screen terminalId)

/-- The result of the handler on the screen seen through a view. -/
def KeyResult.view {σ : Type u} {τ : Type v} (result : KeyResult σ) (view : σ → τ) :
    KeyResult τ :=
  { screen := view result.screen, keyboard := result.keyboard, launch := result.launch }

section Views

variable {σ : Type u} {τ : Type v} {source : ScreenOps σ} {target : ScreenOps τ} {view : σ → τ}

theorem altKey_view (views : source.Views target view) (pidFree : Bool) (screen : σ)
    (keyboard : Keyboard) (c : Nat) :
    altKey target pidFree (view screen) keyboard c =
      (altKey source pidFree screen keyboard c).view view := by
  simp only [altKey, views.setDisiplayTerminal]
  repeat' split
  all_goals rfl

theorem makeBreak_view (views : source.Views target view) (pidFree : Bool) (screen : σ)
    (keyboard : Keyboard) (c : Nat) :
    makeBreak target pidFree (view screen) keyboard c =
      (makeBreak source pidFree screen keyboard c).view view := by
  simp only [makeBreak, altKey_view views, views.displayTerminal, views.clear,
    views.putcScrollDisplay]
  repeat' split
  all_goals rfl

theorem enterKey_view (views : source.Views target view) (result : KeyResult σ) (c : Nat) :
    enterKey target (result.view view) c = (enterKey source result c).view view := by
  simp only [enterKey, KeyResult.view, views.displayTerminal]
  split <;> rfl

theorem backspaceKey_view (views : source.Views target view) (result : KeyResult σ) (c : Nat) :
    backspaceKey target (result.view view) c = (backspaceKey source result c).view view := by
  simp only [backspaceKey, KeyResult.view, views.displayTerminal, views.eraseLastChDisplay]
  split <;> rfl

/-- The handler does the same on a screen and on a view of it. -/
theorem scancodeProcessing_view (views : source.Views target view) (pidFree : Bool) (screen : σ)
    (keyboard : Keyboard) (c : UInt8) :
    scancodeProcessing target pidFree (view screen) keyboard c =
      (scancodeProcessing source pidFree screen keyboard c).view view := by
  simp only [scancodeProcessing, makeBreak_view views, enterKey_view views,
    backspaceKey_view views]

end Views

/-- Dropping the record gives the console. -/
theorem tracedOps_views : tracedOps.Views consoleOps Traced.console where
  displayTerminal _ := rfl
  clear traced := traced.clear_console.symm
  putcScrollDisplay traced c := (traced.putcScrollDisplay_console c).symm
  eraseLastChDisplay traced := traced.eraseLastChDisplay_console.symm
  setDisiplayTerminal traced terminalId := (traced.setDisiplayTerminal_console terminalId).symm

theorem makeBreak_onPages {traced : Traced} (kept : traced.OnPages)
    (coherent : traced.console.Coherent) (pidFree : Bool) (keyboard : Keyboard) (c : Nat) :
    (makeBreak tracedOps pidFree traced keyboard c).screen.OnPages := by
  have changed := makeBreak_screen tracedOps pidFree traced keyboard c
  generalize switchOf keyboard c = switched at changed
  generalize (makeBreak tracedOps pidFree traced keyboard c).screen = screen at changed ⊢
  cases changed with
  | same => exact kept
  | cleared => exact kept.clear
  | echoed c => exact kept.putcScrollDisplay coherent c
  | shown terminalId => exact kept.setDisiplayTerminal terminalId

/-- Backspace steps back only where the line being typed is not empty, and
the cursor is past that line. -/
theorem backspaceKey_onPages {result : KeyResult Traced} (kept : result.screen.OnPages)
    (driven : Driven result.screen.console result.keyboard) (c : Nat) :
    (backspaceKey tracedOps result c).screen.OnPages := by
  unfold backspaceKey
  by_cases erases : c = scancodeBackspace ∧
      result.keyboard.cursorInd (tracedOps.displayTerminal result.screen) ≠ 0
  · rw [if_pos erases]
    have typed : result.keyboard.cursorInd result.screen.console.displayTerminal ≠ 0 := erases.2
    have behind := (driven.behind_of_lt driven.coherent.display_lt).1
    exact kept.eraseLastChDisplay driven.coherent (by omega)
  · rw [if_neg erases]
    exact kept

theorem scancodeProcessing_onPages {traced : Traced} {keyboard : Keyboard}
    (kept : traced.OnPages) (driven : Driven traced.console keyboard) (pidFree : Bool)
    (c : UInt8) : (scancodeProcessing tracedOps pidFree traced keyboard c).screen.OnPages := by
  have entered := (enterKey_simulates (makeBreak_simulates driven pidFree c.toNat) c.toNat).driven
  rw [makeBreak_view tracedOps_views, enterKey_view tracedOps_views] at entered
  apply backspaceKey_onPages _ entered
  have made := makeBreak_onPages kept driven.coherent pidFree keyboard c.toNat
  unfold enterKey
  split
  · exact made
  · exact made

/-! ## Whole runs -/

/-- The terminals with a record of the cells written. -/
structure TracedTerminals where
  screen : Traced
  keyboard : Keyboard

/-- Start a record. -/
def Terminals.traced (terminals : Terminals) : TracedTerminals :=
  { screen := { console := terminals.console, cells := [] }, keyboard := terminals.keyboard }

namespace TracedTerminals

/-- Drop the record. -/
def terminals (traced : TracedTerminals) : Terminals :=
  { console := traced.screen.console, keyboard := traced.keyboard }

/-- One event on the terminals with a record. -/
def step (traced : TracedTerminals) : Event → TracedTerminals
  | .putcScroll c => { traced with screen := traced.screen.putcScroll c }
  | .putsScroll s len => { traced with screen := traced.screen.putsScroll s len }
  | .vidmapStore offset byte =>
      { traced with screen := traced.screen.onConsole fun console =>
          console.vidmapStore offset byte }
  | .key pidFree c =>
      let result := scancodeProcessing tracedOps pidFree traced.screen traced.keyboard c
      { screen := result.screen, keyboard := result.keyboard }
  | .setActiveTerminal terminalId =>
      { traced with screen := traced.screen.onConsole fun console =>
          console.setActiveTerminal terminalId }
  | .setDisiplayTerminal terminalId =>
      { traced with screen := traced.screen.setDisiplayTerminal terminalId }

theorem onConsole_terminals (traced : TracedTerminals) (change : Console → Console) :
    ({ traced with screen := traced.screen.onConsole change } : TracedTerminals).terminals =
      { traced.terminals with console := change traced.terminals.console } :=
  rfl

theorem step_terminals (traced : TracedTerminals) (event : Event) :
    (traced.step event).terminals = traced.terminals.step event := by
  cases event with
  | putcScroll c =>
      simp only [step, terminals, Terminals.step, Traced.putcScroll_console]
  | putsScroll s len =>
      simp only [step, terminals, Terminals.step, Traced.putsScroll_console]
  | vidmapStore offset byte =>
      exact traced.onConsole_terminals fun console => console.vidmapStore offset byte
  | key pidFree c =>
      simp only [step, terminals, Terminals.step, scancodeProcessing_view tracedOps_views]
      rfl
  | setActiveTerminal terminalId =>
      exact traced.onConsole_terminals fun console => console.setActiveTerminal terminalId
  | setDisiplayTerminal terminalId =>
      exact traced.onConsole_terminals fun console => console.setDisiplayTerminal terminalId

theorem step_onPages (traced : TracedTerminals) (kept : traced.screen.OnPages)
    (driven : Driven traced.screen.console traced.keyboard) (event : Event) :
    (traced.step event).screen.OnPages := by
  cases event with
  | putcScroll c => exact kept.putcScroll driven.coherent c
  | putsScroll s len => exact kept.putsScroll driven s len
  | vidmapStore offset byte => exact kept.onConsole _
  | key pidFree c => exact scancodeProcessing_onPages kept driven pidFree c
  | setActiveTerminal terminalId => exact kept.onConsole _
  | setDisiplayTerminal terminalId => exact kept.setDisiplayTerminal terminalId

/-- Every run with a record is the run, and its record is on the screen. -/
theorem run_onPages (start : Terminals) (driven : Driven start.console start.keyboard)
    (events : List Event) :
    (Driven (events.foldl step start.traced).screen.console
        (events.foldl step start.traced).keyboard ∧
      (events.foldl step start.traced).screen.OnPages) ∧
      (events.foldl step start.traced).terminals = events.foldl Terminals.step start := by
  apply foldl_simulation step Terminals.step terminals (fun traced =>
    Driven traced.screen.console traced.keyboard ∧ traced.screen.OnPages)
  · rintro traced event ⟨stateDriven, kept⟩
    have next := (step_simulates traced.terminals stateDriven event).1
    rw [← step_terminals] at next
    exact ⟨next, traced.step_onPages kept stateDriven event⟩
  · intro traced event _
    exact traced.step_terminals event
  · exact ⟨driven, fun cell member => absurd member (List.not_mem_nil)⟩

end TracedTerminals

/-- Screen writes stay on the screen.  After any events from boot, every cursor
is on its screen or at the start of the row below it, and not before the line
being typed; every character cell written on the way is one of the cells of
its page; and every scroll loop leaves after one iteration at most. -/
theorem screenWrites_onScreen (paging : PageTables) (memory : Memory)
    (printBuffer : Nat → UInt8) (events : List Event) :
    let start := Terminals.boot paging memory printBuffer
    let final := events.foldl Terminals.step start
    let traced := events.foldl TracedTerminals.step start.traced
    (∀ t : Fin 3, 0 ≤ final.console.screenX t ∧ final.console.screenX t < 80 ∧
        0 ≤ final.console.screenY t ∧ final.console.screenY t ≤ 25 ∧
        (final.console.screenY t = 25 → final.console.screenX t = 0) ∧
        (final.keyboard.cursorInd t : Int) ≤
          80 * final.console.screenY t + final.console.screenX t) ∧
      traced.terminals = final ∧
      (∀ cell ∈ traced.screen.cells, cell.OnPage) ∧
      ∀ (console : Console) (base terminalId : Nat), ∃ n ≤ 1,
        StopsAfter (fun state : Console => decide (state.screenY terminalId ≥ 25))
          (fun state => state.shiftUpAt base terminalId) console n ∧
        console.scrollAt base terminalId =
          (fun state : Console => state.shiftUpAt base terminalId)^[n] console := by
  intro start final traced
  rcases TracedTerminals.run_onPages start (Terminals.boot_driven paging memory printBuffer)
    events with ⟨⟨-, kept⟩, same⟩
  have driven : Driven final.console final.keyboard :=
    (run_simulates paging memory printBuffer events).1
  constructor
  · intro t
    have on := driven.coherent.onScreen t
    have behind := (driven.behind t).1
    rw [Screen.position, Int.mul_comm] at behind
    exact ⟨on.x_nonneg, on.x_lt, on.y_nonneg, on.y_le, on.below, behind⟩
  · refine ⟨same, kept, ?_⟩
    intro console base terminalId
    have stops := console.scrollLoop_stops base terminalId
    have atMostOnce : (if console.screenY terminalId ≥ 25 then 1 else 0) ≤ 1 := by
      split <;> decide
    exact ⟨_, atMostOnce, stops, stops.whileDo_eq (Nat.le_succ_of_le atMostOnce)⟩

end PonyOS.Terminal
