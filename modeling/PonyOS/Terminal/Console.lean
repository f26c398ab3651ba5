import PonyOS.FileSystem.Lookup
import PonyOS.Paging.Tables

/-!
# The console

The screen routines of the kernel library.  Process output goes through the
page at `0xB8000`, which is remapped to follow the active terminal; the
keyboard side goes through `0xBC000`, which always reaches VGA memory.  Every
access is translated by the page tables before it touches physical memory, so
the aliases between these addresses are those of the machine.
-/

namespace PonyOS.Terminal

open PonyOS.Lib.Loop
open PonyOS.Lib.Word
open PonyOS.Paging

/-- Screen statics of the library, with the page tables, the physical memory
and the cursor position held by the display controller. -/
structure Console where
  paging : PageTables
  memory : Memory
  screenX : Nat → Int
  screenY : Nat → Int
  displayTerminal : Nat
  activeTerminal : Nat
  hardwareCursor : Nat

/-- `VIDEO`. -/
def videoMem : Nat := 0xB8000

/-- `VIDEO_PHYSICAL`. -/
def physicalVideoMem : Nat := 0xB8000 + 0x4000

/-- `TERMINAL_MEM[terminalId]`. -/
def terminalMem (terminalId : Nat) : Nat :=
  0xB8000 + 0x1000 * (terminalId + 1)

/-- `ATTRIB`. -/
def attrib : UInt8 := 7

/-- The character `' '`. -/
def space : UInt8 := 32

/-- The characters that move to the next line, `'\n'` and `'\r'`. -/
def isNewline (c : UInt8) : Bool :=
  c = 10 || c = 13

/-- `VIDEO_USER`: the page that `vidmap` hands out. -/
def videoUser : Nat := 0xB8000 + 0xA000000

namespace Console

/-- A kernel load; the kernel runs with supervisor privilege. -/
def load (console : Console) (address : Nat) : UInt8 :=
  match console.paging.translate false address with
  | none => 0
  | some physical => console.memory physical

/-- A store with a given privilege.  A store that does not translate would
stop the machine in the page-fault handler and changes no memory. -/
def storeAs (user : Bool) (console : Console) (address : Nat) (byte : UInt8) : Console :=
  match console.paging.translate user address with
  | none => console
  | some physical => { console with memory := Function.update console.memory physical byte }

/-- A kernel store. -/
def store (console : Console) (address : Nat) (byte : UInt8) : Console :=
  storeAs false console address byte

/-- `memcpy` between virtual addresses. -/
def memcpy (console : Console) (dest src n : Nat) : Console :=
  forUpTo n (fun i state => state.store (dest + i) (state.load (src + i))) console

/-- `update_cursor`: two port writes with the low and the high byte of a
`uint16_t`. -/
def updateCursor (console : Console) (x y : Int) : Console :=
  { console with hardwareCursor := ((y * 80 + x) % 65536).toNat }

/-- Address of the character cell at column `x` and row `y`. -/
def cellAddress (base : Nat) (x y : Int) : Nat :=
  uint32 (base + 2 * (80 * y + x))

/-- Store a character with the standard attribute. -/
def putCell (console : Console) (base : Nat) (x y : Int) (c : UInt8) : Console :=
  (console.store (cellAddress base x y) c).store (cellAddress base x y + 1) attrib

def setCursor (console : Console) (terminalId : Nat) (x y : Int) : Console :=
  { console with
    screenX := Function.update console.screenX terminalId x
    screenY := Function.update console.screenY terminalId y }

/-- The common body of `shift_up` and `shift_up_display`. -/
def shiftUpAt (console : Console) (base terminalId : Nat) : Console :=
  let moved := forUpTo 24 (fun y state =>
    forUpTo 80 (fun x state =>
      state.putCell base x y (state.load (cellAddress base x (y + 1 : Nat)))) state) console
  let blanked := forUpTo 80 (fun x state => state.putCell base x 24 space) moved
  blanked.setCursor terminalId 0 24

/-- `shift_up`. -/
def shiftUp (console : Console) : Console :=
  console.shiftUpAt videoMem console.activeTerminal

/-- `shift_up_display`. -/
def shiftUpDisplay (console : Console) : Console :=
  console.shiftUpAt physicalVideoMem console.displayTerminal

/-- `while (screen_y_multi[t] >= NUM_ROWS) shift_up();`.  One iteration puts
the row back on the screen, so two are never needed. -/
def scrollAt (console : Console) (base terminalId : Nat) : Console :=
  whileDo 2 (fun state => decide (state.screenY terminalId ≥ 25))
    (fun state => state.shiftUpAt base terminalId) console

/-- The common body of `putc_scroll` and `putc_scroll_display`, up to the
cursor update. -/
def putcScrollAt (console : Console) (base terminalId : Nat) (c : UInt8) : Console :=
  if isNewline c then
    (console.setCursor terminalId 0 (console.screenY terminalId + 1)).scrollAt base terminalId
  else
    let scrolled := console.scrollAt base terminalId
    let x := scrolled.screenX terminalId
    let y := scrolled.screenY terminalId
    (scrolled.putCell base x y c).setCursor terminalId
      ((x + 1).tmod 80) (y + (x + 1).tdiv 80)

/-- `putc_scroll`. -/
def putcScroll (console : Console) (c : UInt8) : Console :=
  let active := console.activeTerminal
  let drawn := console.putcScrollAt videoMem active c
  if active = drawn.displayTerminal then
    drawn.updateCursor (drawn.screenX active) (drawn.screenY active)
  else drawn

/-- `putc_scroll_display`. -/
def putcScrollDisplay (console : Console) (c : UInt8) : Console :=
  let display := console.displayTerminal
  let drawn := console.putcScrollAt physicalVideoMem display c
  drawn.updateCursor (drawn.screenX display) (drawn.screenY display)

/-- `erase_last_ch_display`. -/
def eraseLastChDisplay (console : Console) : Console :=
  let display := console.displayTerminal
  let moved :=
    if console.screenX display = 0 then
      console.setCursor display 79 (console.screenY display - 1)
    else console.setCursor display (console.screenX display - 1) (console.screenY display)
  let x := moved.screenX display
  let y := moved.screenY display
  (moved.putCell physicalVideoMem x y space).updateCursor x y

/-- `clear`. -/
def clear (console : Console) : Console :=
  let display := console.displayTerminal
  let home := console.setCursor display 0 0
  let blank := forUpTo 2000 (fun i state =>
    (state.store (physicalVideoMem + 2 * i) space).store
      (physicalVideoMem + 2 * i + 1) attrib) home
  blank.updateCursor 0 0

/-- `puts_scroll`; the length `-1` asks for the length of the string. -/
def putsScroll (console : Console) (s : Nat → UInt8) (len : Int) : Console :=
  let lim := if len = -1 then (FileSystem.strlen s FileSystem.addressSpace : Int) else len
  forUpTo lim.toNat (fun index state => state.putcScroll (s index)) console

/-- `set_active_terminal`. -/
def setActiveTerminal (console : Console) (terminalId : Nat) : Console :=
  { console with
    paging := console.paging.setActiveTerminalPaging terminalId
      (terminalId = console.displayTerminal)
    activeTerminal := terminalId }

/-- The second half of `set_disiplay_terminal`: record the terminal, remap the
page of the active one and move the hardware cursor. -/
def showTerminal (console : Console) (terminalId : Nat) : Console :=
  let switched := { console with displayTerminal := terminalId }
  let remapped := switched.setActiveTerminal switched.activeTerminal
  remapped.updateCursor (remapped.screenX terminalId) (remapped.screenY terminalId)

/-- `set_disiplay_terminal`. -/
def setDisiplayTerminal (console : Console) (terminalId : Nat) : Console :=
  let saved := console.memcpy (terminalMem console.displayTerminal) physicalVideoMem 0x1000
  let shown := saved.memcpy physicalVideoMem (terminalMem terminalId) 0x1000
  shown.showTerminal terminalId

/-- `setup_task_page`, on the page tables of the console. -/
def setupTaskPage (console : Console) (ind : Nat) : Console :=
  { console with paging := console.paging.setupTaskPage ind }

/-- A store that a user program makes through its video window. -/
def vidmapStore (console : Console) (offset : Nat) (byte : UInt8) : Console :=
  storeAs true console (videoUser + offset) byte

end Console

end PonyOS.Terminal
