import PonyOS.FileSystem.ReadData
import PonyOS.Terminal.Frame
import PonyOS.Terminal.Switching

/-!
# Process control blocks and the kernel state

The kernel state is the globals of the system-call and scheduler code together
with the process control blocks, the terminals and the mounted file system.  A
pointer to a control block is the slot it points to; the function pointers of
a descriptor are an enumeration of the handlers that the kernel ever stores.
-/

namespace PonyOS.Process

open PonyOS.FileSystem
open PonyOS.Lib.Word
open PonyOS.Paging
open PonyOS.Terminal

/-- The values of the function pointers of a descriptor. -/
inductive Handler
  | null
  | terminalReadWrapper
  | terminalWriteWrapper
  | rtcReadWrapper
  | rtcWriteWrapper
  | filesysRead
  | filesysWriteWrapper
  | dirReadWrapper
  | dirWriteWrapper
  deriving DecidableEq

/-- `file_desc_t`. -/
structure FileDesc where
  read : Handler
  write : Handler
  inode : Int
  filePosition : Int
  flags : Int
  deriving DecidableEq

/-- Values of the two registers that a context switch saves and restores. -/
structure Registers where
  esp : Nat
  ebp : Nat
  deriving DecidableEq

/-- `pcb_t`. -/
structure Pcb where
  parent : Option Nat
  child : Option Nat
  parentEsp : Nat
  parentEbp : Nat
  currentEsp : Nat
  currentEbp : Nat
  terminal : Nat
  isTerminal : Int
  fileArray : Nat → FileDesc
  available : Nat → UInt8
  pid : Nat

/-- The registers saved when a process was left. -/
def Pcb.saved (pcb : Pcb) : Registers :=
  { esp := pcb.currentEsp, ebp := pcb.currentEbp }

/-- The registers saved when a process was started. -/
def Pcb.parentSaved (pcb : Pcb) : Registers :=
  { esp := pcb.parentEsp, ebp := pcb.parentEbp }

/-- A zeroed descriptor. -/
def zeroFileDesc : FileDesc :=
  { read := .null, write := .null, inode := 0, filePosition := 0, flags := 0 }

/-- A control block in zeroed memory. -/
def zeroPcb : Pcb :=
  { parent := none
    child := none
    parentEsp := 0
    parentEbp := 0
    currentEsp := 0
    currentEbp := 0
    terminal := 0
    isTerminal := 0
    fileArray := fun _ => zeroFileDesc
    available := fun _ => 0
    pid := 0 }

/-- `FDT_SIZE`. -/
def fdtSize : Nat := 8

/-- `MAX_PID`. -/
def maxPid : Nat := 8

/-- `MAX_ARG_SIZE`. -/
def maxArgSize : Nat := 4096

/-- `ASSIGNED_PCB_SIZE`. -/
def assignedPcbSize : Nat := 0x2000

/-- `MEM_DEFENSE_SIZE`. -/
def memDefenseSize : Nat := 8

/-- `get_kernel_stack_bottom`. -/
def getKernelStackBottom (pid : Nat) : Int :=
  0x800000 - assignedPcbSize * (pid + 1)

/-- The value of `tss.esp0` while a process runs. -/
def stackTop (pid : Nat) : Int :=
  getKernelStackBottom pid + assignedPcbSize - memDefenseSize

/-- Kernel state.  The rows of `arg_buf` are adjacent, so it is kept flat: row
`pid` starts at `4096 * pid`.  `current_pid` is `none` for `-1`.  The last field
is no variable of the source but the place where the processor is: between the
`sti` and the `clear` of a root that halts. -/
structure Kernel where
  fs : Volume
  currentDirReadIndex : Int
  terminals : Terminals
  nextInterrupt : Bool
  argBuf : Nat → UInt8
  fname : Nat → UInt8
  processStatus : Nat → Bool
  argAvailable : Nat → Bool
  currentPid : Option Nat
  totalRunningProcess : Int
  entryPoint : Nat
  pcb : Nat → Pcb
  tssEsp0 : Int
  clearing : Bool

namespace Kernel

/-- Replace one control block. -/
def setPcb (kernel : Kernel) (slot : Nat) (pcb : Pcb) : Kernel :=
  { kernel with pcb := Function.update kernel.pcb slot pcb }

/-- Change the console. -/
def onConsole (kernel : Kernel) (change : Console → Console) : Kernel :=
  { kernel with
    terminals := { kernel.terminals with console := change kernel.terminals.console } }

/-- `is_running`. -/
def isRunning (kernel : Kernel) (pid : Nat) : Bool :=
  if pid = 0 then false else kernel.processStatus pid

/-- `get_empty_pid`. -/
def getEmptyPid (kernel : Kernel) : Option Nat :=
  (List.range' 1 7).find? fun i => kernel.processStatus i = false

/-- The process that runs in user mode: the current one, unless it is a root
that has halted. -/
def userProcess (kernel : Kernel) : Option Nat :=
  kernel.currentPid.filter kernel.processStatus

end Kernel

/-- `pcb_init`, on the control block of `pid`. -/
def pcbInit (pcb : Pcb) (pid : Nat) : Pcb :=
  { pcb with
    pid := pid
    fileArray := fun i =>
      if i = 0 then
        { pcb.fileArray i with read := .terminalReadWrapper, write := .null, flags := 1 }
      else if i = 1 then
        { pcb.fileArray i with read := .null, write := .terminalWriteWrapper, flags := 1 }
      else if i < fdtSize then { pcb.fileArray i with flags := 0 }
      else pcb.fileArray i }

/-- The kernel when the first program is about to start.  Control blocks are
zero; the file system, the memory behind the screens and the argument buffers
are whatever they are. -/
def Kernel.boot (fs : Volume) (paging : PageTables) (memory : Memory)
    (printBuffer argBuf fname : Nat → UInt8) (currentDirReadIndex : Int) : Kernel :=
  { fs := fs
    currentDirReadIndex := currentDirReadIndex
    terminals :=
      { console := Console.boot paging memory
        keyboard := Keyboard.keyboardInit printBuffer }
    nextInterrupt := false
    argBuf := argBuf
    fname := fname
    processStatus := fun _ => false
    argAvailable := fun _ => false
    currentPid := none
    totalRunningProcess := 0
    entryPoint := 0
    pcb := fun _ => zeroPcb
    tssEsp0 := 0x800000
    clearing := false }

namespace Kernel

theorem onConsole_fs (kernel : Kernel) (change : Console → Console) :
    (kernel.onConsole change).fs = kernel.fs :=
  rfl

theorem onConsole_currentDirReadIndex (kernel : Kernel) (change : Console → Console) :
    (kernel.onConsole change).currentDirReadIndex = kernel.currentDirReadIndex :=
  rfl

theorem onConsole_keyboard (kernel : Kernel) (change : Console → Console) :
    (kernel.onConsole change).terminals.keyboard = kernel.terminals.keyboard :=
  rfl

theorem onConsole_currentPid (kernel : Kernel) (change : Console → Console) :
    (kernel.onConsole change).currentPid = kernel.currentPid :=
  rfl

theorem onConsole_pcb (kernel : Kernel) (change : Console → Console) :
    (kernel.onConsole change).pcb = kernel.pcb :=
  rfl

theorem onConsole_processStatus (kernel : Kernel) (change : Console → Console) :
    (kernel.onConsole change).processStatus = kernel.processStatus :=
  rfl

theorem onConsole_argBuf (kernel : Kernel) (change : Console → Console) :
    (kernel.onConsole change).argBuf = kernel.argBuf :=
  rfl

theorem onConsole_argAvailable (kernel : Kernel) (change : Console → Console) :
    (kernel.onConsole change).argAvailable = kernel.argAvailable :=
  rfl

theorem onConsole_tssEsp0 (kernel : Kernel) (change : Console → Console) :
    (kernel.onConsole change).tssEsp0 = kernel.tssEsp0 :=
  rfl

theorem getEmptyPid_eq_some {kernel : Kernel} {pid : Nat}
    (found : kernel.getEmptyPid = some pid) :
    1 ≤ pid ∧ pid < maxPid ∧ kernel.processStatus pid = false := by
  have member := List.mem_of_find?_eq_some found
  have free := List.find?_some found
  rw [List.mem_range'_1] at member
  exact ⟨member.1, member.2, by simpa using free⟩

theorem processStatus_of_isRunning {kernel : Kernel} {pid : Nat}
    (isRunning : kernel.isRunning pid = true) : kernel.processStatus pid = true := by
  unfold Kernel.isRunning at isRunning
  split at isRunning
  · contradiction
  · exact isRunning

theorem userProcess_eq_some {kernel : Kernel} {pid : Nat} :
    kernel.userProcess = some pid ↔
      kernel.currentPid = some pid ∧ kernel.processStatus pid = true := by
  simp [userProcess, Option.filter_eq_some_iff]

end Kernel

end PonyOS.Process
