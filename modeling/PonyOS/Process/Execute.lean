import PonyOS.Process.Kernel

/-!
# Starting a process

`execute_with_terminal_num` looks the program up, checks its magic number,
claims a process slot, stores the arguments, maps the page, loads the program,
links the control block and leaves for user mode.  The stack buffer that
receives the header is uninitialised, so its contents are an argument.
-/

namespace PonyOS.Process

open PonyOS.FileSystem
open PonyOS.Lib.Word
open PonyOS.Terminal

/-- `USER_PROGRAM_ADDR`. -/
def userProgramAddr : Nat := 0x8048000

/-- `USER_PAGE_START`. -/
def userPageStart : Nat := 0x8000000

/-- `USER_PAGE_END`. -/
def userPageEnd : Nat := 0x8400000

/-- `EXEC_INFO_BYTES`. -/
def execInfoBytes : Nat := 28

/-- `max_int`. -/
def maxInt : Nat := 0x7fffffff

/-- The four bytes that start an executable. -/
def executableChecking : List UInt8 := [0x7f, 0x45, 0x4c, 0x46]

/-- A buffer after some stores into it. -/
def storeAll (buffer : Nat → UInt8) (stores : List Store) : Nat → UInt8 :=
  stores.foldl (fun buffer store => Function.update buffer store.address store.byte) buffer

/-- The local buffer after `filesys_read_by_name(fname, tempBuf, 28)`. -/
def readHeader (fs : Volume) (fname : CString) (tempBuf : Nat → UInt8) : Nat → UInt8 :=
  storeAll tempBuf (fs.readStores (fs.filesysReadByName fname 0 execInfoBytes))

/-- `tempBuf_int[6]`. -/
def headerEntry (tempBuf : Nat → UInt8) : Nat :=
  (tempBuf 24).toNat + 256 * (tempBuf 25).toNat + 65536 * (tempBuf 26).toNat +
    16777216 * (tempBuf 27).toNat

/-- The magic-number test. -/
def isExecutable (tempBuf : Nat → UInt8) : Bool :=
  (List.range 4).map tempBuf = executableChecking

/-- `load_executable`.  The copy faults at the end of the user page, which
stops the machine: `none`. -/
def loadExecutable (fs : Volume) (fname : CString) (dest : Nat) : Option Int :=
  let result := fs.filesysReadByName fname dest maxInt
  if (fs.readStores result).all fun store =>
      userPageStart ≤ store.address ∧ store.address < userPageEnd then
    some (if result.value ≠ -1 then 0 else -1)
  else none

/-- Index of the first blank of a command, or its length. -/
def nameEnd (command : CString) : Nat :=
  command.chars.findIdx fun c => c = 32

/-- The program name: what precedes the first blank. -/
def programName (command : CString) : CString :=
  { chars := command.chars.take (nameEnd command)
    noNul := fun member => command.noNul (List.mem_of_mem_take member) }

/-- The argument text: what follows the blanks after the name. -/
def argumentText (command : CString) : List UInt8 :=
  (command.chars.drop (nameEnd command)).dropWhile fun c => c = 32

/-- A buffer after a string and its terminator were copied to an offset. -/
def putString (buffer : Nat → UInt8) (offset : Nat) (text : List UInt8) : Nat → UInt8 :=
  fun k =>
    if offset ≤ k ∧ k ≤ offset + text.length then text.getD (k - offset) 0 else buffer k

namespace Kernel

/-- `memcpy(fname, command, i)` and the terminator. -/
def setName (kernel : Kernel) (name : CString) : Kernel :=
  { kernel with fname := putString kernel.fname 0 name.chars }

/-- The part of `execute_with_terminal_num` between the claim of a slot and
the load of the program. -/
def claimProcess (kernel : Kernel) (command : CString) (pid terminalNum : Nat) : Kernel :=
  let argBuf := putString kernel.argBuf (maxArgSize * pid) (argumentText command)
  { kernel with
    processStatus := Function.update kernel.processStatus pid true
    totalRunningProcess := kernel.totalRunningProcess + 1
    pcb := Function.update kernel.pcb pid (pcbInit (kernel.pcb pid) pid)
    argBuf := argBuf
    argAvailable := Function.update kernel.argAvailable pid
      (decide (0 < strlen (fun k => argBuf (maxArgSize * pid + k)) addressSpace))
    terminals := { kernel.terminals with
      console := (kernel.terminals.console.setupTaskPage pid).setActiveTerminal terminalNum } }

/-- Link the new control block to that of the current process. -/
def linkProcess (kernel : Kernel) (pid terminalNum : Nat) (isTerminal : Int) : Kernel :=
  let linked := kernel.setPcb pid
    { kernel.pcb pid with
      terminal := terminalNum, parent := kernel.currentPid, isTerminal := isTerminal }
  match kernel.currentPid with
  | some parent =>
      if isTerminal = 0 then
        linked.setPcb parent { linked.pcb parent with child := some pid }
      else linked
  | none => linked

/-- Save the registers of the process that is left, and of the new one. -/
def saveContext (kernel : Kernel) (pid : Nat) (registers : Registers) : Kernel :=
  let fresh := kernel.setPcb pid
    { kernel.pcb pid with
      currentEsp := (stackTop pid).toNat, currentEbp := (stackTop pid).toNat }
  let saved :=
    match kernel.currentPid with
    | some previous => fresh.setPcb previous
        { fresh.pcb previous with currentEsp := registers.esp, currentEbp := registers.ebp }
    | none => fresh
  saved.setPcb pid
    { saved.pcb pid with parentEsp := registers.esp, parentEbp := registers.ebp }

/-- The part of `execute_with_terminal_num` after the load.  A halted root that
it interrupts is never resumed. -/
def startProcess (kernel : Kernel) (pid terminalNum : Nat) (isTerminal : Int) (entry : Nat)
    (registers : Registers) : Kernel :=
  { (kernel.linkProcess pid terminalNum isTerminal).saveContext pid registers with
    entryPoint := entry
    tssEsp0 := stackTop pid
    currentPid := some pid
    clearing := false }

end Kernel

/-- How `execute_with_terminal_num` ends: with `-1`, or in user mode in a new
process. -/
inductive ExecuteReply
  | failed
  | started (pid entry : Nat)
  deriving DecidableEq

/-- `execute_with_terminal_num`; `none` means that the machine stopped.  A null
command is `none`. -/
def executeWithTerminalNum (kernel : Kernel) (registers : Registers) (tempBuf : Nat → UInt8)
    (command : Option CString) (terminalNum : Nat) (isTerminal : Int) :
    Option (ExecuteReply × Kernel) :=
  match command with
  | none => some (.failed, kernel)
  | some command =>
      let name := programName command
      let named := kernel.setName name
      let header := readHeader kernel.fs name tempBuf
      if kernel.fs.readDentryByName name = none then some (.failed, named)
      else if isExecutable header = false then some (.failed, named)
      else
        match kernel.getEmptyPid with
        | none => some (.failed, named)
        | some pid =>
            let claimed := named.claimProcess command pid terminalNum
            match loadExecutable kernel.fs name userProgramAddr with
            | none => none
            | some loaded =>
                if loaded = -1 then some (.failed, claimed)
                else some (.started pid (headerEntry header), claimed.startProcess pid
                  terminalNum isTerminal (headerEntry header) registers)

/-- `execute`: the terminal of the caller, and not a root. -/
def execute (kernel : Kernel) (registers : Registers) (tempBuf : Nat → UInt8)
    (command : Option CString) : Option (ExecuteReply × Kernel) :=
  match kernel.currentPid with
  | none => none
  | some pid =>
      executeWithTerminalNum kernel registers tempBuf command (kernel.pcb pid).terminal 0

/-- The command `"shell"`. -/
def shellCommand : CString :=
  { chars := [115, 104, 101, 108, 108], noNul := by decide }

/-! ## What a start leaves alone -/

namespace Kernel

theorem linkProcess_eq (kernel : Kernel) (pid terminalNum : Nat) (isTerminal : Int) :
    kernel.linkProcess pid terminalNum isTerminal =
      { kernel with pcb := (kernel.linkProcess pid terminalNum isTerminal).pcb } := by
  rcases kernel with ⟨fs, index, terminals, next, argBuf, fname, status, available,
    _ | parent, total, entry, pcb, tss, clearing⟩
  · rfl
  · unfold linkProcess
    by_cases isChild : isTerminal = 0
    · simp only [isChild, if_true]
      rfl
    · simp only [isChild, if_false]
      rfl

theorem saveContext_eq (kernel : Kernel) (pid : Nat) (registers : Registers) :
    kernel.saveContext pid registers =
      { kernel with pcb := (kernel.saveContext pid registers).pcb } := by
  rcases kernel with ⟨fs, index, terminals, next, argBuf, fname, status, available,
    _ | previous, total, entry, pcb, tss, clearing⟩
  · rfl
  · rfl

/-- A start changes control blocks, the entry point, the kernel stack and the
current process. -/
theorem startProcess_eq (kernel : Kernel) (pid terminalNum : Nat) (isTerminal : Int)
    (entry : Nat) (registers : Registers) :
    kernel.startProcess pid terminalNum isTerminal entry registers =
      { kernel with
        pcb := (kernel.startProcess pid terminalNum isTerminal entry registers).pcb
        entryPoint := entry
        tssEsp0 := stackTop pid
        currentPid := some pid
        clearing := false } := by
  rw [startProcess, saveContext_eq, linkProcess_eq]

theorem claimProcess_processStatus (kernel : Kernel) (text : CString) (pid terminalNum : Nat) :
    (kernel.claimProcess text pid terminalNum).processStatus =
      Function.update kernel.processStatus pid true :=
  rfl

/-- Claiming a slot changes its own control block only. -/
theorem claimProcess_pcb_of_ne (kernel : Kernel) (text : CString) {pid other : Nat}
    (terminalNum : Nat) (notNew : other ≠ pid) :
    (kernel.claimProcess text pid terminalNum).pcb other = kernel.pcb other :=
  Function.update_of_ne notNew _ _

/-- A start leaves every control block alone but the new one and that of the
process it interrupts. -/
theorem startProcess_pcb_of_ne (kernel : Kernel) {pid other : Nat} (terminalNum : Nat)
    (isTerminal : Int) (entry : Nat) (registers : Registers) (notNew : other ≠ pid)
    (notCurrent : kernel.currentPid ≠ some other) :
    (kernel.startProcess pid terminalNum isTerminal entry registers).pcb other =
      kernel.pcb other := by
  unfold startProcess saveContext linkProcess
  cases currentEq : kernel.currentPid with
  | none => simp [setPcb, currentEq, notNew]
  | some previous =>
      have notPrevious : other ≠ previous := by
        rintro rfl
        exact notCurrent currentEq
      by_cases isChild : isTerminal = 0
      · simp [setPcb, currentEq, notNew, notPrevious, isChild]
      · simp [setPcb, currentEq, notNew, notPrevious, isChild]

/-- The interrupted process has its registers saved, and waits for the new one
unless that is a root. -/
theorem startProcess_previous (kernel : Kernel) {pid previous : Nat} (terminalNum : Nat)
    (isTerminal : Int) (entry : Nat) (registers : Registers)
    (isCurrent : kernel.currentPid = some previous) (notNew : previous ≠ pid) :
    (kernel.startProcess pid terminalNum isTerminal entry registers).pcb previous =
      { kernel.pcb previous with
        child := if isTerminal = 0 then some pid else (kernel.pcb previous).child
        currentEsp := registers.esp
        currentEbp := registers.ebp } := by
  unfold startProcess saveContext linkProcess
  by_cases isChild : isTerminal = 0
  · simp [setPcb, isCurrent, notNew, isChild]
  · simp [setPcb, isCurrent, notNew, isChild]

/-- The new process records who started it and where that one stands. -/
theorem startProcess_new (kernel : Kernel) (pid terminalNum : Nat)
    (isTerminal : Int) (entry : Nat) (registers : Registers) :
    let pcb := (kernel.startProcess pid terminalNum isTerminal entry registers).pcb pid
    pcb.parentEsp = registers.esp ∧ pcb.parentEbp = registers.ebp ∧
      pcb.parent = kernel.currentPid ∧ pcb.terminal = terminalNum ∧
      pcb.isTerminal = isTerminal := by
  unfold startProcess saveContext linkProcess
  cases currentEq : kernel.currentPid with
  | none => simp [setPcb, currentEq]
  | some previous =>
      by_cases isChild : isTerminal = 0
      · by_cases same : pid = previous
        · simp [setPcb, currentEq, isChild, same]
        · simp [setPcb, currentEq, isChild, same]
      · by_cases same : pid = previous
        · simp [setPcb, currentEq, isChild, same]
        · simp [setPcb, currentEq, isChild, same]

end Kernel

end PonyOS.Process
