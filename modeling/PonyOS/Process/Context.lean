import PonyOS.Process.Invariant

/-!
# The machine follows the current process

A switch has to move five things together: the page of the process, its kernel
stack, the active terminal and the two video pages.  Starting a process and the
scheduler set all five.  `halt` sets only the page and the stack and relies on
the parent sharing the terminal; a display switch sets only the video pages.
-/

namespace PonyOS.Process

open PonyOS.FileSystem
open PonyOS.Lib.Transition
open PonyOS.Lib.Word
open PonyOS.Paging
open PonyOS.Terminal

/-- Frame that the video pages of the active terminal must have. -/
def videoFrame (control : Control) : Nat :=
  if control.activeTerminal = control.displayTerminal then 0xB8 else 0xB9 + control.activeTerminal

/-- The control state is set for a process on a terminal. -/
structure ReadyFor (control : Control) (pid terminal : Nat) : Prop where
  present : (control.paging.pageDir userSpaceStart).present = true
  user : (control.paging.pageDir userSpaceStart).userSupervisor = true
  large : (control.paging.pageDir userSpaceStart).size = true
  frame : (control.paging.pageDir userSpaceStart).alignedAddress = 2048 + 1024 * pid
  active : control.activeTerminal = terminal
  kernelVideo : (control.paging.pageTable videoInd).pageAddress = videoFrame control
  userVideo : (control.paging.userVideoPageTable videoInd).pageAddress = videoFrame control

/-- The machine is set for a process. -/
structure MachineContext (kernel : Kernel) (pid : Nat) : Prop where
  control : ReadyFor kernel.terminals.console.control pid (kernel.pcb pid).terminal
  stack : kernel.tssEsp0 = 0x800000 - 0x2000 * pid - 8

/-- The machine is set for the current process, if there is one. -/
def InContext (kernel : Kernel) : Prop :=
  ∀ pid, kernel.currentPid = some pid →
    (kernel.pcb pid).terminal < 3 ∧ MachineContext kernel pid

/-! ## The control state -/

theorem videoFrame_remap (paging : PageTables) {terminal : Nat} (display : Nat)
    (small : terminal < 3) :
    ((paging.setActiveTerminalPaging terminal (terminal = display)).pageTable
        videoInd).pageAddress =
        videoFrame { paging := paging, activeTerminal := terminal, displayTerminal := display } ∧
      ((paging.setActiveTerminalPaging terminal (terminal = display)).userVideoPageTable
        videoInd).pageAddress =
        videoFrame
          { paging := paging, activeTerminal := terminal, displayTerminal := display } := by
  have page : (if decide (terminal = display) = true then videoInd
      else frameBits (videoInd + terminal + 1)) =
      videoFrame { paging := paging, activeTerminal := terminal, displayTerminal := display } := by
    by_cases shown : terminal = display
    · simp [videoFrame, shown, videoInd]
    · rw [frameBits_of_lt (by unfold videoInd; omega)]
      simp only [videoFrame, shown, decide_false, if_false, videoInd, Bool.false_eq_true]
      omega
  constructor
  · rw [← page]
    simp [PageTables.setActiveTerminalPaging, PageTables.setTable, PageTables.setUserTable]
  · rw [← page]
    simp [PageTables.setActiveTerminalPaging, PageTables.setTable, PageTables.setUserTable]

theorem setupTaskPage_pageDir (paging : PageTables) (pid : Nat) :
    (paging.setupTaskPage pid).pageDir userSpaceStart = taskDirEntry pid := by
  simp [PageTables.setupTaskPage, PageTables.setDir, taskDirEntry]

theorem taskDirEntry_frame {pid : Nat} (pidLt : pid < 8) :
    (taskDirEntry pid).alignedAddress = 2048 + 1024 * pid := by
  have bits : frameBits (pid * 1024 + 2 * 1024) = pid * 1024 + 2 * 1024 :=
    frameBits_of_lt (by omega)
  simp only [taskDirEntry, bits]
  omega

namespace ReadyFor

/-- Mapping a page and activating a terminal sets everything. -/
theorem activate (console : Console) {pid terminal : Nat} (pidLt : pid < 8)
    (terminalLt : terminal < 3) :
    ReadyFor ((console.setupTaskPage pid).setActiveTerminal terminal).control pid terminal := by
  have entry := setupTaskPage_pageDir console.paging pid
  have pages := videoFrame_remap (console.paging.setupTaskPage pid) console.displayTerminal
    terminalLt
  constructor
  · exact congrArg PageDirEntry.present entry
  · exact congrArg PageDirEntry.userSupervisor entry
  · exact congrArg PageDirEntry.size entry
  · exact (congrArg PageDirEntry.alignedAddress entry).trans (taskDirEntry_frame pidLt)
  · rfl
  · exact pages.1
  · exact pages.2

variable {console : Console} {pid terminal : Nat}

theorem setupTaskPage (ready : ReadyFor console.control pid terminal) {other : Nat}
    (otherLt : other < 8) : ReadyFor (console.setupTaskPage other).control other terminal := by
  have entry := setupTaskPage_pageDir console.paging other
  constructor
  · exact congrArg PageDirEntry.present entry
  · exact congrArg PageDirEntry.userSupervisor entry
  · exact congrArg PageDirEntry.size entry
  · exact (congrArg PageDirEntry.alignedAddress entry).trans (taskDirEntry_frame otherLt)
  · exact ready.active
  · exact ready.kernelVideo
  · exact ready.userVideo

/-- A display switch remaps the pages of the active terminal. -/
theorem setDisiplayTerminal (ready : ReadyFor console.control pid terminal)
    (terminalLt : terminal < 3) (display : Nat) :
    ReadyFor (console.setDisiplayTerminal display).control pid terminal := by
  have activeLt : console.activeTerminal < 3 := by
    have active : console.activeTerminal = terminal := ready.active
    omega
  have pages := videoFrame_remap console.paging display activeLt
  rw [Console.setDisiplayTerminal_control]
  constructor
  · exact ready.present
  · exact ready.user
  · exact ready.large
  · exact ready.frame
  · exact ready.active
  · exact pages.1
  · exact pages.2

/-- A key keeps the machine set for the process that it interrupts. -/
theorem key {keyboard : Keyboard} (ready : ReadyFor console.control pid terminal)
    (terminalLt : terminal < 3) (pidFree : Bool) (c : UInt8) :
    ReadyFor (scancodeProcessing consoleOps pidFree console keyboard c).screen.control pid
      terminal := by
  rw [scancodeProcessing_control]
  split
  · exact ready
  · exact ready.setDisiplayTerminal terminalLt _

end ReadyFor

/-! ## The events -/

theorem stackTop_eq (pid : Nat) : stackTop pid = 0x800000 - 0x2000 * pid - 8 := by
  simp only [stackTop, getKernelStackBottom, assignedPcbSize, memDefenseSize]
  omega

/-- What the context of the current process depends on. -/
theorem InContext.of_eq {kernel target : Kernel} (context : InContext kernel)
    (sameCurrent : target.currentPid = kernel.currentPid)
    (samePcb : target.pcb = kernel.pcb)
    (sameControl : target.terminals.console.control = kernel.terminals.console.control)
    (sameStack : target.tssEsp0 = kernel.tssEsp0) : InContext target := by
  intro pid isCurrent
  rw [sameCurrent] at isCurrent
  obtain ⟨terminalLt, ready, stack⟩ := context pid isCurrent
  rw [samePcb]
  refine ⟨terminalLt, ?_, sameStack.trans stack⟩
  rw [sameControl, samePcb]
  exact ready

/-- An execution sets the machine for the process it starts. -/
theorem InContext.execute {kernel target : Kernel} {registers : Registers}
    {tempBuf : Nat → UInt8} {command : Option CString} {terminalNum : Nat} {isTerminal : Int}
    {reply : ExecuteReply} (context : InContext kernel) (inodes : EntriesHaveInodes kernel.fs)
    (terminalLt : terminalNum < 3)
    (ended : executeWithTerminalNum kernel registers tempBuf command terminalNum isTerminal =
      some (reply, target)) : InContext target := by
  rcases executeWithTerminalNum_cases ended with
    ⟨-, fname, rfl⟩ | ⟨text, pid, rfl, free, ⟨-, dangling, -⟩ | ⟨entry, -, rfl⟩⟩
  · exact context.of_eq rfl rfl rfl rfl
  · exact absurd dangling (inodes (programName text))
  · obtain ⟨-, upper, -⟩ := Kernel.getEmptyPid_eq_some free
    intro current isCurrent
    obtain ⟨-, -, -, terminalEq, -⟩ := Kernel.startProcess_new
      ((kernel.setName (programName text)).claimProcess text pid terminalNum) pid terminalNum
      isTerminal entry registers
    rw [Kernel.startProcess_eq] at isCurrent
    cases isCurrent
    refine ⟨by rw [terminalEq]; exact terminalLt, ?_, ?_⟩
    · rw [terminalEq, Kernel.startProcess_eq]
      exact ReadyFor.activate kernel.terminals.console upper terminalLt
    · rw [Kernel.startProcess_eq]
      exact stackTop_eq pid

/-- A halting process leaves the machine set for its parent. -/
theorem InContext.halt {kernel target : Kernel} {caller : Nat} {tempBuf : Nat → UInt8}
    {status : Int} {reply : HaltReply} (context : InContext kernel) (sound : Sound kernel)
    (isUser : kernel.userProcess = some caller)
    (ended : Process.halt kernel tempBuf status = some (reply, target)) : InContext target := by
  obtain ⟨isCurrent, isRunning⟩ := Kernel.userProcess_eq_some.mp isUser
  obtain ⟨terminalLt, ready, stack⟩ := context caller isCurrent
  rcases halt_cases isCurrent ended with
    ⟨-, entry, -, rfl⟩ | ⟨-, isRoot, -, rfl⟩ | ⟨-, isChild, parent, parentEq, -, rfl⟩
  · exact context.of_eq rfl rfl rfl rfl
  · exact context.of_eq rfl rfl rfl rfl
  · obtain ⟨waiting, waitingEq, parentRuns, -, sameTerminal, -⟩ :=
      sound.table.parent caller isRunning isChild
    cases parentEq.symm.trans waitingEq
    have parentPid : (kernel.pcb parent).pid = parent := sound.table.pidField parent parentRuns
    have parentTerminal : (kernel.pcb parent).terminal = (kernel.pcb caller).terminal :=
      sameTerminal
    have parentLt := (sound.table.range parent parentRuns).2
    intro current isNow
    have same : current = parent := by
      have now : some (kernel.pcb parent).pid = some current := isNow
      rw [parentPid] at now
      exact (Option.some.inj now).symm
    subst same
    have terminalEq : (((kernel.stopProcess (kernel.pcb caller).pid).returnToParent
        current).pcb current).terminal = (kernel.pcb caller).terminal := by
      rw [← parentTerminal]
      simp [Kernel.returnToParent, Kernel.setPcb, Kernel.stopProcess, Kernel.onConsole]
    refine ⟨by rw [terminalEq]; exact terminalLt, ?_, stackTop_eq current⟩
    have consoleEq : ((kernel.stopProcess (kernel.pcb caller).pid).returnToParent
        current).terminals.console =
        kernel.terminals.console.setupTaskPage (kernel.pcb current).pid := rfl
    rw [terminalEq, consoleEq, parentPid]
    exact ready.setupTaskPage parentLt

/-- The scheduler sets the machine for the process it chooses. -/
theorem InContext.tick {kernel target : Kernel} {registers : Registers}
    {reply : Option Registers} (context : InContext kernel) (sound : Sound kernel)
    (ended : pitHandler kernel registers = some (reply, target)) : InContext target := by
  rcases pitHandler_cases ended with
    ⟨-, rfl⟩ | ⟨previous, pid, -, -, isRunning, -, rfl, -⟩
  · exact context
  · have runs := Kernel.processStatus_of_isRunning isRunning
    have terminalLt : (kernel.pcb pid).terminal < 3 := sound.table.terminalLt pid runs
    have pidLt := (sound.table.range pid runs).2
    have terminalEq : ((kernel.switchProcess previous pid registers).pcb pid).terminal =
        (kernel.pcb pid).terminal :=
      congrArg (fun table : ProcessTable => (table.links pid).terminal)
        (kernel.switchProcess_table previous pid registers)
    intro current isNow
    cases isNow
    refine ⟨by rw [terminalEq]; exact terminalLt, ?_, stackTop_eq pid⟩
    have consoleEq : (kernel.switchProcess previous pid registers).terminals.console =
        (kernel.terminals.console.setupTaskPage pid).setActiveTerminal
          (kernel.pcb pid).terminal := rfl
    rw [terminalEq, consoleEq]
    exact ReadyFor.activate _ pidLt terminalLt

/-- A key remaps for the current process and may start another. -/
theorem InContext.key {kernel target : Kernel} {registers : Registers} {tempBuf : Nat → UInt8}
    {c : UInt8} {reply : Option ExecuteReply} (context : InContext kernel)
    (inodes : EntriesHaveInodes kernel.fs)
    (ended : keyboardInterrupt kernel registers tempBuf c = some (reply, target)) :
    InContext target := by
  have flags := scancodeProcessing_launch consoleOps kernel.getEmptyPid.isSome
    kernel.terminals.console kernel.terminals.keyboard c
  obtain ⟨result, resultEq, outcome⟩ := keyboardInterrupt_cases ended
  have handled : InContext { kernel with
      terminals := { console := result.screen, keyboard := result.keyboard } } := by
    intro pid isCurrent
    obtain ⟨terminalLt, ready, stack⟩ := context pid isCurrent
    rw [resultEq]
    exact ⟨terminalLt, ready.key terminalLt _ c, stack⟩
  rw [← resultEq] at flags
  rcases outcome with ⟨-, -, rfl⟩ | ⟨terminalId, started, launchEq, -, executed⟩
  · exact handled
  · rw [launchEq] at flags
    have terminalLt : terminalId < 3 := by
      cases flags with
      | second => decide
      | third => decide
    exact handled.execute inodes terminalLt executed

/-- Every process event leaves the machine set for the current process. -/
theorem InContext.step {kernel target : Kernel} {event : ProcessEvent} {reply : ProcessReply}
    (context : InContext kernel) (sound : Sound kernel) (moved : Moved kernel target event reply) :
    InContext target := by
  cases moved with
  | launched registers tempBuf outcome noCurrent executed =>
      exact context.execute sound.inodes (by decide) executed
  | executed caller registers tempBuf command outcome isUser executed =>
      obtain ⟨isCurrent, -⟩ := Kernel.userProcess_eq_some.mp isUser
      exact context.execute sound.inodes (context caller isCurrent).1 executed
  | halted caller tempBuf status outcome isUser ended => exact context.halt sound isUser ended
  | cleared isClearing targetEq =>
      rw [targetEq]
      exact context.of_eq kernel.clearScreen_currentPid kernel.clearScreen_pcb
        (Console.clear_control _) (Kernel.onConsole_tssEsp0 ..)
  | keyed registers tempBuf c outcome ended => exact context.key sound.inodes ended
  | ticked registers loaded ended => exact context.tick sound ended

/-- Once a first process was started, the machine is set for the current one in
every reachable state. -/
theorem reachable_machineContext {memory screen : Memory} {start : Nat} {image : Image}
    {paging : PageTables} {printBuffer argBuf fname : Nat → UInt8} {currentDirReadIndex : Int}
    {trace : List (ProcessEvent × ProcessReply)} {final : Kernel}
    (loaded : Loaded memory start image) (wellFormed : image.WellFormed)
    (run : Run processStep (Kernel.boot (filesysInit memory start) paging screen printBuffer
      argBuf fname currentDirReadIndex) trace final) (begun : Begun trace) :
    ∃ pid, final.currentPid = some pid ∧ MachineContext final pid := by
  have booted : Sound (Kernel.boot (filesysInit memory start) paging screen printBuffer argBuf
      fname currentDirReadIndex) ∧ InContext (Kernel.boot (filesysInit memory start) paging screen
      printBuffer argBuf fname currentDirReadIndex) :=
    ⟨Sound.boot (entriesHaveInodes_of_wellFormed loaded wellFormed) .., fun _ none => nomatch none⟩
  have reached := run.invariant (P := fun kernel => Sound kernel ∧ InContext kernel)
    (fun before _ stepped => ⟨before.1.step (processStep_moved stepped),
      before.2.step before.1 (processStep_moved stepped)⟩) booted
  obtain ⟨pid, isCurrent⟩ := begun.current run
  exact ⟨pid, isCurrent, (reached.2 pid isCurrent).2⟩

/-- The context of the root shell. -/
theorem reachable_machineContext_rootShell :
    ∃ final pid, final.userProcess = some 1 ∧ final.currentPid = some pid ∧
      MachineContext final pid := by
  obtain ⟨target, launched, isUser⟩ := shellKernel_launch
  obtain ⟨pid, isCurrent, context⟩ :=
    reachable_machineContext shellMemory_loaded shellImage_wellFormed
      (.cons trivial launched (.nil target))
      ⟨_, List.mem_singleton_self _, Option.some_ne_none 1⟩
  exact ⟨target, pid, isUser, isCurrent, context⟩

end PonyOS.Process
