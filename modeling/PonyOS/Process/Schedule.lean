import PonyOS.Process.Execute
import PonyOS.Lib.Transition

/-!
# Halting, scheduling and the process events

The other three entry points that move the current process: `halt`, the timer
tick and the keyboard, whose handler starts the shells of the second and third
terminal.

Every gate that leads here turns interrupts off, and a launch from the boot loop
does so first of all: an event is what runs until they are let in again.  A root
that halts lets them in before it clears the screen, so its `clear` is an event of
its own, which a switch to another process forestalls.  Reads from a terminal and
from the clock let interrupts in to wait for a flag and change nothing until it is
set; they are the event of their completion.  A write to a terminal lets them in
when all its effects are done.  An exception handler never returns, so an event
that faults has no successor.
-/

namespace PonyOS.Process

open PonyOS.FileSystem
open PonyOS.Lib.Transition
open PonyOS.Lib.Word
open PonyOS.Terminal

/-- How `halt` ends: in the program entry again, with interrupts on before the
`clear` and the endless loop of a root, or in the parent with a result and its
saved registers. -/
inductive HaltReply
  | restarted (entry : Nat)
  | spinning
  | returned (value : Int) (registers : Registers)
  deriving DecidableEq

namespace Kernel

/-- The bookkeeping of `halt` for a process that leaves. -/
def stopProcess (kernel : Kernel) (pid : Nat) : Kernel :=
  { kernel with
    totalRunningProcess := kernel.totalRunningProcess - 1
    processStatus := Function.update kernel.processStatus pid false }

/-- A root lets interrupts in then; it still has to clear the screen. -/
def stopRoot (kernel : Kernel) (pid : Nat) : Kernel :=
  { kernel.stopProcess pid with clearing := true }

/-- What it does after that. -/
def clearScreen (kernel : Kernel) : Kernel :=
  { kernel with clearing := false }.onConsole Console.clear

/-- The end of `halt`: everything is set for the parent. -/
def returnToParent (kernel : Kernel) (parent : Nat) : Kernel :=
  let mapped := kernel.onConsole fun console => console.setupTaskPage (kernel.pcb parent).pid
  { mapped.setPcb parent { mapped.pcb parent with child := none } with
    currentPid := some (kernel.pcb parent).pid
    tssEsp0 := stackTop parent }

/-- The switch of `pit_handler` from one process to another.  A halted root does
not run, so what it had left to do is never done once it is left. -/
def switchProcess (kernel : Kernel) (previous pid : Nat) (registers : Registers) : Kernel :=
  let mapped := kernel.onConsole fun console =>
    (console.setupTaskPage pid).setActiveTerminal (kernel.pcb pid).terminal
  let saved := mapped.setPcb previous
    { mapped.pcb previous with currentEsp := registers.esp, currentEbp := registers.ebp }
  { saved with currentPid := some pid, tssEsp0 := stackTop pid, clearing := false }

end Kernel

/-- `halt`, up to the `sti` of a root.  The last running process is restarted; any
other process that is no root returns to its parent. -/
def halt (kernel : Kernel) (tempBuf : Nat → UInt8) (_status : Int) :
    Option (HaltReply × Kernel) :=
  match kernel.currentPid with
  | none => none
  | some current =>
      let pcb := kernel.pcb current
      if kernel.totalRunningProcess = 1 then
        let entry := headerEntry (readHeader kernel.fs shellCommand tempBuf)
        some (.restarted entry, { kernel with entryPoint := entry })
      else
        if pcb.isTerminal ≠ 0 then some (.spinning, kernel.stopRoot pcb.pid)
        else
          match pcb.parent with
          | none => none
          | some parent =>
              some (.returned 0 { esp := pcb.parentEsp, ebp := pcb.parentEbp },
                (kernel.stopProcess pcb.pid).returnToParent parent)

/-- `next_pid`. -/
def nextPid (pid : Nat) : Nat :=
  (pid + 1) % maxPid

/-- The search loop of `pit_handler`, from candidate `i` on; `none` when it has
not stopped within the given number of candidates. -/
def pitSearch (kernel : Kernel) (current : Nat) : Nat → Nat → Option Nat
  | 0, _ => none
  | fuel + 1, i =>
      if i = current then some i
      else if kernel.isRunning i = true ∧ (kernel.pcb i).child = none then some i
      else pitSearch kernel current fuel (nextPid i)

/-- `pit_handler`; a switch answers with the registers that it loads. -/
def pitHandler (kernel : Kernel) (registers : Registers) :
    Option (Option Registers × Kernel) :=
  if kernel.totalRunningProcess = 0 then some (none, kernel)
  else
    match kernel.currentPid with
    | none => none
    | some previous =>
        let current := (kernel.pcb previous).pid
        match pitSearch kernel current maxPid (nextPid current) with
        | none => none
        | some i =>
            if i = current then some (none, kernel)
            else
              let switched := kernel.switchProcess previous i registers
              some (some { esp := (switched.pcb i).currentEsp
                           ebp := (switched.pcb i).currentEbp }, switched)

/-- One byte for the keyboard interrupt.  A shell that the handler asks for is
executed last. -/
def keyboardInterrupt (kernel : Kernel) (registers : Registers) (tempBuf : Nat → UInt8)
    (c : UInt8) : Option (Option ExecuteReply × Kernel) :=
  let result := scancodeProcessing consoleOps kernel.getEmptyPid.isSome
    kernel.terminals.console kernel.terminals.keyboard c
  let handled := { kernel with
    terminals := { console := result.screen, keyboard := result.keyboard } }
  match result.launch with
  | none => some (none, handled)
  | some terminalId =>
      (executeWithTerminalNum handled registers tempBuf (some shellCommand) terminalId 1).map
        fun outcome => (some outcome.1, outcome.2)

/-! ## Events -/

/-- What moves processes.  What is left over on the kernel stack may be any. -/
inductive ProcessEvent
  | bootLaunch (registers : Registers) (tempBuf : Nat → UInt8)
  | execute (registers : Registers) (tempBuf : Nat → UInt8) (command : Option CString)
  | halt (tempBuf : Nat → UInt8) (status : Int)
  | clear
  | key (registers : Registers) (tempBuf : Nat → UInt8) (c : UInt8)
  | tick (registers : Registers)

/-- What the events answer. -/
inductive ProcessReply
  | launched (reply : ExecuteReply)
  | executed (reply : ExecuteReply)
  | halted (reply : HaltReply)
  | cleared
  | keyed (reply : Option ExecuteReply)
  | ticked (loaded : Option Registers)
  deriving DecidableEq

/-- One event.  The boot loop launches the root shell as long as nothing runs;
system calls come from a process in user mode; a halted root clears the screen
once; interrupts come at any time. -/
def processStep : Step Kernel ProcessEvent ProcessReply
  | kernel, .bootLaunch registers tempBuf =>
      match kernel.currentPid with
      | none => (executeWithTerminalNum kernel registers tempBuf (some shellCommand) 0 1).map
          fun outcome => (.launched outcome.1, outcome.2)
      | some _ => none
  | kernel, .execute registers tempBuf command =>
      match kernel.userProcess with
      | none => none
      | some _ => (execute kernel registers tempBuf command).map
          fun outcome => (.executed outcome.1, outcome.2)
  | kernel, .halt tempBuf status =>
      match kernel.userProcess with
      | none => none
      | some _ => (halt kernel tempBuf status).map
          fun outcome => (.halted outcome.1, outcome.2)
  | kernel, .clear => if kernel.clearing then some (.cleared, kernel.clearScreen) else none
  | kernel, .key registers tempBuf c =>
      (keyboardInterrupt kernel registers tempBuf c).map
        fun outcome => (.keyed outcome.1, outcome.2)
  | kernel, .tick registers =>
      (pitHandler kernel registers).map fun outcome => (.ticked outcome.1, outcome.2)

/-- A halt that ends its process. -/
def endsProcess : ProcessReply → Bool
  | .halted (.restarted _) => false
  | .halted _ => true
  | _ => false

/-- The process that an execution started. -/
def startedPid : ExecuteReply → Option Nat
  | .failed => none
  | .started pid _ => some pid

/-- The process that an event started. -/
def startedBy : ProcessReply → Option Nat
  | .launched outcome => startedPid outcome
  | .executed outcome => startedPid outcome
  | .keyed (some outcome) => startedPid outcome
  | _ => none

/-- The ways an event can come about. -/
inductive Moved (kernel target : Kernel) : ProcessEvent → ProcessReply → Prop
  | launched (registers : Registers) (tempBuf : Nat → UInt8) (outcome : ExecuteReply) :
      kernel.currentPid = none →
      executeWithTerminalNum kernel registers tempBuf (some shellCommand) 0 1 =
        some (outcome, target) →
      Moved kernel target (.bootLaunch registers tempBuf) (.launched outcome)
  | executed (caller : Nat) (registers : Registers) (tempBuf : Nat → UInt8)
      (command : Option CString) (outcome : ExecuteReply) :
      kernel.userProcess = some caller →
      executeWithTerminalNum kernel registers tempBuf command (kernel.pcb caller).terminal 0 =
        some (outcome, target) →
      Moved kernel target (.execute registers tempBuf command) (.executed outcome)
  | halted (caller : Nat) (tempBuf : Nat → UInt8) (status : Int) (outcome : HaltReply) :
      kernel.userProcess = some caller →
      halt kernel tempBuf status = some (outcome, target) →
      Moved kernel target (.halt tempBuf status) (.halted outcome)
  | cleared :
      kernel.clearing = true → target = kernel.clearScreen →
      Moved kernel target .clear .cleared
  | keyed (registers : Registers) (tempBuf : Nat → UInt8) (c : UInt8)
      (outcome : Option ExecuteReply) :
      keyboardInterrupt kernel registers tempBuf c = some (outcome, target) →
      Moved kernel target (.key registers tempBuf c) (.keyed outcome)
  | ticked (registers : Registers) (loaded : Option Registers) :
      pitHandler kernel registers = some (loaded, target) →
      Moved kernel target (.tick registers) (.ticked loaded)

theorem processStep_moved {kernel target : Kernel} {event : ProcessEvent} {reply : ProcessReply}
    (stepped : processStep kernel event = some (reply, target)) :
    Moved kernel target event reply := by
  cases event with
  | bootLaunch registers tempBuf =>
      simp only [processStep] at stepped
      split at stepped
      · next noCurrent =>
          obtain ⟨⟨outcome, final⟩, executed, outcomeEq⟩ := Option.map_eq_some_iff.mp stepped
          cases outcomeEq
          exact .launched registers tempBuf outcome noCurrent executed
      · contradiction
  | execute registers tempBuf command =>
      simp only [processStep] at stepped
      split at stepped
      · contradiction
      · next caller isUser =>
          obtain ⟨⟨outcome, final⟩, executed, outcomeEq⟩ := Option.map_eq_some_iff.mp stepped
          cases outcomeEq
          simp only [execute, (Kernel.userProcess_eq_some.mp isUser).1] at executed
          exact .executed caller registers tempBuf command outcome isUser executed
  | halt tempBuf status =>
      simp only [processStep] at stepped
      split at stepped
      · contradiction
      · next caller isUser =>
          obtain ⟨⟨outcome, final⟩, ended, outcomeEq⟩ := Option.map_eq_some_iff.mp stepped
          cases outcomeEq
          exact .halted caller tempBuf status outcome isUser ended
  | clear =>
      simp only [processStep] at stepped
      split at stepped
      · next isClearing =>
          cases stepped
          exact .cleared isClearing rfl
      · contradiction
  | key registers tempBuf c =>
      obtain ⟨⟨outcome, final⟩, ended, outcomeEq⟩ := Option.map_eq_some_iff.mp stepped
      cases outcomeEq
      exact .keyed registers tempBuf c outcome ended
  | tick registers =>
      obtain ⟨⟨loaded, final⟩, ended, outcomeEq⟩ := Option.map_eq_some_iff.mp stepped
      cases outcomeEq
      exact .ticked registers loaded ended

namespace Kernel

/-! ## What the end of a root leaves alone -/

theorem clearScreen_keyboard (kernel : Kernel) :
    kernel.clearScreen.terminals.keyboard = kernel.terminals.keyboard := by
  rw [clearScreen, onConsole_keyboard]

theorem clearScreen_currentPid (kernel : Kernel) :
    kernel.clearScreen.currentPid = kernel.currentPid := by
  rw [clearScreen, onConsole_currentPid]

theorem clearScreen_processStatus (kernel : Kernel) :
    kernel.clearScreen.processStatus = kernel.processStatus := by
  rw [clearScreen, onConsole_processStatus]

theorem clearScreen_argBuf (kernel : Kernel) : kernel.clearScreen.argBuf = kernel.argBuf := by
  rw [clearScreen, onConsole_argBuf]

theorem clearScreen_argAvailable (kernel : Kernel) :
    kernel.clearScreen.argAvailable = kernel.argAvailable := by
  rw [clearScreen, onConsole_argAvailable]

theorem clearScreen_pcb (kernel : Kernel) : kernel.clearScreen.pcb = kernel.pcb := by
  rw [clearScreen, onConsole_pcb]

end Kernel

/-! ## How the handlers end -/

theorem keyboardInterrupt_cases {kernel target : Kernel} {registers : Registers}
    {tempBuf : Nat → UInt8} {c : UInt8} {reply : Option ExecuteReply}
    (ended : keyboardInterrupt kernel registers tempBuf c = some (reply, target)) :
    ∃ result, result = scancodeProcessing consoleOps kernel.getEmptyPid.isSome
        kernel.terminals.console kernel.terminals.keyboard c ∧
      ((result.launch = none ∧ reply = none ∧
          target = { kernel with
            terminals := { console := result.screen, keyboard := result.keyboard } }) ∨
        ∃ terminalId outcome, result.launch = some terminalId ∧ reply = some outcome ∧
          executeWithTerminalNum { kernel with
            terminals := { console := result.screen, keyboard := result.keyboard } } registers
            tempBuf (some shellCommand) terminalId 1 = some (outcome, target)) := by
  unfold keyboardInterrupt at ended
  generalize scancodeProcessing consoleOps kernel.getEmptyPid.isSome
    kernel.terminals.console kernel.terminals.keyboard c = result at ended
  refine ⟨result, rfl, ?_⟩
  cases launchEq : result.launch with
  | none =>
      simp only [launchEq] at ended
      cases ended
      exact .inl ⟨rfl, rfl, rfl⟩
  | some terminalId =>
      simp only [launchEq] at ended
      obtain ⟨⟨outcome, final⟩, executed, outcomeEq⟩ := Option.map_eq_some_iff.mp ended
      cases outcomeEq
      exact .inr ⟨terminalId, outcome, rfl, rfl, executed⟩

theorem halt_cases {kernel target : Kernel} {tempBuf : Nat → UInt8} {status : Int}
    {reply : HaltReply} {current : Nat} (isCurrent : kernel.currentPid = some current)
    (ended : halt kernel tempBuf status = some (reply, target)) :
    (kernel.totalRunningProcess = 1 ∧
        ∃ entry, reply = .restarted entry ∧ target = { kernel with entryPoint := entry }) ∨
      (kernel.totalRunningProcess ≠ 1 ∧ (kernel.pcb current).isTerminal ≠ 0 ∧
        reply = .spinning ∧
        target = kernel.stopRoot (kernel.pcb current).pid) ∨
      (kernel.totalRunningProcess ≠ 1 ∧ (kernel.pcb current).isTerminal = 0 ∧
        ∃ parent, (kernel.pcb current).parent = some parent ∧
          reply = .returned 0 (kernel.pcb current).parentSaved ∧
          target = (kernel.stopProcess (kernel.pcb current).pid).returnToParent parent) := by
  unfold halt at ended
  split at ended
  · contradiction
  · next other otherEq =>
      cases isCurrent.symm.trans otherEq
      simp only at ended
      split at ended
      · next last =>
          cases ended
          exact .inl ⟨last, _, rfl, rfl⟩
      · next notLast =>
          split at ended
          · next isRoot =>
              simp only [Option.some.injEq, Prod.mk.injEq] at ended
              exact .inr (.inl ⟨notLast, isRoot, ended.1.symm, ended.2.symm⟩)
          · next isChild =>
              split at ended
              · contradiction
              · next parent parentEq =>
                  simp only [Option.some.injEq, Prod.mk.injEq] at ended
                  exact .inr (.inr ⟨notLast, not_not.mp isChild, parent, parentEq,
                    ended.1.symm, ended.2.symm⟩)

/-- A candidate the search accepts is the current process or can be run. -/
theorem pitSearch_eq_some {kernel : Kernel} {current found : Nat} {fuel i : Nat}
    (searched : pitSearch kernel current fuel i = some found) :
    found = current ∨ (kernel.isRunning found = true ∧ (kernel.pcb found).child = none) := by
  induction fuel generalizing i with
  | zero => contradiction
  | succ fuel ih =>
      simp only [pitSearch] at searched
      split at searched
      · next same =>
          cases searched
          exact .inl same
      · split at searched
        · next accepted =>
            cases searched
            exact .inr accepted
        · exact ih searched

/-- The search meets the current process after one round at the latest. -/
theorem pitSearch_isSome (kernel : Kernel) {current : Nat} (currentLt : current < maxPid)
    {fuel i : Nat} (candidateLt : i < maxPid)
    (enough : (current + maxPid - i) % maxPid < fuel) :
    (pitSearch kernel current fuel i).isSome = true := by
  induction fuel generalizing i with
  | zero => contradiction
  | succ fuel ih =>
      rw [pitSearch]
      split
      · rfl
      · split
        · rfl
        · next notCurrent _ =>
            unfold maxPid at *
            have nextLt : nextPid i < 8 := Nat.mod_lt _ (by decide)
            apply ih nextLt
            unfold nextPid maxPid
            omega

/-- A tick always ends, provided the current control block names a slot. -/
theorem pitHandler_isSome {kernel : Kernel} (registers : Registers)
    (current : kernel.totalRunningProcess ≠ 0 →
      ∃ previous, kernel.currentPid = some previous ∧ (kernel.pcb previous).pid < maxPid) :
    (pitHandler kernel registers).isSome = true := by
  unfold pitHandler
  split
  · rfl
  · next someRun =>
      obtain ⟨previous, previousEq, pidLt⟩ := current someRun
      have nextLt : nextPid (kernel.pcb previous).pid < maxPid := Nat.mod_lt _ (by decide)
      have found := pitSearch_isSome kernel pidLt nextLt
        (Nat.mod_lt _ (by decide) : _ < maxPid)
      obtain ⟨pid, searched⟩ := Option.isSome_iff_exists.mp found
      simp only [previousEq, searched]
      split
      · rfl
      · rfl

/-- Every way `pit_handler` can end.  A switch loads what is saved in the control
block of the process it switched to. -/
theorem pitHandler_cases {kernel target : Kernel} {registers : Registers}
    {reply : Option Registers} (ended : pitHandler kernel registers = some (reply, target)) :
    (reply = none ∧ target = kernel) ∨
      ∃ previous pid, kernel.currentPid = some previous ∧ pid ≠ (kernel.pcb previous).pid ∧
        kernel.isRunning pid = true ∧ (kernel.pcb pid).child = none ∧
        target = kernel.switchProcess previous pid registers ∧
        reply = some (target.pcb pid).saved := by
  unfold pitHandler at ended
  split at ended
  · cases ended
    exact .inl ⟨rfl, rfl⟩
  · split at ended
    · contradiction
    · next previous previousEq =>
        simp only at ended
        split at ended
        · contradiction
        · next pid searched =>
            split at ended
            · cases ended
              exact .inl ⟨rfl, rfl⟩
            · next notCurrent =>
                simp only [Option.some.injEq, Prod.mk.injEq] at ended
                obtain ⟨isRunning, childless⟩ :=
                  (pitSearch_eq_some searched).resolve_left notCurrent
                rw [← ended.2]
                exact .inr ⟨previous, pid, previousEq, notCurrent, isRunning, childless, rfl,
                  ended.1.symm⟩

end PonyOS.Process
