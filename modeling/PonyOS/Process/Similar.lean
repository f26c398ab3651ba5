import PonyOS.Process.Schedule

/-!
# Kernels that differ in dead parts of control blocks

The scheduler and `halt` read some fields of a control block; of a descriptor
nothing is read but the flags while it is closed, and the position matters for
files only.  Two kernels are similar if they agree outside the control blocks
and in all that may still be read inside.  Every event that moves processes has
the same outcome on similar kernels, and leaves them similar.
-/

namespace PonyOS.Process

open PonyOS.FileSystem
open PonyOS.Lib.Transition
open PonyOS.Lib.Word
open PonyOS.Terminal

/-- Two descriptors that behave alike. -/
structure FileDesc.Alike (left right : FileDesc) : Prop where
  flags : left.flags = right.flags
  read : left.flags ≠ 0 → left.read = right.read
  write : left.flags ≠ 0 → left.write = right.write
  inode : left.flags ≠ 0 → left.read = .filesysRead → left.inode = right.inode
  filePosition : left.flags ≠ 0 → left.read = .filesysRead →
    left.filePosition = right.filePosition

/-- Two control blocks that behave alike once a start has filled in the rest:
the scheduler asks only whether there is a child. -/
structure Pcb.AlikeInside (left right : Pcb) : Prop where
  pid : left.pid = right.pid
  child : left.child = none ↔ right.child = none
  files : ∀ fd, fd < fdtSize → (left.fileArray fd).Alike (right.fileArray fd)

/-- Two control blocks that behave alike. -/
structure Pcb.Alike (left right : Pcb) : Prop extends Pcb.AlikeInside left right where
  parent : left.parent = right.parent
  saved : left.saved = right.saved
  parentSaved : left.parentSaved = right.parentSaved
  terminal : left.terminal = right.terminal
  isTerminal : left.isTerminal = right.isTerminal

/-- Two kernels that behave alike. -/
def Similar (left right : Kernel) : Prop :=
  ∃ pcbs, right = { left with pcb := pcbs } ∧ ∀ slot, (left.pcb slot).Alike (pcbs slot)

theorem FileDesc.Alike.refl (desc : FileDesc) : desc.Alike desc :=
  ⟨rfl, fun _ => rfl, fun _ => rfl, fun _ _ => rfl, fun _ _ => rfl⟩

theorem FileDesc.Alike.symm {left right : FileDesc} (alike : left.Alike right) :
    right.Alike left := by
  have flags := alike.flags
  constructor
  · exact flags.symm
  · intro isOpen
    exact (alike.read (flags ▸ isOpen)).symm
  · intro isOpen
    exact (alike.write (flags ▸ isOpen)).symm
  · intro isOpen isFile
    have before := flags ▸ isOpen
    exact (alike.inode before ((alike.read before).trans isFile)).symm
  · intro isOpen isFile
    have before := flags ▸ isOpen
    exact (alike.filePosition before ((alike.read before).trans isFile)).symm

theorem Pcb.Alike.refl (pcb : Pcb) : pcb.Alike pcb :=
  { pid := rfl
    child := Iff.rfl
    files := fun fd _ => .refl (pcb.fileArray fd)
    parent := rfl
    saved := rfl
    parentSaved := rfl
    terminal := rfl
    isTerminal := rfl }

theorem Pcb.Alike.symm {left right : Pcb} (alike : left.Alike right) : right.Alike left :=
  { pid := alike.pid.symm
    child := alike.child.symm
    files := fun fd inside => (alike.files fd inside).symm
    parent := alike.parent.symm
    saved := alike.saved.symm
    parentSaved := alike.parentSaved.symm
    terminal := alike.terminal.symm
    isTerminal := alike.isTerminal.symm }

theorem Similar.symm {left right : Kernel} (similar : Similar left right) :
    Similar right left := by
  obtain ⟨pcbs, rfl, alike⟩ := similar
  exact ⟨left.pcb, rfl, fun slot => (alike slot).symm⟩

/-! ## Control blocks -/

/-- Closed descriptors behave alike. -/
theorem FileDesc.Alike.of_closed {left right : FileDesc} (leftClosed : left.flags = 0)
    (rightClosed : right.flags = 0) : left.Alike right := by
  constructor
  · exact leftClosed.trans rightClosed.symm
  · exact fun isOpen => absurd leftClosed isOpen
  · exact fun isOpen => absurd leftClosed isOpen
  · exact fun isOpen _ => absurd leftClosed isOpen
  · exact fun isOpen _ => absurd leftClosed isOpen

/-- Away from files the handlers alone matter. -/
theorem FileDesc.Alike.of_handlers {left right : FileDesc} (flags : left.flags = right.flags)
    (read : left.read = right.read) (write : left.write = right.write)
    (notFile : left.read ≠ .filesysRead) : left.Alike right := by
  constructor
  · exact flags
  · exact fun _ => read
  · exact fun _ => write
  · exact fun _ isFile => absurd isFile notFile
  · exact fun _ isFile => absurd isFile notFile

/-- `pcb_init` leaves nothing of the old descriptors alive. -/
theorem pcbInit_files (left right : Pcb) (pid : Nat) {fd : Nat} (inside : fd < fdtSize) :
    ((pcbInit left pid).fileArray fd).Alike ((pcbInit right pid).fileArray fd) := by
  simp only [pcbInit, inside, if_true]
  split
  · exact .of_handlers rfl rfl rfl Handler.noConfusion
  · split
    · exact .of_handlers rfl rfl rfl Handler.noConfusion
    · exact .of_closed rfl rfl

/-- Nor of anything else that it would have to set, but for the child. -/
theorem pcbInit_alikeInside {left right : Pcb} (pid : Nat)
    (child : left.child = none ↔ right.child = none) :
    (pcbInit left pid).AlikeInside (pcbInit right pid) :=
  ⟨rfl, child, fun _ inside => pcbInit_files left right pid inside⟩

theorem Pcb.Alike.init {left right : Pcb} (alike : left.Alike right) (pid : Nat) :
    (pcbInit left pid).Alike (pcbInit right pid) :=
  { pcbInit_alikeInside pid alike.child with
    parent := alike.parent
    saved := alike.saved
    parentSaved := alike.parentSaved
    terminal := alike.terminal
    isTerminal := alike.isTerminal }

/-- Tables of descriptors stay alike when both get an entry of the same kind. -/
theorem Pcb.Alike.files_update {left right : Pcb} (both : left.Alike right) {fd : Nat}
    {first second : FileDesc} (alike : fd < fdtSize → first.Alike second) (other : Nat)
    (inside : other < fdtSize) :
    (Function.update left.fileArray fd first other).Alike
      (Function.update right.fileArray fd second other) := by
  by_cases own : other = fd
  · rw [own, Function.update_self, Function.update_self]
    exact alike (own ▸ inside)
  · rw [Function.update_of_ne own, Function.update_of_ne own]
    exact both.files other inside

theorem Similar.setPcb {left right : Kernel} (similar : Similar left right) (slot : Nat)
    {first second : Pcb} (both : first.Alike second) :
    Similar (left.setPcb slot first) (right.setPcb slot second) := by
  obtain ⟨pcbs, rfl, alike⟩ := similar
  refine ⟨Function.update pcbs slot second, rfl, ?_⟩
  intro other
  simp only [Kernel.setPcb]
  by_cases own : other = slot
  · rw [own, Function.update_self, Function.update_self]
    exact both
  · rw [Function.update_of_ne own, Function.update_of_ne own]
    exact alike other

theorem Similar.pcb {left right : Kernel} (similar : Similar left right) (slot : Nat) :
    (left.pcb slot).Alike (right.pcb slot) := by
  obtain ⟨pcbs, rfl, alike⟩ := similar
  exact alike slot

theorem Similar.onConsole {left right : Kernel} (similar : Similar left right)
    (change : Console → Console) : Similar (left.onConsole change) (right.onConsole change) := by
  obtain ⟨pcbs, rfl, alike⟩ := similar
  exact ⟨pcbs, rfl, alike⟩

theorem Similar.outside {left right : Kernel} {β : Type} (similar : Similar left right)
    (view : Kernel → β)
    (blind : ∀ (kernel : Kernel) (pcbs : Nat → Pcb),
      view { kernel with pcb := pcbs } = view kernel) : view right = view left := by
  obtain ⟨pcbs, rfl, -⟩ := similar
  exact blind left pcbs

theorem Similar.fs {left right : Kernel} (similar : Similar left right) : right.fs = left.fs :=
  similar.outside Kernel.fs fun _ _ => rfl

theorem Similar.currentPid {left right : Kernel} (similar : Similar left right) :
    right.currentPid = left.currentPid :=
  similar.outside Kernel.currentPid fun _ _ => rfl

theorem Similar.totalRunningProcess {left right : Kernel} (similar : Similar left right) :
    right.totalRunningProcess = left.totalRunningProcess :=
  similar.outside Kernel.totalRunningProcess fun _ _ => rfl

theorem Similar.isRunning {left right : Kernel} (similar : Similar left right) :
    right.isRunning = left.isRunning :=
  similar.outside Kernel.isRunning fun _ _ => rfl

theorem Similar.getEmptyPid {left right : Kernel} (similar : Similar left right) :
    right.getEmptyPid = left.getEmptyPid :=
  similar.outside Kernel.getEmptyPid fun _ _ => rfl

theorem Similar.userProcess {left right : Kernel} (similar : Similar left right) :
    right.userProcess = left.userProcess :=
  similar.outside Kernel.userProcess fun _ _ => rfl

/-! ## Starting a process -/

theorem Similar.claimProcess {left right : Kernel} (similar : Similar left right)
    (command : CString) (pid terminalNum : Nat) :
    Similar (left.claimProcess command pid terminalNum)
      (right.claimProcess command pid terminalNum) := by
  have initial := similar.setPcb pid ((similar.pcb pid).init pid)
  obtain ⟨pcbs, rfl, -⟩ := similar
  exact ⟨_, rfl, initial.pcb⟩

/-- What a start makes of the control block of the new process. -/
theorem startProcess_own (kernel : Kernel) (pid terminalNum : Nat) (isTerminal : Int)
    (entry : Nat) (registers : Registers) :
    (kernel.startProcess pid terminalNum isTerminal entry registers).pcb pid =
      { kernel.pcb pid with
        terminal := terminalNum
        parent := kernel.currentPid
        isTerminal := isTerminal
        child := if kernel.currentPid = some pid ∧ isTerminal = 0 then some pid
          else (kernel.pcb pid).child
        currentEsp := if kernel.currentPid = some pid then registers.esp
          else (stackTop pid).toNat
        currentEbp := if kernel.currentPid = some pid then registers.ebp
          else (stackTop pid).toNat
        parentEsp := registers.esp
        parentEbp := registers.ebp } := by
  unfold Kernel.startProcess Kernel.saveContext Kernel.linkProcess
  cases currentEq : kernel.currentPid with
  | none => simp [Kernel.setPcb, currentEq]
  | some previous =>
      by_cases same : previous = pid
      · by_cases isChild : isTerminal = 0
        · simp [Kernel.setPcb, currentEq, isChild, same]
        · simp [Kernel.setPcb, currentEq, isChild, same]
      · have other : pid ≠ previous := Ne.symm same
        by_cases isChild : isTerminal = 0
        · simp [Kernel.setPcb, currentEq, isChild, same, other]
        · simp [Kernel.setPcb, currentEq, isChild, same, other]

/-- A start fills in all that its own control block must have beyond what
`pcb_init` set up. -/
theorem similar_startProcess {left : Kernel} {pcbs : Nat → Pcb} {pid : Nat}
    (others : ∀ slot, slot ≠ pid → (left.pcb slot).Alike (pcbs slot))
    (own : (left.pcb pid).AlikeInside (pcbs pid)) (terminalNum : Nat) (isTerminal : Int)
    (entry : Nat) (registers : Registers) :
    Similar (left.startProcess pid terminalNum isTerminal entry registers)
      ({ left with pcb := pcbs }.startProcess pid terminalNum isTerminal entry registers) := by
  refine ⟨({ left with pcb := pcbs }.startProcess pid terminalNum isTerminal entry
    registers).pcb, ?_, ?_⟩
  · rw [Kernel.startProcess_eq, Kernel.startProcess_eq left]
  · intro slot
    by_cases isNew : slot = pid
    · -- A root that has halted may still be current in the very slot that is reused.
      rw [isNew, startProcess_own, startProcess_own]
      refine ⟨⟨own.pid, ?_, own.files⟩, rfl, rfl, rfl, rfl, rfl⟩
      simp only
      split
      · exact Iff.rfl
      · exact own.child
    · have before := others slot isNew
      by_cases isPrevious : left.currentPid = some slot
      · rw [Kernel.startProcess_previous _ _ _ _ _ isPrevious isNew,
          Kernel.startProcess_previous { left with pcb := pcbs } _ _ _ _ isPrevious isNew]
        refine ⟨⟨before.pid, ?_, before.files⟩, before.parent, rfl, before.parentSaved,
          before.terminal, before.isTerminal⟩
        simp only
        split
        · exact Iff.rfl
        · exact before.child
      · rw [Kernel.startProcess_pcb_of_ne _ _ _ _ _ isNew isPrevious,
          Kernel.startProcess_pcb_of_ne { left with pcb := pcbs } _ _ _ _ isNew isPrevious]
        exact before

theorem executeWithTerminalNum_similar {left right : Kernel} (similar : Similar left right)
    (registers : Registers) (tempBuf : Nat → UInt8) (command : Option CString)
    (terminalNum : Nat) (isTerminal : Int) :
    SameOutcome Similar
      (executeWithTerminalNum left registers tempBuf command terminalNum isTerminal)
      (executeWithTerminalNum right registers tempBuf command terminalNum isTerminal) := by
  cases command with
  | none => exact .some ⟨rfl, similar⟩
  | some command =>
      have named : Similar (left.setName (programName command))
          (right.setName (programName command)) := by
        obtain ⟨pcbs, rfl, alike⟩ := similar
        exact ⟨pcbs, rfl, alike⟩
      simp only [executeWithTerminalNum, similar.fs, similar.getEmptyPid]
      split
      · exact .some ⟨rfl, named⟩
      · split
        · exact .some ⟨rfl, named⟩
        · split
          · exact .some ⟨rfl, named⟩
          · next pid _ =>
              have claimed := named.claimProcess command pid terminalNum
              split
              · exact .none
              · split
                · exact .some ⟨rfl, claimed⟩
                · refine .some ⟨rfl, ?_⟩
                  obtain ⟨pcbs, claimedEq, alike⟩ := claimed
                  simp only [claimedEq]
                  exact similar_startProcess (fun slot _ => alike slot)
                    (alike pid).toAlikeInside ..

/-- Of the past of a free slot a start leaves nothing alive but the child. -/
theorem similar_newProcess (kernel : Kernel) {other : Pcb} {pid : Nat}
    (children : (kernel.pcb pid).child = none ↔ other.child = none) (command : CString)
    (terminalNum : Nat) (isTerminal : Int) (entry : Nat) (registers : Registers) :
    Similar
      ((kernel.claimProcess command pid terminalNum).startProcess pid terminalNum isTerminal
        entry registers)
      (((kernel.setPcb pid other).claimProcess command pid terminalNum).startProcess pid
        terminalNum isTerminal entry registers) := by
  have ownSlot : (kernel.setPcb pid other).pcb pid = other := Function.update_self ..
  have others : ∀ slot, slot ≠ pid →
      ((kernel.claimProcess command pid terminalNum).pcb slot).Alike
        (((kernel.setPcb pid other).claimProcess command pid terminalNum).pcb slot) := by
    intro slot notNew
    rw [Kernel.claimProcess_pcb_of_ne _ _ _ notNew, Kernel.claimProcess_pcb_of_ne _ _ _ notNew]
    simp only [Kernel.setPcb, Function.update_of_ne notNew]
    exact .refl (kernel.pcb slot)
  have own : ((kernel.claimProcess command pid terminalNum).pcb pid).AlikeInside
      (((kernel.setPcb pid other).claimProcess command pid terminalNum).pcb pid) := by
    simp only [Kernel.claimProcess, Function.update_self, ownSlot]
    exact pcbInit_alikeInside pid children
  exact similar_startProcess others own ..

/-- A successful start succeeds whatever the slot held, and two slots that agree
in whether there is a child make similar kernels. -/
theorem executeWithTerminalNum_slot {kernel first : Kernel} {other : Pcb}
    {registers : Registers} {tempBuf : Nat → UInt8} {command : Option CString}
    {terminalNum pid entry : Nat} {isTerminal : Int}
    (children : (kernel.pcb pid).child = none ↔ other.child = none)
    (started : executeWithTerminalNum kernel registers tempBuf command terminalNum isTerminal =
      some (.started pid entry, first)) :
    ∃ second, executeWithTerminalNum (kernel.setPcb pid other) registers tempBuf command
      terminalNum isTerminal = some (.started pid entry, second) ∧ Similar first second := by
  unfold executeWithTerminalNum at started ⊢
  cases command with
  | none => cases started
  | some text =>
      have sameFs : (kernel.setPcb pid other).fs = kernel.fs := rfl
      have sameSlots : (kernel.setPcb pid other).getEmptyPid = kernel.getEmptyPid := rfl
      simp only [sameFs, sameSlots] at started ⊢
      split at started
      · cases started
      · next present =>
          split at started
          · cases started
          · next executable =>
              split at started
              · cases started
              · next free =>
                  split at started
                  · cases started
                  · next loaded loads =>
                      split at started
                      · cases started
                      · next success =>
                          cases started
                          simp only [present, executable, success, if_false]
                          exact ⟨_, rfl,
                            similar_newProcess (kernel.setName (programName text)) children ..⟩

/-! ## The other events -/

theorem Similar.stopProcess {left right : Kernel} (similar : Similar left right) (pid : Nat) :
    Similar (left.stopProcess pid) (right.stopProcess pid) := by
  obtain ⟨pcbs, rfl, alike⟩ := similar
  exact ⟨pcbs, rfl, alike⟩

theorem Similar.stopRoot {left right : Kernel} (similar : Similar left right) (pid : Nat) :
    Similar (left.stopRoot pid) (right.stopRoot pid) := by
  obtain ⟨pcbs, rfl, alike⟩ := similar
  exact ⟨pcbs, rfl, alike⟩

theorem Similar.clearScreen {left right : Kernel} (similar : Similar left right) :
    Similar left.clearScreen right.clearScreen := by
  obtain ⟨pcbs, rfl, alike⟩ := similar
  exact ⟨pcbs, rfl, alike⟩

theorem Similar.returnToParent {left right : Kernel} (similar : Similar left right)
    (parent : Nat) : Similar (left.returnToParent parent) (right.returnToParent parent) := by
  have both := similar.pcb parent
  have waited : Pcb.Alike { left.pcb parent with child := none }
      { right.pcb parent with child := none } :=
    { both with child := Iff.rfl }
  have updated := similar.setPcb parent waited
  simp only [Kernel.returnToParent, both.pid]
  obtain ⟨pcbs, rfl, -⟩ := similar
  exact ⟨_, rfl, updated.pcb⟩

theorem halt_similar {left right : Kernel} (similar : Similar left right)
    (tempBuf : Nat → UInt8) (status : Int) :
    SameOutcome Similar (halt left tempBuf status) (halt right tempBuf status) := by
  simp only [halt, similar.currentPid, similar.totalRunningProcess]
  cases left.currentPid with
  | none => exact .none
  | some pid =>
      have both := similar.pcb pid
      have stopped := similar.stopProcess (right.pcb pid).pid
      simp only [both.pid, both.isTerminal, both.parent]
      split
      · obtain ⟨pcbs, rfl, alike⟩ := similar
        exact .some ⟨rfl, pcbs, rfl, alike⟩
      · split
        · exact .some ⟨rfl, similar.stopRoot (right.pcb pid).pid⟩
        · split
          · exact .none
          · next parent _ =>
              exact .some ⟨congrArg (HaltReply.returned 0) both.parentSaved,
                stopped.returnToParent parent⟩

/-- The search passes over the same processes. -/
theorem pitSearch_similar {left right : Kernel} (similar : Similar left right)
    (current fuel i : Nat) :
    pitSearch left current fuel i = pitSearch right current fuel i := by
  induction fuel generalizing i with
  | zero => rfl
  | succ fuel ih => simp only [pitSearch, similar.isRunning, (similar.pcb i).child, ih]

theorem Similar.switchProcess {left right : Kernel} (similar : Similar left right)
    (previous pid : Nat) (registers : Registers) :
    Similar (left.switchProcess previous pid registers)
      (right.switchProcess previous pid registers) := by
  have saved : Pcb.Alike
      { left.pcb previous with currentEsp := registers.esp, currentEbp := registers.ebp }
      { right.pcb previous with currentEsp := registers.esp, currentEbp := registers.ebp } :=
    { similar.pcb previous with saved := rfl }
  have updated := similar.setPcb previous saved
  simp only [Kernel.switchProcess, (similar.pcb pid).terminal]
  obtain ⟨pcbs, rfl, -⟩ := similar
  exact ⟨_, rfl, updated.pcb⟩

theorem pitHandler_similar {left right : Kernel} (similar : Similar left right)
    (registers : Registers) :
    SameOutcome Similar (pitHandler left registers) (pitHandler right registers) := by
  simp only [pitHandler, similar.currentPid, similar.totalRunningProcess]
  split
  · exact .some ⟨rfl, similar⟩
  · cases left.currentPid with
    | none => exact .none
    | some previous =>
        simp only [(similar.pcb previous).pid, pitSearch_similar similar]
        split
        · exact .none
        · next pid _ =>
            have switched := similar.switchProcess previous pid registers
            split
            · exact .some ⟨rfl, similar⟩
            · exact .some ⟨congrArg some (switched.pcb pid).saved, switched⟩

theorem keyboardInterrupt_similar {left right : Kernel} (similar : Similar left right)
    (registers : Registers) (tempBuf : Nat → UInt8) (c : UInt8) :
    SameOutcome Similar (keyboardInterrupt left registers tempBuf c)
      (keyboardInterrupt right registers tempBuf c) := by
  obtain ⟨pcbs, rfl, alike⟩ := similar
  unfold keyboardInterrupt
  generalize resultEq : scancodeProcessing consoleOps left.getEmptyPid.isSome
    left.terminals.console left.terminals.keyboard c = result
  have handled : Similar
      { left with terminals := { console := result.screen, keyboard := result.keyboard } }
      { left with
        pcb := pcbs
        terminals := { console := result.screen, keyboard := result.keyboard } } :=
    ⟨pcbs, rfl, alike⟩
  have sameResult : scancodeProcessing consoleOps
      ({ left with pcb := pcbs } : Kernel).getEmptyPid.isSome left.terminals.console
      left.terminals.keyboard c = result := resultEq
  simp only [sameResult]
  split
  · exact .some ⟨rfl, handled⟩
  · next terminalId _ =>
      exact (executeWithTerminalNum_similar handled registers tempBuf (some shellCommand)
        terminalId 1).map some

/-- Every event on similar kernels. -/
theorem processStep_similar {left right : Kernel} (similar : Similar left right)
    (event : ProcessEvent) :
    SameOutcome Similar (processStep left event) (processStep right event) := by
  cases event with
  | bootLaunch registers tempBuf =>
      simp only [processStep, similar.currentPid]
      split
      · exact (executeWithTerminalNum_similar similar ..).map _
      · exact .none
  | execute registers tempBuf command =>
      simp only [processStep, similar.userProcess]
      split
      · exact .none
      · refine SameOutcome.map ?_ _
        simp only [execute, similar.currentPid]
        split
        · exact .none
        · next pid _ =>
            rw [(similar.pcb pid).terminal]
            exact executeWithTerminalNum_similar similar ..
  | halt tempBuf status =>
      simp only [processStep, similar.userProcess]
      split
      · exact .none
      · exact (halt_similar similar tempBuf status).map _
  | clear =>
      have clearing := similar.outside Kernel.clearing fun _ _ => rfl
      simp only [processStep, clearing]
      split
      · exact .some ⟨rfl, similar.clearScreen⟩
      · exact .none
  | key registers tempBuf c => exact (keyboardInterrupt_similar similar registers tempBuf c).map _
  | tick registers => exact (pitHandler_similar similar registers).map _

end PonyOS.Process
