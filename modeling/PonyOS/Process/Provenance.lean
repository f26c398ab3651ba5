import PonyOS.Process.Fairness

/-!
# Where a resumed context comes from

A process stops being current in three ways and is resumed in two.  A tick and
a shell launched by a key save its registers in its own control block, and the
scheduler loads them from there; `execute` also saves them in the control block
of the child, and the child's `halt` loads them from there.  What is loaded was
saved by the last of these events, although slots are reused.
-/

namespace PonyOS.Process

open PonyOS.FileSystem
open PonyOS.Lib.Transition
open PonyOS.Lib.Word
open PonyOS.Paging
open PonyOS.Terminal

/-- The registers that an event saves for the process that it interrupts. -/
inductive Saves : ProcessEvent → ProcessReply → Registers → Prop
  | tick (registers loaded : Registers) :
      Saves (.tick registers) (.ticked (some loaded)) registers
  | key (registers : Registers) (tempBuf : Nat → UInt8) (c : UInt8) (pid entry : Nat) :
      Saves (.key registers tempBuf c) (.keyed (some (.started pid entry))) registers

/-- A tick or a keyed launch took the processor from the process and saved the
registers, and the process has not been current since. -/
def SuspendedBy (source : Kernel) (trace : List (ProcessEvent × ProcessReply)) (kernel : Kernel)
    (pid : Nat) (registers : Registers) : Prop :=
  Since processStep
    (fun state event reply => state.currentPid = some pid ∧ Saves event reply registers)
    (fun state _ _ => state.currentPid ≠ some pid) source trace kernel

/-- An `execute` call of `caller` with these registers started the process, and
it has neither ended nor been started again since. -/
def CreatedBy (source : Kernel) (trace : List (ProcessEvent × ProcessReply)) (kernel : Kernel)
    (pid caller : Nat) (registers : Registers) : Prop :=
  Since processStep
    (fun state event reply => state.userProcess = some caller ∧
      ∃ tempBuf command entry, event = .execute registers tempBuf command ∧
        reply = .executed (.started pid entry))
    (fun state _ reply => startedBy reply ≠ some pid ∧
      ¬ (state.currentPid = some pid ∧ endsProcess reply = true)) source trace kernel

/-! ## What a process keeps of its start -/

/-- What a control block says about the start of its process. -/
structure Origin where
  parent : Option Nat
  terminal : Nat
  isTerminal : Int
  registers : Registers

def Pcb.origin (pcb : Pcb) : Origin :=
  { parent := pcb.parent
    terminal := pcb.terminal
    isTerminal := pcb.isTerminal
    registers := pcb.parentSaved }

/-- An execution keeps every process that runs. -/
theorem executeWithTerminalNum_keeps {kernel target : Kernel} {registers : Registers}
    {tempBuf : Nat → UInt8} {command : Option CString} {terminalNum : Nat} {isTerminal : Int}
    {reply : ExecuteReply} {pid : Nat}
    (ended : executeWithTerminalNum kernel registers tempBuf command terminalNum isTerminal =
      some (reply, target)) (isRunning : kernel.processStatus pid = true) :
    target.processStatus pid = true ∧ (target.pcb pid).origin = (kernel.pcb pid).origin := by
  rcases executeWithTerminalNum_cases ended with
    ⟨-, fname, rfl⟩ | ⟨text, new, -, found, outcome⟩
  · exact ⟨isRunning, rfl⟩
  · obtain ⟨-, -, free⟩ := Kernel.getEmptyPid_eq_some found
    have notNew : pid ≠ new := by
      rintro rfl
      exact absurd (isRunning.symm.trans free) (by decide)
    have claimedPcb := (kernel.setName (programName text)).claimProcess_pcb_of_ne text
      terminalNum notNew
    have claimedRuns : ((kernel.setName (programName text)).claimProcess text new
        terminalNum).processStatus pid = true := by
      rw [Kernel.claimProcess_processStatus, Function.update_of_ne notNew]
      exact isRunning
    generalize (kernel.setName (programName text)).claimProcess text new terminalNum = claimed
      at outcome claimedPcb claimedRuns
    have sameOrigin : (claimed.pcb pid).origin = (kernel.pcb pid).origin :=
      congrArg Pcb.origin claimedPcb
    rcases outcome with ⟨-, -, -, rfl⟩ | ⟨entry, -, rfl⟩
    · exact ⟨claimedRuns, sameOrigin⟩
    · refine ⟨?_, ?_⟩
      · rw [Kernel.startProcess_eq]
        exact claimedRuns
      · by_cases isCurrent : claimed.currentPid = some pid
        · rw [claimed.startProcess_previous terminalNum isTerminal entry registers isCurrent
            notNew]
          exact sameOrigin
        · rw [claimed.startProcess_pcb_of_ne terminalNum isTerminal entry registers notNew
            isCurrent]
          exact sameOrigin

/-- A process that an event does not end keeps running, and its control block
what it says about its start. -/
theorem Moved.keeps {kernel target : Kernel} {event : ProcessEvent} {reply : ProcessReply}
    (moved : Moved kernel target event reply) (accounted : kernel.Accounted) {pid : Nat}
    (isRunning : kernel.processStatus pid = true)
    (goesOn : ¬ (kernel.currentPid = some pid ∧ endsProcess reply = true)) :
    target.processStatus pid = true ∧ (target.pcb pid).origin = (kernel.pcb pid).origin := by
  cases moved with
  | launched registers tempBuf outcome noCurrent executed =>
      exact executeWithTerminalNum_keeps executed isRunning
  | executed caller registers tempBuf command outcome isUser executed =>
      exact executeWithTerminalNum_keeps executed isRunning
  | halted caller tempBuf status outcome isUser ended =>
      obtain ⟨isCurrent, callerRuns⟩ := Kernel.userProcess_eq_some.mp isUser
      have pidField : (kernel.pcb caller).pid = caller :=
        (accounted.running caller callerRuns).2
      rcases halt_cases isCurrent ended with
        ⟨-, entry, -, rfl⟩ | ⟨-, -, rfl, rfl⟩ | ⟨-, -, parent, -, rfl, rfl⟩
      · exact ⟨isRunning, rfl⟩
      · have notCaller : pid ≠ caller := by
          rintro rfl
          exact goesOn ⟨isCurrent, rfl⟩
        rw [pidField]
        exact ⟨(Function.update_of_ne notCaller _ _).trans isRunning, rfl⟩
      · have notCaller : pid ≠ caller := by
          rintro rfl
          exact goesOn ⟨isCurrent, rfl⟩
        rw [pidField]
        refine ⟨(Function.update_of_ne notCaller _ _).trans isRunning, ?_⟩
        by_cases isParent : pid = parent
        · simp [Kernel.returnToParent, Kernel.setPcb, Kernel.onConsole, Kernel.stopProcess,
            isParent, Pcb.origin, Pcb.parentSaved]
        · simp [Kernel.returnToParent, Kernel.setPcb, Kernel.onConsole, Kernel.stopProcess,
            isParent]
  | cleared isClearing targetEq =>
      rw [targetEq, kernel.clearScreen_processStatus, kernel.clearScreen_pcb]
      exact ⟨isRunning, rfl⟩
  | keyed registers tempBuf c outcome ended =>
      obtain ⟨result, -, ⟨-, -, rfl⟩ | ⟨terminalId, started, -, -, executed⟩⟩ :=
        keyboardInterrupt_cases ended
      · exact ⟨isRunning, rfl⟩
      · have kept := executeWithTerminalNum_keeps executed isRunning
        exact kept
  | ticked registers loaded ended =>
      rcases pitHandler_cases ended with ⟨-, rfl⟩ | ⟨previous, other, -, -, -, -, rfl, -⟩
      · exact ⟨isRunning, rfl⟩
      · refine ⟨isRunning, ?_⟩
        by_cases isPrevious : pid = previous
        · simp [Kernel.switchProcess, Kernel.setPcb, Kernel.onConsole, isPrevious, Pcb.origin,
            Pcb.parentSaved]
        · simp [Kernel.switchProcess, Kernel.setPcb, Kernel.onConsole, isPrevious]

theorem executeWithTerminalNum_ran {kernel target : Kernel} {registers : Registers}
    {tempBuf : Nat → UInt8} {command : Option CString} {terminalNum : Nat} {isTerminal : Int}
    {reply : ExecuteReply} {pid : Nat}
    (ended : executeWithTerminalNum kernel registers tempBuf command terminalNum isTerminal =
      some (reply, target)) (inodes : EntriesHaveInodes kernel.fs)
    (isRunning : target.processStatus pid = true)
    (notStarted : startedPid reply ≠ some pid) : kernel.processStatus pid = true := by
  rcases executeWithTerminalNum_cases ended with
    ⟨-, fname, rfl⟩ | ⟨text, new, -, -, ⟨-, dangling, -⟩ | ⟨entry, rfl, rfl⟩⟩
  · exact isRunning
  · exact absurd dangling (inodes (programName text))
  · have notNew : pid ≠ new := by
      rintro rfl
      exact notStarted rfl
    rw [Kernel.startProcess_eq] at isRunning
    simp only [Kernel.claimProcess_processStatus, Function.update_of_ne notNew] at isRunning
    exact isRunning

/-- A process that runs after an event and was not started by it ran before,
and the event did not end it. -/
theorem Moved.ran {kernel target : Kernel} {event : ProcessEvent} {reply : ProcessReply}
    (moved : Moved kernel target event reply) (sound : Sound kernel) {pid : Nat}
    (isRunning : target.processStatus pid = true) (notStarted : startedBy reply ≠ some pid) :
    kernel.processStatus pid = true ∧
      ¬ (kernel.currentPid = some pid ∧ endsProcess reply = true) := by
  cases moved with
  | launched registers tempBuf outcome noCurrent executed =>
      exact ⟨executeWithTerminalNum_ran executed sound.inodes isRunning notStarted,
        fun ended => nomatch ended.2⟩
  | executed caller registers tempBuf command outcome isUser executed =>
      exact ⟨executeWithTerminalNum_ran executed sound.inodes isRunning notStarted,
        fun ended => nomatch ended.2⟩
  | halted caller tempBuf status outcome isUser ended =>
      obtain ⟨isCurrent, callerRuns⟩ := Kernel.userProcess_eq_some.mp isUser
      have pidField : (kernel.pcb caller).pid = caller := sound.table.pidField caller callerRuns
      have stopped : target.processStatus = Function.update kernel.processStatus caller false →
          kernel.processStatus pid = true ∧ ¬ (kernel.currentPid = some pid ∧
            endsProcess (.halted outcome) = true) := by
        intro status
        have notCaller : pid ≠ caller := by
          rintro rfl
          rw [status, Function.update_self] at isRunning
          contradiction
        rw [status, Function.update_of_ne notCaller] at isRunning
        refine ⟨isRunning, fun ends => notCaller ?_⟩
        exact Option.some.inj (ends.1.symm.trans isCurrent)
      rcases halt_cases isCurrent ended with
        ⟨-, entry, rfl, rfl⟩ | ⟨-, -, rfl, rfl⟩ | ⟨-, -, parent, -, rfl, rfl⟩
      · exact ⟨isRunning, fun ends => nomatch ends.2⟩
      · apply stopped
        rw [pidField]
        rfl
      · apply stopped
        rw [pidField]
        rfl
  | cleared isClearing targetEq =>
      rw [targetEq, kernel.clearScreen_processStatus] at isRunning
      exact ⟨isRunning, fun ends => nomatch ends.2⟩
  | keyed registers tempBuf c outcome ended =>
      obtain ⟨result, -, ⟨-, rfl, rfl⟩ | ⟨terminalId, started, -, rfl, executed⟩⟩ :=
        keyboardInterrupt_cases ended
      · exact ⟨isRunning, fun ends => nomatch ends.2⟩
      · have ran := executeWithTerminalNum_ran executed sound.inodes isRunning notStarted
        exact ⟨ran, fun ends => nomatch ends.2⟩
  | ticked registers loaded ended =>
      rcases pitHandler_cases ended with ⟨-, rfl⟩ | ⟨previous, other, -, -, -, -, rfl, -⟩
      · exact ⟨isRunning, fun ends => nomatch ends.2⟩
      · exact ⟨isRunning, fun ends => nomatch ends.2⟩

/-! ## What a suspended process keeps -/

/-- An execution saves the registers of the process it interrupts, and those of
no other process. -/
theorem executeWithTerminalNum_saved {kernel target : Kernel} {registers : Registers}
    {tempBuf : Nat → UInt8} {command : Option CString} {terminalNum : Nat} {isTerminal : Int}
    {reply : ExecuteReply} {pid : Nat}
    (ended : executeWithTerminalNum kernel registers tempBuf command terminalNum isTerminal =
      some (reply, target)) (inodes : EntriesHaveInodes kernel.fs)
    (schedulable : target.Schedulable pid) (notCurrent : target.currentPid ≠ some pid) :
    (kernel.currentPid = some pid ∧ isTerminal ≠ 0 ∧ (∃ new entry, reply = .started new entry) ∧
        (target.pcb pid).saved = registers) ∨
      (kernel.currentPid ≠ some pid ∧ kernel.Schedulable pid ∧
        (target.pcb pid).saved = (kernel.pcb pid).saved) := by
  rcases executeWithTerminalNum_cases ended with
    ⟨-, fname, rfl⟩ | ⟨text, new, -, -, ⟨-, dangling, -⟩ | ⟨entry, rfl, rfl⟩⟩
  · exact .inr ⟨notCurrent, schedulable, rfl⟩
  · exact absurd dangling (inodes (programName text))
  · have notNew : pid ≠ new := by
      rintro rfl
      apply notCurrent
      rw [Kernel.startProcess_eq]
    have ran : kernel.isRunning pid = true := by
      obtain ⟨isRunning, -⟩ := schedulable
      rw [Kernel.startProcess_eq] at isRunning
      have status : ((kernel.setName (programName text)).claimProcess text new
          terminalNum).processStatus pid = kernel.processStatus pid := by
        rw [Kernel.claimProcess_processStatus, Function.update_of_ne notNew]
        rfl
      unfold Kernel.isRunning at isRunning ⊢
      rwa [status] at isRunning
    have claimedPcb : ((kernel.setName (programName text)).claimProcess text new
        terminalNum).pcb pid = kernel.pcb pid :=
      (kernel.setName (programName text)).claimProcess_pcb_of_ne text terminalNum notNew
    have claimedCurrent : ((kernel.setName (programName text)).claimProcess text new
        terminalNum).currentPid = kernel.currentPid := rfl
    have childless := schedulable.2
    generalize (kernel.setName (programName text)).claimProcess text new terminalNum = claimed
      at childless claimedPcb claimedCurrent ⊢
    by_cases isCurrent : kernel.currentPid = some pid
    · have previous := claimed.startProcess_previous terminalNum isTerminal entry registers
        (claimedCurrent.trans isCurrent) notNew
      rw [previous] at childless ⊢
      refine .inl ⟨isCurrent, ?_, ⟨new, entry, rfl⟩, rfl⟩
      rintro rfl
      contradiction
    · have other := claimed.startProcess_pcb_of_ne terminalNum isTerminal entry registers notNew
        (claimedCurrent ▸ isCurrent)
      rw [other, claimedPcb] at childless ⊢
      exact .inr ⟨isCurrent, ⟨ran, childless⟩, rfl⟩

/-- A halt saves no registers. -/
theorem halt_saved {kernel target : Kernel} {tempBuf : Nat → UInt8} {status : Int}
    {outcome : HaltReply} {caller pid : Nat} (sound : Sound kernel)
    (isUser : kernel.userProcess = some caller)
    (ended : halt kernel tempBuf status = some (outcome, target))
    (schedulable : target.Schedulable pid) (notCurrent : target.currentPid ≠ some pid) :
    kernel.currentPid ≠ some pid ∧ kernel.Schedulable pid ∧
      (target.pcb pid).saved = (kernel.pcb pid).saved := by
  obtain ⟨isCurrent, callerRuns⟩ := Kernel.userProcess_eq_some.mp isUser
  have pidField : (kernel.pcb caller).pid = caller := sound.table.pidField caller callerRuns
  have stopped : target.processStatus = Function.update kernel.processStatus caller false →
      pid ≠ caller ∧ kernel.isRunning pid = true := by
    intro status
    obtain ⟨isRunning, -⟩ := schedulable
    unfold Kernel.isRunning at isRunning ⊢
    have notCaller : pid ≠ caller := by
      rintro rfl
      rw [status, Function.update_self] at isRunning
      simp at isRunning
    rw [status, Function.update_of_ne notCaller] at isRunning
    exact ⟨notCaller, isRunning⟩
  rcases halt_cases isCurrent ended with
    ⟨-, entry, rfl, rfl⟩ | ⟨-, -, rfl, rfl⟩ |
    ⟨-, isChild, parent, parentEq, rfl, rfl⟩
  · exact ⟨notCurrent, schedulable, rfl⟩
  · obtain ⟨-, ran⟩ := stopped (by rw [pidField]; rfl)
    exact ⟨notCurrent, ⟨ran, schedulable.2⟩, rfl⟩
  · obtain ⟨notCaller, ran⟩ := stopped (by rw [pidField]; rfl)
    obtain ⟨waiting, waitingEq, parentRuns, -⟩ := sound.table.parent caller callerRuns isChild
    cases parentEq.symm.trans waitingEq
    have parentPid : (kernel.pcb parent).pid = parent :=
      sound.table.pidField parent parentRuns
    have notParent : pid ≠ parent := by
      rintro rfl
      exact notCurrent (congrArg some parentPid)
    have same : ((kernel.stopProcess (kernel.pcb caller).pid).returnToParent parent).pcb pid =
        kernel.pcb pid := Function.update_of_ne notParent _ _
    refine ⟨?_, ⟨ran, same ▸ schedulable.2⟩, congrArg Pcb.saved same⟩
    rw [isCurrent]
    exact fun equal => notCaller (Option.some.inj equal).symm

/-- A tick saves the registers of the process that it leaves. -/
theorem pitHandler_saved {kernel target : Kernel} {registers : Registers}
    {loaded : Option Registers} {pid : Nat}
    (ended : pitHandler kernel registers = some (loaded, target))
    (schedulable : target.Schedulable pid) (notCurrent : target.currentPid ≠ some pid) :
    (kernel.currentPid = some pid ∧
        Saves (.tick registers) (.ticked loaded) (target.pcb pid).saved) ∨
      (kernel.currentPid ≠ some pid ∧ kernel.Schedulable pid ∧
        (target.pcb pid).saved = (kernel.pcb pid).saved) := by
  rcases pitHandler_cases ended with
    ⟨-, rfl⟩ | ⟨previous, other, previousEq, -, -, -, rfl, rfl⟩
  · exact .inr ⟨notCurrent, schedulable, rfl⟩
  · have before : kernel.Schedulable pid := by
      rw [kernel.switchProcess_schedulable] at schedulable
      exact schedulable
    by_cases isPrevious : pid = previous
    · subst isPrevious
      have saved : ((kernel.switchProcess pid other registers).pcb pid).saved = registers := by
        simp [Kernel.switchProcess, Kernel.setPcb, Kernel.onConsole, Pcb.saved]
      rw [saved]
      exact .inl ⟨previousEq, .tick registers _⟩
    · have same : (kernel.switchProcess previous other registers).pcb pid = kernel.pcb pid :=
        Function.update_of_ne isPrevious _ _
      refine .inr ⟨?_, before, congrArg Pcb.saved same⟩
      rw [previousEq]
      exact fun equal => isPrevious (Option.some.inj equal).symm

/-- How a process that can be scheduled but is not current came by its saved
registers: the event has just saved them, or it left them alone. -/
theorem Moved.saved {kernel target : Kernel} {event : ProcessEvent} {reply : ProcessReply}
    (moved : Moved kernel target event reply) (sound : Sound kernel) {pid : Nat}
    (schedulable : target.Schedulable pid) (notCurrent : target.currentPid ≠ some pid) :
    (kernel.currentPid = some pid ∧ Saves event reply (target.pcb pid).saved) ∨
      (kernel.currentPid ≠ some pid ∧ kernel.Schedulable pid ∧
        (target.pcb pid).saved = (kernel.pcb pid).saved) := by
  cases moved with
  | launched registers tempBuf outcome noCurrent executed =>
      refine (executeWithTerminalNum_saved executed sound.inodes schedulable notCurrent).imp
        (fun interrupted => ?_) id
      rw [noCurrent] at interrupted
      exact absurd interrupted.1 (Option.some_ne_none pid).symm
  | executed caller registers tempBuf command outcome isUser executed =>
      refine (executeWithTerminalNum_saved executed sound.inodes schedulable notCurrent).imp
        (fun interrupted => ?_) id
      exact absurd rfl interrupted.2.1
  | halted caller tempBuf status outcome isUser ended =>
      exact .inr (halt_saved sound isUser ended schedulable notCurrent)
  | cleared isClearing targetEq =>
      rw [targetEq, kernel.clearScreen_currentPid] at notCurrent
      rw [targetEq, kernel.clearScreen_schedulable] at schedulable
      rw [targetEq, kernel.clearScreen_pcb]
      exact .inr ⟨notCurrent, schedulable, rfl⟩
  | keyed registers tempBuf c outcome ended =>
      obtain ⟨result, -, ⟨-, rfl, rfl⟩ | ⟨terminalId, started, -, rfl, executed⟩⟩ :=
        keyboardInterrupt_cases ended
      · exact .inr ⟨notCurrent, schedulable, rfl⟩
      · rcases executeWithTerminalNum_saved executed sound.inodes schedulable notCurrent with
          ⟨isCurrent, -, ⟨new, entry, rfl⟩, saved⟩ | other
        · rw [saved]
          exact .inl ⟨isCurrent, .key registers tempBuf c new entry⟩
        · exact .inr other
  | ticked registers loaded ended =>
      exact pitHandler_saved ended schedulable notCurrent

/-! ## Along a run -/

/-- A started process runs, and records the interrupted process and its
registers. -/
theorem executeWithTerminalNum_started {kernel target : Kernel} {registers : Registers}
    {tempBuf : Nat → UInt8} {command : Option CString} {terminalNum : Nat} {isTerminal : Int}
    {pid entry : Nat}
    (ended : executeWithTerminalNum kernel registers tempBuf command terminalNum isTerminal =
      some (.started pid entry, target)) :
    target.processStatus pid = true ∧ (target.pcb pid).origin =
      { parent := kernel.currentPid, terminal := terminalNum, isTerminal := isTerminal,
        registers := registers } := by
  rcases executeWithTerminalNum_cases ended with
    ⟨failed, -⟩ | ⟨text, new, -, -, ⟨failed, -⟩ | ⟨entered, started, rfl⟩⟩
  · cases failed
  · cases failed
  · cases started
    have current : ((kernel.setName (programName text)).claimProcess text pid
        terminalNum).currentPid = kernel.currentPid := rfl
    have status := (kernel.setName (programName text)).claimProcess_processStatus text pid
      terminalNum
    generalize (kernel.setName (programName text)).claimProcess text pid terminalNum = claimed
      at current status
    obtain ⟨esp, ebp, parent, isOn, kind⟩ :=
      claimed.startProcess_new pid terminalNum isTerminal entry registers
    refine ⟨?_, ?_⟩
    · rw [Kernel.startProcess_eq]
      simp only [status, Function.update_self]
    · simp only [Pcb.origin, Pcb.parentSaved, esp, ebp, parent, isOn, kind, current]

/-- A child process was started by an `execute` call. -/
theorem Moved.started {kernel target : Kernel} {event : ProcessEvent} {reply : ProcessReply}
    (moved : Moved kernel target event reply) {pid : Nat} (started : startedBy reply = some pid)
    (isChild : (target.pcb pid).isTerminal = 0) :
    ∃ caller registers, kernel.userProcess = some caller ∧
      ∃ tempBuf command entry, event = .execute registers tempBuf command ∧
        reply = .executed (.started pid entry) := by
  have notRoot : ∀ {source : Kernel} {registers : Registers} {tempBuf : Nat → UInt8}
      {command : Option CString} {terminalNum : Nat} {outcome : ExecuteReply},
      executeWithTerminalNum source registers tempBuf command terminalNum 1 =
        some (outcome, target) → startedPid outcome ≠ some pid := by
    intro source registers tempBuf command terminalNum outcome executed same
    cases outcome with
    | failed => cases same
    | started new entry =>
        cases same
        have root : (target.pcb pid).isTerminal = 1 :=
          congrArg Origin.isTerminal (executeWithTerminalNum_started executed).2
        exact absurd (isChild.symm.trans root) (by decide)
  cases moved with
  | launched registers tempBuf outcome noCurrent executed => exact absurd started (notRoot executed)
  | executed caller registers tempBuf command outcome isUser executed =>
      cases outcome with
      | failed => cases started
      | started new entry =>
          cases started
          exact ⟨caller, registers, isUser, tempBuf, command, entry, rfl, rfl⟩
  | halted caller tempBuf status outcome isUser ended => cases started
  | cleared isClearing targetEq => cases started
  | keyed registers tempBuf c outcome ended =>
      obtain ⟨result, -, ⟨-, rfl, -⟩ | ⟨terminalId, launched, -, rfl, executed⟩⟩ :=
        keyboardInterrupt_cases ended
      · cases started
      · exact absurd started (notRoot executed)
  | ticked registers loaded ended => cases started

/-- A process that an `execute` call started still says so. -/
theorem CreatedBy.origin {source kernel : Kernel} {trace : List (ProcessEvent × ProcessReply)}
    {pid caller : Nat} {registers : Registers} (booted : source.Accounted)
    (created : CreatedBy source trace kernel pid caller registers) :
    kernel.processStatus pid = true ∧ ∃ terminal, (kernel.pcb pid).origin =
      { parent := some caller, terminal := terminal, isTerminal := 0, registers := registers } := by
  have held := Since.holds
    (P := fun state : Kernel => state.Accounted ∧ state.processStatus pid = true ∧
      ∃ terminal, (state.pcb pid).origin =
        { parent := some caller, terminal := terminal, isTerminal := 0
          registers := registers }) ?_ ?_ created
  · exact held.2
  · rintro history state event reply target run ⟨isUser, tempBuf, command, entry, rfl, rfl⟩ stepped
    have accounted : state.Accounted := run.invariant (P := Kernel.Accounted)
      (fun accounted _ stepped => accounted.step (processStep_moved stepped)) booted
    refine ⟨accounted.step (processStep_moved stepped), ?_⟩
    cases processStep_moved stepped with
    | executed caller' _ _ _ _ isUser' executed =>
        obtain ⟨isRunning, started⟩ := executeWithTerminalNum_started executed
        rw [(Kernel.userProcess_eq_some.mp isUser).1] at started
        exact ⟨isRunning, _, started⟩
  · rintro state event reply target ⟨accounted, isRunning, terminal, sameOrigin⟩ ⟨-, goesOn⟩ stepped
    have moved := processStep_moved stepped
    obtain ⟨stillRuns, kept⟩ := moved.keeps accounted isRunning goesOn
    exact ⟨accounted.step moved, stillRuns, terminal, kept.trans sameOrigin⟩

/-- Where the saved registers of every process come from. -/
structure Provenance (source : Kernel) (trace : List (ProcessEvent × ProcessReply))
    (kernel : Kernel) : Prop where
  run : Run processStep source trace kernel
  sound : Sound kernel
  suspended : ∀ pid, kernel.Schedulable pid → kernel.currentPid ≠ some pid →
    SuspendedBy source trace kernel pid (kernel.pcb pid).saved
  created : ∀ pid, kernel.processStatus pid = true → (kernel.pcb pid).isTerminal = 0 →
    ∃ caller registers, CreatedBy source trace kernel pid caller registers

theorem Provenance.step {source kernel target : Kernel}
    {trace : List (ProcessEvent × ProcessReply)} {event : ProcessEvent} {reply : ProcessReply}
    (provenance : Provenance source trace kernel) (accounted : kernel.Accounted)
    (stepped : processStep kernel event = some (reply, target)) :
    Provenance source (trace ++ [(event, reply)]) target := by
  have moved := processStep_moved stepped
  constructor
  · exact provenance.run.snoc trivial stepped
  · exact provenance.sound.step moved
  · intro pid schedulable notCurrent
    rcases moved.saved provenance.sound schedulable notCurrent with
      ⟨wasCurrent, saves⟩ | ⟨notBefore, before, same⟩
    · exact Since.now provenance.run ⟨wasCurrent, saves⟩ stepped
    · rw [same]
      exact (provenance.suspended pid before notBefore).later notBefore stepped
  · intro pid isRunning isChild
    by_cases started : startedBy reply = some pid
    · obtain ⟨caller, registers, made⟩ := moved.started started isChild
      exact ⟨caller, registers, Since.now provenance.run made stepped⟩
    · obtain ⟨ran, goesOn⟩ := moved.ran provenance.sound isRunning started
      have sameOrigin := (moved.keeps accounted ran goesOn).2
      have wasChild : (kernel.pcb pid).isTerminal = 0 :=
        (congrArg Origin.isTerminal sameOrigin).symm.trans isChild
      obtain ⟨caller, registers, created⟩ := provenance.created pid ran wasChild
      exact ⟨caller, registers, created.later ⟨started, goesOn⟩ stepped⟩

theorem Provenance.of_run {memory screen : Memory} {start : Nat} {image : Image}
    {paging : PageTables} {printBuffer argBuf fname : Nat → UInt8} {currentDirReadIndex : Int}
    {trace : List (ProcessEvent × ProcessReply)} {final : Kernel}
    (loaded : Loaded memory start image) (wellFormed : image.WellFormed)
    (run : Run processStep (Kernel.boot (filesysInit memory start) paging screen printBuffer
      argBuf fname currentDirReadIndex) trace final) :
    Provenance (Kernel.boot (filesysInit memory start) paging screen printBuffer argBuf fname
      currentDirReadIndex) trace final ∧ final.Accounted := by
  have booted : Provenance (Kernel.boot (filesysInit memory start) paging screen printBuffer
      argBuf fname currentDirReadIndex) [] (Kernel.boot (filesysInit memory start) paging screen
      printBuffer argBuf fname currentDirReadIndex) := by
    constructor
    · exact .nil _
    · exact Sound.boot (entriesHaveInodes_of_wellFormed loaded wellFormed) ..
    · rintro pid ⟨isRunning, -⟩ -
      have runs := Kernel.processStatus_of_isRunning isRunning
      contradiction
    · intro pid isRunning
      contradiction
  have reached := run.historyInvariant
    (P := fun history kernel => Provenance (Kernel.boot (filesysInit memory start) paging screen
      printBuffer argBuf fname currentDirReadIndex) history kernel ∧ kernel.Accounted)
    (fun before _ stepped => ⟨before.1.step before.2 stepped,
      before.2.step (processStep_moved stepped)⟩) ⟨booted, Kernel.Accounted.boot ..⟩
  exact reached

/-- Only freshly saved contexts are resumed.  What a tick loads was saved by
the last event that took the processor from the process it resumes; what a
returning `halt` loads was saved by the `execute` call that started the halting
process, and the caller of that call is resumed. -/
theorem reachable_contexts_fresh {memory screen : Memory} {start : Nat} {image : Image}
    {paging : PageTables} {printBuffer argBuf fname : Nat → UInt8} {currentDirReadIndex : Int}
    {trace : List (ProcessEvent × ProcessReply)} {final : Kernel}
    (loaded : Loaded memory start image) (wellFormed : image.WellFormed)
    (run : Run processStep (Kernel.boot (filesysInit memory start) paging screen printBuffer
      argBuf fname currentDirReadIndex) trace final) :
    let source := Kernel.boot (filesysInit memory start) paging screen printBuffer argBuf fname
      currentDirReadIndex
    (∀ registers resumed target pid,
      pitHandler final registers = some (some resumed, target) → target.currentPid = some pid →
        final.currentPid ≠ some pid ∧ SuspendedBy source trace final pid resumed) ∧
      ∀ tempBuf status value resumed target pid, final.userProcess = some pid →
        halt final tempBuf status = some (.returned value resumed, target) →
          ∃ caller, CreatedBy source trace final pid caller resumed ∧
            target.currentPid = some caller := by
  intro source
  obtain ⟨provenance, accounted⟩ := Provenance.of_run loaded wellFormed run
  constructor
  · intro registers resumed target pid ended isCurrent
    rcases pitHandler_cases ended with
      ⟨noReply, -⟩ | ⟨previous, other, previousEq, notPrevious, isRunning, childless, rfl, reply⟩
    · cases noReply
    · obtain rfl : other = pid := Option.some.inj isCurrent
      have pidField : (final.pcb previous).pid = previous := (accounted.current _ previousEq).2
      rw [pidField] at notPrevious
      have notCurrent : final.currentPid ≠ some other := by
        rw [previousEq]
        exact fun same => notPrevious (Option.some.inj same).symm
      have same : (final.switchProcess previous other registers).pcb other = final.pcb other :=
        Function.update_of_ne notPrevious _ _
      rw [same] at reply
      rw [Option.some.inj reply]
      exact ⟨notCurrent, provenance.suspended other ⟨isRunning, childless⟩ notCurrent⟩
  · intro tempBuf status value resumed target pid isUser ended
    obtain ⟨isCurrent, isRunning⟩ := Kernel.userProcess_eq_some.mp isUser
    rcases halt_cases isCurrent ended with
      ⟨-, entry, restarted, -⟩ | ⟨-, -, spinning, -⟩ | ⟨-, isChild, parent, parentEq, returned, rfl⟩
    · cases restarted
    · cases spinning
    · obtain ⟨caller, registers, created⟩ := provenance.created pid isRunning isChild
      obtain ⟨-, terminal, origin⟩ := created.origin (Kernel.Accounted.boot ..)
      obtain rfl : parent = caller :=
        Option.some.inj (parentEq.symm.trans (congrArg Origin.parent origin))
      have saved : (final.pcb pid).parentSaved = registers := congrArg Origin.registers origin
      rw [saved] at returned
      cases returned
      exact ⟨parent, created, congrArg some (accounted.parent pid parent parentEq).2⟩

/-- The second shell of the small image was started by the root shell. -/
theorem shellKernel_nested_created : ∃ trace second third,
    Run processStep shellKernel trace second ∧
      CreatedBy shellKernel trace second 2 1 { esp := 64, ebp := 96 } ∧
      second.userProcess = some 2 ∧ second.totalRunningProcess = 2 ∧
      halt second (fun _ => 0) 7 = some (.returned 0 { esp := 64, ebp := 96 }, third) := by
  obtain ⟨first, second, third, launched, isRoot, executed, rest⟩ := shellKernel_nested
  have run : Run processStep shellKernel [_] first := .cons trivial launched (.nil first)
  exact ⟨_, second, third, run.snoc trivial executed,
    Since.now run ⟨isRoot, _, _, _, rfl, rfl⟩ executed, rest⟩

/-- A second shell returns to the call of the root shell that started it. -/
theorem reachable_contexts_fresh_nested : ∃ trace final target,
    final.userProcess = some 2 ∧
      halt final (fun _ => 0) 7 = some (.returned 0 { esp := 64, ebp := 96 }, target) ∧
      ∃ caller, CreatedBy shellKernel trace final 2 caller { esp := 64, ebp := 96 } ∧
        target.currentPid = some caller := by
  obtain ⟨trace, second, third, run, -, isUser, -, halted⟩ := shellKernel_nested_created
  have fresh := (reachable_contexts_fresh shellMemory_loaded shellImage_wellFormed run).2
  exact ⟨trace, second, third, isUser, halted, fresh _ _ _ _ _ _ isUser halted⟩

end PonyOS.Process
