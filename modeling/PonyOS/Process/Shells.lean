import PonyOS.Process.Provenance

/-!
# Launch flags and live shells

The keyboard driver remembers in two flags on which terminals it launched a
shell.  A flag is raised before the launch, which can fail, and nothing ever
lowers it, although the shell may halt.  As long as no launch fails and no root
of these terminals ends, the flags say which terminals have a process: the root
that was launched there.
-/

namespace PonyOS.Process

open PonyOS.FileSystem
open PonyOS.Lib.Transition
open PonyOS.Lib.Word
open PonyOS.Paging
open PonyOS.Terminal

/-! ## Launches -/

/-- The image has a shell that can be loaded: it is found, its header passes the
test, and the load succeeds. -/
def ShellLoads (fs : Volume) (tempBuf : Nat → UInt8) : Prop :=
  fs.readDentryByName shellCommand ≠ none ∧
    isExecutable (readHeader fs shellCommand tempBuf) = true ∧
    loadExecutable fs shellCommand userProgramAddr = some 0

theorem programName_shellCommand : programName shellCommand = shellCommand :=
  rfl

/-- Such a shell starts in every free slot. -/
theorem ShellLoads.starts {kernel : Kernel} {tempBuf : Nat → UInt8}
    (loads : ShellLoads kernel.fs tempBuf) {pid : Nat} (free : kernel.getEmptyPid = some pid)
    (registers : Registers) (terminalNum : Nat) (isTerminal : Int) :
    ∃ entry target, executeWithTerminalNum kernel registers tempBuf (some shellCommand)
      terminalNum isTerminal = some (.started pid entry, target) := by
  obtain ⟨found, executable, loaded⟩ := loads
  simp only [executeWithTerminalNum, programName_shellCommand, found, if_false, executable,
    Bool.true_eq_false, free, loaded]
  exact ⟨_, _, rfl⟩

/-- A shell that the image can load is started on the terminal that the key
asks for. -/
theorem keyboardInterrupt_starts {kernel : Kernel} {tempBuf : Nat → UInt8} {c : UInt8}
    {terminal : Nat} (loads : ShellLoads kernel.fs tempBuf)
    (asked : launchOf kernel.getEmptyPid.isSome kernel.terminals.keyboard c.toNat =
      some terminal) (registers : Registers) :
    ∃ pid entry target, keyboardInterrupt kernel registers tempBuf c =
      some (some (.started pid entry), target) ∧ target.processStatus pid = true ∧
        (target.pcb pid).terminal = terminal := by
  have launch := scancodeProcessing_launch_eq consoleOps kernel.getEmptyPid.isSome
    kernel.terminals.console kernel.terminals.keyboard c
  rw [asked] at launch
  obtain ⟨pid, free⟩ : ∃ pid, kernel.getEmptyPid = some pid := by
    apply Option.isSome_iff_exists.mp
    by_contra taken
    simp [launchOf, taken] at asked
    split at asked <;> cases asked
  unfold keyboardInterrupt
  generalize scancodeProcessing consoleOps kernel.getEmptyPid.isSome kernel.terminals.console
    kernel.terminals.keyboard c = result at launch
  simp only [launch]
  have handledLoads : ShellLoads { kernel with
      terminals := { console := result.screen, keyboard := result.keyboard } }.fs tempBuf := loads
  obtain ⟨entry, target, started⟩ := handledLoads.starts free registers terminal 1
  refine ⟨pid, entry, target, by rw [started]; rfl, ?_⟩
  obtain ⟨isRunning, origin⟩ := executeWithTerminalNum_started started
  exact ⟨isRunning, congrArg Origin.terminal origin⟩

/-! ## Along a run -/

/-- The flags say which of the two terminals have a process. -/
structure FlagsTrack (kernel : Kernel) : Prop where
  second : kernel.terminals.keyboard.terminal2Running = true ↔
    ∃ pid, kernel.processStatus pid = true ∧ (kernel.pcb pid).terminal = 1
  third : kernel.terminals.keyboard.terminal3Running = true ↔
    ∃ pid, kernel.processStatus pid = true ∧ (kernel.pcb pid).terminal = 2

/-- A key that shows the second or third terminal while it has no process, and
a pid is free, starts a shell there. -/
def KeyStartsShell (kernel : Kernel) : Prop :=
  ∀ (registers : Registers) (tempBuf : Nat → UInt8) (c : UInt8) (terminal : Nat),
    switchOf kernel.terminals.keyboard c.toNat = some terminal → terminal = 1 ∨ terminal = 2 →
    (∀ pid, kernel.processStatus pid = true → (kernel.pcb pid).terminal ≠ terminal) →
    kernel.getEmptyPid ≠ none → ShellLoads kernel.fs tempBuf →
    ∃ pid entry target, processStep kernel (.key registers tempBuf c) =
      some (.keyed (some (.started pid entry)), target) ∧ target.processStatus pid = true ∧
        (target.pcb pid).terminal = terminal

/-- A shell that a key asks for can be loaded, and a process that halts is not a
root of the second or third terminal that ends. -/
def KeepsShells (kernel : Kernel) : ProcessEvent → ProcessReply → Prop
  | .key _ tempBuf c, _ =>
      launchOf kernel.getEmptyPid.isSome kernel.terminals.keyboard c.toNat ≠ none →
        ShellLoads kernel.fs tempBuf
  | .halt _ _, _ => ∀ pid, kernel.userProcess = some pid → (kernel.pcb pid).isTerminal ≠ 0 →
      kernel.totalRunningProcess ≠ 1 →
      (kernel.pcb pid).terminal ≠ 1 ∧ (kernel.pcb pid).terminal ≠ 2
  | _, _ => True

/-- The flag of a terminal and the processes on it: a control block names the
terminal only once it was launched, and then its root runs. -/
structure Launched (kernel : Kernel) (terminal : Nat) (flag : Bool) : Prop where
  raised : ∀ slot, (kernel.pcb slot).terminal = terminal → flag = true
  root : flag = true → ∃ pid, kernel.processStatus pid = true ∧
    (kernel.pcb pid).isTerminal ≠ 0 ∧ (kernel.pcb pid).terminal = terminal

/-- Control blocks keep their terminals, except that of a started process. -/
theorem executeWithTerminalNum_terminal {kernel target : Kernel} {registers : Registers}
    {tempBuf : Nat → UInt8} {command : Option CString} {terminalNum : Nat} {isTerminal : Int}
    {reply : ExecuteReply}
    (ended : executeWithTerminalNum kernel registers tempBuf command terminalNum isTerminal =
      some (reply, target)) (slot : Nat) :
    (target.pcb slot).terminal = (kernel.pcb slot).terminal ∨
      (target.pcb slot).terminal = terminalNum := by
  rcases executeWithTerminalNum_cases ended with
    ⟨-, fname, rfl⟩ | ⟨text, pid, -, -, outcome⟩
  · exact .inl rfl
  · have claimedTerminal : (((kernel.setName (programName text)).claimProcess text pid
        terminalNum).pcb slot).terminal = (kernel.pcb slot).terminal := by
      by_cases isNew : slot = pid
      · have reset : ((kernel.setName (programName text)).claimProcess text pid terminalNum).pcb
            pid = pcbInit (kernel.pcb pid) pid := Function.update_self ..
        rw [isNew, reset]
        rfl
      · exact congrArg Pcb.terminal (Kernel.claimProcess_pcb_of_ne _ text terminalNum isNew)
    generalize (kernel.setName (programName text)).claimProcess text pid terminalNum = claimed
      at outcome claimedTerminal
    rcases outcome with ⟨-, -, -, rfl⟩ | ⟨entry, -, rfl⟩
    · exact .inl claimedTerminal
    · by_cases isNew : slot = pid
      · rw [isNew]
        exact .inr (claimed.startProcess_new pid terminalNum isTerminal entry registers).2.2.2.1
      · refine .inl (Eq.trans ?_ claimedTerminal)
        by_cases isCurrent : claimed.currentPid = some slot
        · rw [claimed.startProcess_previous terminalNum isTerminal entry registers isCurrent isNew]
        · rw [claimed.startProcess_pcb_of_ne terminalNum isTerminal entry registers isNew isCurrent]

namespace Launched

variable {kernel target : Kernel} {terminal : Nat} {flag : Bool}

theorem of_kept (launched : Launched kernel terminal flag)
    (terminals : ∀ slot, (target.pcb slot).terminal = (kernel.pcb slot).terminal ∨
      ((target.pcb slot).terminal = terminal → flag = true))
    (kept : ∀ pid, kernel.processStatus pid = true → (kernel.pcb pid).isTerminal ≠ 0 →
      (kernel.pcb pid).terminal = terminal →
      target.processStatus pid = true ∧ (target.pcb pid).origin = (kernel.pcb pid).origin) :
    Launched target terminal flag := by
  constructor
  · intro slot isOn
    rcases terminals slot with same | launches
    · exact launched.raised slot (same.symm.trans isOn)
    · exact launches isOn
  · intro isRaised
    obtain ⟨pid, isRunning, isRoot, isOn⟩ := launched.root isRaised
    obtain ⟨stillRuns, origin⟩ := kept pid isRunning isRoot isOn
    have sameKind := congrArg Origin.isTerminal origin
    have sameTerminal := congrArg Origin.terminal origin
    exact ⟨pid, stillRuns, fun isChild => isRoot (sameKind.symm.trans isChild),
      sameTerminal.trans isOn⟩

theorem execute (launched : Launched kernel terminal flag) {registers : Registers}
    {tempBuf : Nat → UInt8} {command : Option CString} {terminalNum : Nat} {isTerminal : Int}
    {reply : ExecuteReply}
    (ended : executeWithTerminalNum kernel registers tempBuf command terminalNum isTerminal =
      some (reply, target)) (here : terminalNum = terminal → flag = true) :
    Launched target terminal flag := by
  apply launched.of_kept
  · intro slot
    refine (executeWithTerminalNum_terminal ended slot).imp id fun isNew isOn => ?_
    exact here (isNew.symm.trans isOn)
  · intro pid isRunning _ _
    exact executeWithTerminalNum_keeps ended isRunning

/-- A shell launched on the terminal raises its flag. -/
theorem launch {registers : Registers} {tempBuf : Nat → UInt8} {command : Option CString}
    {pid entry : Nat}
    (ended : executeWithTerminalNum kernel registers tempBuf command terminal 1 =
      some (.started pid entry, target)) : Launched target terminal true := by
  obtain ⟨isRunning, origin⟩ := executeWithTerminalNum_started ended
  constructor
  · exact fun _ _ => rfl
  · intro _
    have isRoot : (target.pcb pid).isTerminal = 1 := congrArg Origin.isTerminal origin
    refine ⟨pid, isRunning, ?_, congrArg Origin.terminal origin⟩
    rw [isRoot]
    decide

theorem halt (launched : Launched kernel terminal flag) (accounted : kernel.Accounted)
    {caller : Nat} {tempBuf : Nat → UInt8} {status : Int} {reply : HaltReply}
    (isUser : kernel.userProcess = some caller)
    (ended : Process.halt kernel tempBuf status = some (reply, target))
    (stays : (kernel.pcb caller).isTerminal ≠ 0 → kernel.totalRunningProcess ≠ 1 →
      (kernel.pcb caller).terminal ≠ terminal) : Launched target terminal flag := by
  have isCurrent := (Kernel.userProcess_eq_some.mp isUser).1
  have moved : Moved kernel target (.halt tempBuf status) (.halted reply) :=
    .halted caller tempBuf status reply isUser ended
  apply launched.of_kept
  · intro slot
    refine .inl ?_
    rcases halt_cases isCurrent ended with
      ⟨-, entry, -, rfl⟩ | ⟨-, -, -, rfl⟩ | ⟨-, -, parent, -, -, rfl⟩
    · rfl
    · rfl
    · by_cases isParent : slot = parent
      · simp [Kernel.returnToParent, Kernel.setPcb, Kernel.onConsole, Kernel.stopProcess, isParent]
      · simp [Kernel.returnToParent, Kernel.setPcb, Kernel.onConsole, Kernel.stopProcess, isParent]
  · intro pid isRunning isRoot isOn
    refine moved.keeps accounted isRunning ?_
    rintro ⟨pidCurrent, ends⟩
    obtain rfl : caller = pid := Option.some.inj (isCurrent.symm.trans pidCurrent)
    rcases halt_cases isCurrent ended with
      ⟨-, entry, rfl, -⟩ | ⟨notLast, -, -, -⟩ | ⟨-, isChild, -⟩
    · cases ends
    · exact stays isRoot notLast isOn
    · exact isRoot isChild

theorem clear (launched : Launched kernel terminal flag) :
    Launched kernel.clearScreen terminal flag := by
  constructor
  · rw [kernel.clearScreen_pcb]
    exact launched.raised
  · rw [kernel.clearScreen_pcb, kernel.clearScreen_processStatus]
    exact launched.root

theorem tick (launched : Launched kernel terminal flag) (accounted : kernel.Accounted)
    {registers : Registers} {reply : Option Registers}
    (ended : pitHandler kernel registers = some (reply, target)) :
    Launched target terminal flag := by
  have moved : Moved kernel target (.tick registers) (.ticked reply) :=
    .ticked registers reply ended
  apply launched.of_kept
  · intro slot
    refine .inl ?_
    rcases pitHandler_cases ended with ⟨-, rfl⟩ | ⟨previous, pid, -, -, -, -, rfl, -⟩
    · rfl
    · exact congrArg (fun table : ProcessTable => (table.links slot).terminal)
        (kernel.switchProcess_table previous pid registers)
  · intro pid isRunning _ _
    exact moved.keeps accounted isRunning fun ends => nomatch ends.2

end Launched

/-- What holds along the runs that keep the shells. -/
structure ShellsLive (kernel : Kernel) : Prop where
  accounted : kernel.Accounted
  second : Launched kernel 1 kernel.terminals.keyboard.terminal2Running
  third : Launched kernel 2 kernel.terminals.keyboard.terminal3Running

/-- An execution leaves the driver alone. -/
theorem executeWithTerminalNum_keyboard {kernel target : Kernel} {registers : Registers}
    {tempBuf : Nat → UInt8} {command : Option CString} {terminalNum : Nat} {isTerminal : Int}
    {reply : ExecuteReply}
    (ended : executeWithTerminalNum kernel registers tempBuf command terminalNum isTerminal =
      some (reply, target)) : target.terminals.keyboard = kernel.terminals.keyboard := by
  rcases executeWithTerminalNum_cases ended with
    ⟨-, fname, rfl⟩ | ⟨text, pid, -, -, ⟨-, -, -, rfl⟩ | ⟨entry, -, rfl⟩⟩
  · rfl
  · rfl
  · rw [Kernel.startProcess_eq]
    rfl

namespace ShellsLive

variable {kernel target : Kernel}

theorem execute (live : ShellsLive kernel) (accounted : target.Accounted) {registers : Registers}
    {tempBuf : Nat → UInt8} {command : Option CString} {terminalNum : Nat} {isTerminal : Int}
    {reply : ExecuteReply}
    (ended : executeWithTerminalNum kernel registers tempBuf command terminalNum isTerminal =
      some (reply, target))
    (second : terminalNum = 1 → kernel.terminals.keyboard.terminal2Running = true)
    (third : terminalNum = 2 → kernel.terminals.keyboard.terminal3Running = true) :
    ShellsLive target := by
  have keyboard := executeWithTerminalNum_keyboard ended
  constructor
  · exact accounted
  · rw [keyboard]
    exact live.second.execute ended second
  · rw [keyboard]
    exact live.third.execute ended third

theorem key (live : ShellsLive kernel) (accounted : target.Accounted) {registers : Registers}
    {tempBuf : Nat → UInt8} {c : UInt8} {reply : Option ExecuteReply}
    (ended : keyboardInterrupt kernel registers tempBuf c = some (reply, target))
    (loads : launchOf kernel.getEmptyPid.isSome kernel.terminals.keyboard c.toNat ≠ none →
      ShellLoads kernel.fs tempBuf) : ShellsLive target := by
  have flags := scancodeProcessing_launch consoleOps kernel.getEmptyPid.isSome
    kernel.terminals.console kernel.terminals.keyboard c
  have launch := scancodeProcessing_launch_eq consoleOps kernel.getEmptyPid.isSome
    kernel.terminals.console kernel.terminals.keyboard c
  obtain ⟨result, resultEq, outcome⟩ := keyboardInterrupt_cases ended
  rw [← resultEq] at flags launch
  rcases outcome with ⟨launchEq, -, rfl⟩ | ⟨terminalId, started, launchEq, rfl, executed⟩
  · rw [launchEq] at flags
    cases flags with
    | same second third =>
        constructor
        · exact accounted
        · rw [second]
          exact ⟨live.second.raised, live.second.root⟩
        · rw [third]
          exact ⟨live.third.raised, live.third.root⟩
  · rw [launchEq] at flags launch
    have asked : launchOf kernel.getEmptyPid.isSome kernel.terminals.keyboard c.toNat ≠ none := by
      rw [← launch]
      exact Option.some_ne_none terminalId
    obtain ⟨pid, entry, other, starts, -⟩ :=
      keyboardInterrupt_starts (loads asked) launch.symm registers
    rw [starts] at ended
    cases ended
    have keyboard := executeWithTerminalNum_keyboard executed
    have secondBefore : Launched { kernel with
        terminals := { console := result.screen, keyboard := result.keyboard } } 1
        kernel.terminals.keyboard.terminal2Running := ⟨live.second.raised, live.second.root⟩
    have thirdBefore : Launched { kernel with
        terminals := { console := result.screen, keyboard := result.keyboard } } 2
        kernel.terminals.keyboard.terminal3Running := ⟨live.third.raised, live.third.root⟩
    cases flags with
    | second wasFree raised third =>
        constructor
        · exact accounted
        · rw [keyboard, raised]
          exact Launched.launch executed
        · rw [keyboard, third]
          exact thirdBefore.execute executed fun other => absurd other (by decide)
    | third wasFree raised second =>
        constructor
        · exact accounted
        · rw [keyboard, second]
          exact secondBefore.execute executed fun other => absurd other (by decide)
        · rw [keyboard, raised]
          exact Launched.launch executed

theorem step (live : ShellsLive kernel) {event : ProcessEvent} {reply : ProcessReply}
    (keeps : KeepsShells kernel event reply)
    (stepped : processStep kernel event = some (reply, target)) : ShellsLive target := by
  have moved := processStep_moved stepped
  have accounted := live.accounted.step moved
  cases moved with
  | launched registers tempBuf outcome noCurrent executed =>
      exact live.execute accounted executed (fun other => absurd other (by decide))
        fun other => absurd other (by decide)
  | executed caller registers tempBuf command outcome isUser executed =>
      exact live.execute accounted executed (live.second.raised caller) (live.third.raised caller)
  | halted caller tempBuf status outcome isUser ended =>
      have keyboard : target.terminals.keyboard = kernel.terminals.keyboard := by
        rcases halt_cases (Kernel.userProcess_eq_some.mp isUser).1 ended with
          ⟨-, entry, -, rfl⟩ | ⟨-, -, -, rfl⟩ | ⟨-, -, parent, -, -, rfl⟩
        · rfl
        · rfl
        · rfl
      constructor
      · exact accounted
      · rw [keyboard]
        exact live.second.halt live.accounted isUser ended fun isRoot notLast =>
          (keeps caller isUser isRoot notLast).1
      · rw [keyboard]
        exact live.third.halt live.accounted isUser ended fun isRoot notLast =>
          (keeps caller isUser isRoot notLast).2
  | cleared isClearing targetEq =>
      rw [targetEq] at accounted ⊢
      constructor
      · exact accounted
      · rw [kernel.clearScreen_keyboard]
        exact live.second.clear
      · rw [kernel.clearScreen_keyboard]
        exact live.third.clear
  | keyed registers tempBuf c outcome ended => exact live.key accounted ended keeps
  | ticked registers loaded ended =>
      have keyboard : target.terminals.keyboard = kernel.terminals.keyboard := by
        rcases pitHandler_cases ended with ⟨-, rfl⟩ | ⟨previous, pid, -, -, -, -, rfl, -⟩
        · rfl
        · rfl
      constructor
      · exact accounted
      · rw [keyboard]
        exact live.second.tick live.accounted ended
      · rw [keyboard]
        exact live.third.tick live.accounted ended

theorem flagsTrack (live : ShellsLive kernel) : FlagsTrack kernel := by
  constructor
  · constructor
    · intro raised
      obtain ⟨pid, isRunning, -, isOn⟩ := live.second.root raised
      exact ⟨pid, isRunning, isOn⟩
    · rintro ⟨pid, -, isOn⟩
      exact live.second.raised pid isOn
  · constructor
    · intro raised
      obtain ⟨pid, isRunning, -, isOn⟩ := live.third.root raised
      exact ⟨pid, isRunning, isOn⟩
    · rintro ⟨pid, -, isOn⟩
      exact live.third.raised pid isOn

end ShellsLive

/-- Flags that track the shells let every key start the one it asks for. -/
theorem FlagsTrack.keyStartsShell {kernel : Kernel} (track : FlagsTrack kernel) :
    KeyStartsShell kernel := by
  intro registers tempBuf c terminal shown which empty free loads
  have asked : launchOf kernel.getEmptyPid.isSome kernel.terminals.keyboard c.toNat =
      some terminal := by
    have isFree : kernel.getEmptyPid.isSome = true := Option.isSome_iff_ne_none.mpr free
    rcases which with rfl | rfl
    · have lowered : kernel.terminals.keyboard.terminal2Running = false := by
        by_contra raised
        obtain ⟨pid, isRunning, isOn⟩ := track.second.mp (by simpa using raised)
        exact empty pid isRunning isOn
      simp [launchOf, shown, lowered, isFree]
    · have lowered : kernel.terminals.keyboard.terminal3Running = false := by
        by_contra raised
        obtain ⟨pid, isRunning, isOn⟩ := track.third.mp (by simpa using raised)
        exact empty pid isRunning isOn
      simp [launchOf, shown, lowered, isFree]
  obtain ⟨pid, entry, target, started, isRunning, isOn⟩ :=
    keyboardInterrupt_starts loads asked registers
  refine ⟨pid, entry, target, ?_, isRunning, isOn⟩
  rw [processStep, started]
  rfl

/-- Along every run whose steps keep the shells, on any image, the launch flags
say which terminals have a process, and keys start the missing shells. -/
theorem reachable_flagsTrack {fs : Volume} {paging : PageTables} {memory : Memory}
    {printBuffer argBuf fname : Nat → UInt8} {currentDirReadIndex : Int}
    {trace : List (ProcessEvent × ProcessReply)} {final : Kernel}
    (run : GuardedRun processStep KeepsShells
      (Kernel.boot fs paging memory printBuffer argBuf fname currentDirReadIndex) trace final) :
    FlagsTrack final ∧ KeyStartsShell final := by
  have booted : ShellsLive
      (Kernel.boot fs paging memory printBuffer argBuf fname currentDirReadIndex) := by
    constructor
    · exact Kernel.Accounted.boot ..
    · exact ⟨fun _ isOn => (nomatch isOn), fun raised => (nomatch raised)⟩
    · exact ⟨fun _ isOn => (nomatch isOn), fun raised => (nomatch raised)⟩
  have live : ShellsLive final := by
    apply run.invariant (P := ShellsLive) _ booted
    intro kernel event reply target live keeps stepped
    exact live.step keeps stepped
  exact ⟨live.flagsTrack, live.flagsTrack.keyStartsShell⟩

/-- With the shell of the second terminal started, its flag tells. -/
theorem reachable_flagsTrack_second : ∃ final, FlagsTrack final ∧
    final.terminals.keyboard.terminal2Running = true ∧ final.processStatus 1 = true := by
  obtain ⟨first, second, alt, sameFs, f2, raised, isRunning⟩ : ∃ first second,
      processStep shellKernel (.key { esp := 0, ebp := 0 } (fun _ => 0) 0x38) =
        some (.keyed none, first) ∧ first.fs = shellKernel.fs ∧
      processStep first (.key { esp := 0, ebp := 0 } (fun _ => 0) 0x3C) =
        some (.keyed (some (.started 1 0)), second) ∧
      second.terminals.keyboard.terminal2Running = true ∧ second.processStatus 1 = true :=
    ⟨_, _, rfl, rfl, rfl, rfl, rfl⟩
  have loads : ShellLoads first.fs fun _ => 0 := by
    rw [sameFs]
    exact ⟨by decide +kernel, by decide +kernel, by decide +kernel⟩
  have altKeeps : KeepsShells shellKernel (.key { esp := 0, ebp := 0 } (fun _ => 0) 0x38)
      (.keyed none) := fun asked => absurd rfl asked
  have f2Keeps : KeepsShells first (.key { esp := 0, ebp := 0 } (fun _ => 0) 0x3C)
      (.keyed (some (.started 1 0))) := fun _ => loads
  have run : GuardedRun processStep KeepsShells shellKernel [_, _] second :=
    .cons altKeeps alt (.cons f2Keeps f2 (.nil second))
  exact ⟨second, (reachable_flagsTrack run).1, raised, isRunning⟩

/-- Alt and F2 on an image without a shell raise the flag of a terminal without
a process. -/
theorem missingShell_not_tracked :
    ¬ ∀ (trace : List (ProcessEvent × ProcessReply)) (final : Kernel),
      Run processStep danglingKernel trace final → FlagsTrack final := by
  intro tracked
  obtain ⟨first, second, alt, f2, raised, nobody⟩ : ∃ first second,
      processStep danglingKernel (.key { esp := 0, ebp := 0 } (fun _ => 0) 0x38) =
        some (.keyed none, first) ∧
      processStep first (.key { esp := 0, ebp := 0 } (fun _ => 0) 0x3C) =
        some (.keyed (some .failed), second) ∧
      second.terminals.keyboard.terminal2Running = true ∧
      second.processStatus = fun _ => false :=
    ⟨_, _, rfl, rfl, rfl, rfl⟩
  have track := tracked _ second (.cons trivial alt (.cons trivial f2 (.nil second)))
  obtain ⟨pid, isRunning, -⟩ := track.second.mp raised
  rw [nobody] at isRunning
  contradiction

end PonyOS.Process
