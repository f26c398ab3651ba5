import PonyOS.Process.Shells
import PonyOS.Syscall.Buffers
import PonyOS.Syscall.Frame

/-!
# A halting root and the terminals

When a root leaves, `halt` clears a screen with a routine that was written for
the keyboard.  The routine blanks the displayed terminal, whichever terminal
the process was on, and leaves the line that is typed there alone.  Interrupts
are on by then: keys may have been typed, another terminal may be displayed,
and if a tick has switched to another process the screen is never cleared.

The first sections carry the relation between cursors and typed lines through
every event of the system.  The last compares what a halting root does to the
terminals with what it may do.
-/

namespace PonyOS.Syscall

open PonyOS.FileSystem
open PonyOS.Lib.Loop
open PonyOS.Lib.Transition
open PonyOS.Lib.Word
open PonyOS.Paging
open PonyOS.Process
open PonyOS.Terminal

/-! ## Process events -/

/-- Between two events every process is on a terminal, and every typed line is
behind the cursor of its terminal. -/
structure Attached (kernel : Kernel) : Prop where
  accounted : kernel.Accounted
  terminal : ∀ slot, (kernel.pcb slot).terminal < 3
  driven : Driven kernel.terminals.console kernel.terminals.keyboard

/-- A halted root that clears the screen finds nothing typed there. -/
def ClearsUntyped (kernel : Kernel) : SystemEvent → Prop
  | .process .clear =>
      kernel.terminals.keyboard.cursorInd kernel.terminals.console.displayTerminal = 0
  | _ => True

/-- The guard of runs whose halted roots find nothing typed. -/
def clearsUntyped (kernel : Kernel) (event : SystemEvent) (_reply : SystemReply) : Prop :=
  ClearsUntyped kernel event ∧ BufferInUserMemory kernel event

/-- The guard of what happens between the `sti` of a halting root and its `clear`. -/
def stillClearing (kernel : Kernel) (event : SystemEvent) (_reply : SystemReply) : Prop :=
  kernel.clearing = true ∧ BufferInUserMemory kernel event

namespace Attached

variable {kernel target : Kernel}

theorem boot (fs : Volume) (paging : PageTables) (memory : Memory)
    (printBuffer argBuf fname : Nat → UInt8) (currentDirReadIndex : Int) :
    Attached (Kernel.boot fs paging memory printBuffer argBuf fname currentDirReadIndex) := by
  constructor
  · exact Kernel.Accounted.boot ..
  · intro slot
    exact Nat.zero_lt_succ 2
  · exact Console.boot_driven paging memory printBuffer

/-- An execution remaps the pages of an existing terminal. -/
theorem execute (attached : Attached kernel) {registers : Registers} {tempBuf : Nat → UInt8}
    {command : Option CString} {terminalNum : Nat} {isTerminal : Int} {reply : ExecuteReply}
    (ended : executeWithTerminalNum kernel registers tempBuf command terminalNum isTerminal =
      some (reply, target)) (terminalLt : terminalNum < 3) : Attached target := by
  constructor
  · exact attached.accounted.execute ended
  · intro slot
    rcases executeWithTerminalNum_terminal ended slot with same | isNew
    · rw [same]
      exact attached.terminal slot
    · rw [isNew]
      exact terminalLt
  · have claimed : ∀ pid, Driven
        ((kernel.terminals.console.setupTaskPage pid).setActiveTerminal terminalNum)
        kernel.terminals.keyboard :=
      fun pid => (attached.driven.setupTaskPage pid).setActiveTerminal terminalLt
    rcases executeWithTerminalNum_cases ended with
      ⟨-, fname, rfl⟩ | ⟨text, pid, -, -, ⟨-, -, -, rfl⟩ | ⟨entry, -, rfl⟩⟩
    · exact attached.driven
    · exact claimed pid
    · rw [Kernel.startProcess_eq]
      exact claimed pid

/-- A halt maps the page of the parent, if anything. -/
theorem halt (attached : Attached kernel) {caller : Nat} {tempBuf : Nat → UInt8} {status : Int}
    {reply : HaltReply} (isUser : kernel.userProcess = some caller)
    (ended : Process.halt kernel tempBuf status = some (reply, target)) : Attached target := by
  have accounted := attached.accounted.step (.halted caller tempBuf status reply isUser ended)
  rcases halt_cases (Kernel.userProcess_eq_some.mp isUser).1 ended with
    ⟨-, entry, -, rfl⟩ | ⟨-, -, -, rfl⟩ | ⟨-, -, parent, -, -, rfl⟩
  · exact ⟨accounted, attached.terminal, attached.driven⟩
  · exact ⟨accounted, attached.terminal, attached.driven⟩
  · constructor
    · exact accounted
    · intro slot
      have kept : (((kernel.stopProcess (kernel.pcb caller).pid).returnToParent parent).pcb
          slot).terminal = (kernel.pcb slot).terminal := by
        apply setPcb_view Pcb.terminal ((kernel.stopProcess _).onConsole _)
        rfl
      rw [kept]
      exact attached.terminal slot
    · exact attached.driven.setupTaskPage _

theorem clear (attached : Attached kernel)
    (untyped : kernel.terminals.keyboard.cursorInd kernel.terminals.console.displayTerminal = 0) :
    Attached kernel.clearScreen := by
  constructor
  · rw [Kernel.Accounted, kernel.clearScreen_table]
    exact attached.accounted
  · rw [kernel.clearScreen_pcb]
    exact attached.terminal
  · have cleared := (clear_simulates attached.driven).driven
    apply cleared.congr
    have typed : kernel.terminals.keyboard.cursorInd
        (consoleOps.displayTerminal kernel.terminals.console) = 0 := untyped
    rw [Keyboard.clearLine, ← typed, Function.update_eq_self]
    rfl

theorem key (attached : Attached kernel) {registers : Registers} {tempBuf : Nat → UInt8}
    {c : UInt8} {reply : Option ExecuteReply}
    (ended : keyboardInterrupt kernel registers tempBuf c = some (reply, target)) :
    Attached target := by
  have simulated := scancodeProcessing_simulates attached.driven kernel.getEmptyPid.isSome c
  have flags := scancodeProcessing_launch consoleOps kernel.getEmptyPid.isSome
    kernel.terminals.console kernel.terminals.keyboard c
  obtain ⟨result, resultEq, outcome⟩ := keyboardInterrupt_cases ended
  rw [← resultEq] at simulated flags
  have handled : Attached { kernel with
      terminals := { console := result.screen, keyboard := result.keyboard } } := by
    refine ⟨?_, attached.terminal, simulated.driven⟩
    exact ⟨attached.accounted.range, attached.accounted.count, attached.accounted.running,
      attached.accounted.current, attached.accounted.parent⟩
  rcases outcome with ⟨-, -, rfl⟩ | ⟨terminalId, started, launchEq, -, executed⟩
  · exact handled
  · apply handled.execute executed
    rw [launchEq] at flags
    cases flags with
    | second => decide
    | third => decide

/-- A tick remaps the pages of the process it switches to. -/
theorem tick (attached : Attached kernel) {registers : Registers} {reply : Option Registers}
    (ended : pitHandler kernel registers = some (reply, target)) : Attached target := by
  have accounted := attached.accounted.step (.ticked registers reply ended)
  rcases pitHandler_cases ended with ⟨-, rfl⟩ | ⟨previous, pid, -, -, -, -, rfl, -⟩
  · exact attached
  · constructor
    · exact accounted
    · intro slot
      have kept : ((kernel.switchProcess previous pid registers).pcb slot).terminal =
          (kernel.pcb slot).terminal :=
        switchProcess_view Pcb.terminal (fun _ _ _ => rfl) kernel previous pid registers slot
      rw [kept]
      exact attached.terminal slot
    · exact (attached.driven.setupTaskPage pid).setActiveTerminal (attached.terminal pid)

theorem of_table (attached : Attached kernel) (table : target.table = kernel.table)
    (driven : Driven target.terminals.console target.terminals.keyboard) : Attached target := by
  constructor
  · rw [Kernel.Accounted, table]
    exact attached.accounted
  · intro slot
    have links : (target.pcb slot).terminal = (kernel.pcb slot).terminal :=
      congrArg (fun table => (table.links slot).terminal) table
    rw [links]
    exact attached.terminal slot
  · exact driven

end Attached

/-! ## Calls -/

namespace Attached

variable {kernel target : Kernel}

theorem attempt (attached : Attached kernel) {pid : Nat} {memory : Memory} {call : Call}
    {tried : Attempt} (attempted : Syscall.attempt kernel pid memory call = some tried) :
    Attached tried.kernel := by
  obtain ⟨same, after⟩ := attempt_terminals attempted
  apply attached.of_table same.table
  generalize tried.kernel.terminals = terminals at after
  cases after with
  | same => exact attached.driven
  | read => exact attached.driven.congr rfl
  | write s printBuffer len =>
      have written := (putsScroll_driven attached.driven s len).1
      exact written.congr rfl

/-- A store into the window draws on the active terminal; a store into a
descriptor shows in neither table nor terminals. -/
theorem userStore (attached : Attached kernel) {store : Store}
    (stored : Syscall.userStore kernel store = some target) : Attached target := by
  unfold Syscall.userStore at stored
  split at stored
  · cases stored
    exact attached
  · split at stored
    · next inWindow =>
        cases stored
        have offsetLt : store.address - videoUser < 4096 := by
          have upper := inWindow.2
          omega
        have drawn := (vidmapStore_simulates attached.driven ⟨_, offsetLt⟩ store.byte).1
        exact attached.of_table rfl drawn
    · split at stored
      · contradiction
      · obtain ⟨desc, -, rfl⟩ := Option.map_eq_some_iff.mp stored
        exact attached.of_table (KeepsProcesses.setDescriptor kernel _ _ desc).table attached.driven

theorem userStores (attached : Attached kernel) {stores : List Store}
    (stored : Syscall.userStores kernel stores = some target) : Attached target := by
  induction stores generalizing kernel with
  | nil =>
      cases stored
      exact attached
  | cons store rest ih =>
      obtain ⟨middle, first, later⟩ := Option.bind_eq_some_iff.mp stored
      exact ih (attached.userStore first) later

theorem call (attached : Attached kernel) {pid : Nat} {memory : Memory} {call : Call}
    {reply : CallReply} (called : systemCall kernel pid memory call = some (reply, target)) :
    Attached target := by
  obtain ⟨tried, stored, attempted, storedEq, -, rfl⟩ := systemCall_eq_some called
  have after := (attached.attempt attempted).userStores storedEq
  apply after.of_table (KeepsProcesses.finish stored pid call tried).table
  have terminals : (finish stored pid call tried).terminals = stored.terminals := by
    unfold finish
    split
    · unfold advance
      split
      · rfl
      · rfl
    · rfl
  rw [terminals]
  exact after.driven

theorem step (attached : Attached kernel) {event : SystemEvent} {reply : SystemReply}
    (untyped : ClearsUntyped kernel event)
    (stepped : systemStep kernel event = some (reply, target)) : Attached target := by
  cases systemStep_cases stepped with
  | process event answer moved =>
      cases processStep_moved moved with
      | launched registers tempBuf outcome noCurrent executed =>
          exact attached.execute executed (by decide)
      | executed caller registers tempBuf command outcome isUser executed =>
          exact attached.execute executed (attached.terminal caller)
      | halted caller tempBuf status outcome isUser ended =>
          exact attached.halt isUser ended
      | cleared isClearing targetEq =>
          rw [targetEq]
          exact attached.clear untyped
      | keyed registers tempBuf c outcome ended => exact attached.key ended
      | ticked registers loaded ended => exact attached.tick ended
  | call pid memory asked answer isUser called => exact attached.call called
  | rtc targetEq =>
      subst targetEq
      exact attached.of_table rfl attached.driven

end Attached

/-! ## The halting root -/

/-- What a process that halts on a terminal may do to the terminals: the others
keep their screens, cursors and typed lines, and every typed line is behind the
cursor of its terminal. -/
structure AffectsOnly (terminalId : Nat) (before after : Terminals) : Prop where
  screen : ∀ t : Fin 3, t.val ≠ terminalId →
    after.console.logicalScreen t = before.console.logicalScreen t
  line : ∀ t : Fin 3, t.val ≠ terminalId →
    after.keyboard.cursorInd t = before.keyboard.cursorInd t ∧
      after.keyboard.keyboardBuffer t = before.keyboard.keyboardBuffer t
  behind : ∀ t : Fin 3, (after.keyboard.cursorInd t : Int) ≤
    (after.console.logicalScreen t).position

/-- The displayed terminal is the given one, or blank with its cursor at home;
and nothing is typed on it. -/
def ShownIdle (terminalId : Nat) (terminals : Terminals) : Prop :=
  let shown := terminals.console.displayTerminal
  (shown = terminalId ∨
      (terminals.console.logicalScreen shown).erase = terminals.console.logicalScreen shown) ∧
    terminals.keyboard.cursorInd shown = 0

/-- Clearing the displayed terminal stays on one terminal exactly in the idle
case. -/
theorem clear_affectsOnly_iff {terminals : Terminals}
    (driven : Driven terminals.console terminals.keyboard) (terminalId : Nat) :
    AffectsOnly terminalId terminals { terminals with console := terminals.console.clear } ↔
      ShownIdle terminalId terminals := by
  have displayLt := driven.coherent.display_lt
  have cleared := driven.coherent.clear_eq
  generalize terminals.console.clear = console at cleared
  have own : console.logicalScreen terminals.console.displayTerminal =
      (terminals.console.logicalScreen terminals.console.displayTerminal).erase := by
    rw [cleared, Console.paint_logicalScreen_self]
  have others : ∀ t : Fin 3, t.val ≠ terminals.console.displayTerminal →
      console.logicalScreen t = terminals.console.logicalScreen t := by
    intro t hidden
    rw [cleared, Console.paint_logicalScreen_of_ne _ _ displayLt t.isLt hidden]
  constructor
  · rintro ⟨screen, -, behind⟩
    constructor
    · by_cases isOwn : terminals.console.displayTerminal = terminalId
      · exact .inl isOwn
      · exact .inr (own.symm.trans (screen ⟨_, displayLt⟩ isOwn))
    · have shownBehind := behind ⟨_, displayLt⟩
      simp only [own] at shownBehind
      simp only [Screen.erase, Screen.position] at shownBehind
      omega
  · rintro ⟨ownOrBlank, untyped⟩
    constructor
    · intro t other
      by_cases shown : t.val = terminals.console.displayTerminal
      · rcases ownOrBlank with isOwn | blank
        · exact absurd (shown.trans isOwn) other
        · simp only [shown]
          exact own.trans blank
      · exact others t shown
    · exact fun t _ => ⟨rfl, rfl⟩
    · intro t
      by_cases shown : t.val = terminals.console.displayTerminal
      · simp only [shown, own, untyped]
        simp [Screen.erase, Screen.position]
      · simp only [others t shown]
        exact (driven.behind t).1

/-- A root that halts while another process runs leaves the terminals alone until
it clears the screen. -/
theorem Attached.rootHalts {kernel : Kernel} (attached : Attached kernel) {pid other : Nat}
    (isUser : kernel.userProcess = some pid) (isRoot : (kernel.pcb pid).isTerminal = 1)
    (otherRuns : kernel.processStatus other = true) (distinct : other ≠ pid)
    (tempBuf : Nat → UInt8) (status : Int) :
    ∃ stopped, systemStep kernel (.process (.halt tempBuf status)) =
        some (.process (some pid) (.halted .spinning), stopped) ∧
      stopped.terminals = kernel.terminals ∧ stopped.clearing = true := by
  obtain ⟨isCurrent, isRunning⟩ := Kernel.userProcess_eq_some.mp isUser
  have several : 2 ≤ ProcessTable.runningCount kernel.processStatus :=
    ProcessTable.two_le_runningCount (attached.accounted.range other otherRuns).2
      (attached.accounted.range pid isRunning).2 distinct otherRuns isRunning
  have counted : kernel.totalRunningProcess =
      (ProcessTable.runningCount kernel.processStatus : Nat) := attached.accounted.count
  have notLast : kernel.totalRunningProcess ≠ 1 := by omega
  have notChild : (kernel.pcb pid).isTerminal ≠ 0 := by
    rw [isRoot]
    decide
  refine ⟨kernel.stopRoot (kernel.pcb pid).pid, ?_, rfl, rfl⟩
  simp only [systemStep, processStep, isUser, Process.halt, isCurrent, if_neg notLast,
    if_pos notChild, Option.map_some]

theorem Attached.of_run {fs : Volume} {paging : PageTables} {screen : Memory}
    {printBuffer argBuf fname : Nat → UInt8} {currentDirReadIndex : Int}
    {trace : List (SystemEvent × SystemReply)} {kernel : Kernel}
    (run : GuardedRun systemStep clearsUntyped
      (Kernel.boot fs paging screen printBuffer argBuf fname currentDirReadIndex) trace kernel) :
    Attached kernel := by
  apply run.invariant (P := Attached) _ (Attached.boot ..)
  intro state event reply target attached guarded stepped
  exact attached.step guarded.1 stepped

/-- As long as the root has not cleared the screen, nothing has. -/
theorem Attached.whileClearing {stopped middle : Kernel}
    {between : List (SystemEvent × SystemReply)} (attached : Attached stopped)
    (waits : GuardedRun systemStep stillClearing stopped between middle)
    (isClearing : middle.clearing = true) : Attached middle := by
  apply waits.invariant (P := fun state => state.clearing = true → Attached state) _
    (fun _ => attached) isClearing
  intro state event reply target before guarded stepped clearsLater
  apply (before guarded.1).step _ stepped
  cases event with
  | process event =>
      cases event with
      | clear =>
          simp only [systemStep, processStep, guarded.1, if_true, Option.map_some,
            Option.some.injEq, Prod.mk.injEq] at stepped
          rw [← stepped.2] at clearsLater
          contradiction
      | _ => trivial
  | _ => trivial

theorem clearing_step {kernel : Kernel} (isClearing : kernel.clearing = true) :
    ∃ target, systemStep kernel (.process .clear) =
        some (.process kernel.userProcess .cleared, target) ∧
      target.terminals =
        { kernel.terminals with console := kernel.terminals.console.clear } := by
  refine ⟨kernel.clearScreen, ?_, rfl⟩
  simp only [systemStep, processStep, isClearing, if_true, Option.map_some]

/-- In every run whose halted roots find nothing typed where they clear, a
halting root leaves the terminals alone until its `clear`, whatever interrupts
come before that; and its `clear` affects its own terminal only exactly if that
terminal is displayed then, or the displayed one is blank already, and nothing
is typed. -/
theorem rootHalt_affectsOnly_iff {fs : Volume} {paging : PageTables} {screen : Memory}
    {printBuffer argBuf fname : Nat → UInt8} {currentDirReadIndex : Int}
    {trace : List (SystemEvent × SystemReply)} {kernel : Kernel} {pid other : Nat}
    (run : GuardedRun systemStep clearsUntyped
      (Kernel.boot fs paging screen printBuffer argBuf fname currentDirReadIndex) trace kernel)
    (isUser : kernel.userProcess = some pid) (isRoot : (kernel.pcb pid).isTerminal = 1)
    (otherRuns : kernel.processStatus other = true) (distinct : other ≠ pid)
    (tempBuf : Nat → UInt8) (status : Int) :
    ∃ stopped, systemStep kernel (.process (.halt tempBuf status)) =
        some (.process (some pid) (.halted .spinning), stopped) ∧
      stopped.terminals = kernel.terminals ∧ stopped.clearing = true ∧
      ∀ between middle, GuardedRun systemStep stillClearing stopped between middle →
        middle.clearing = true →
        ∃ target, systemStep middle (.process .clear) =
            some (.process middle.userProcess .cleared, target) ∧
          (AffectsOnly (kernel.pcb pid).terminal middle.terminals target.terminals ↔
            ShownIdle (kernel.pcb pid).terminal middle.terminals) := by
  have attached := Attached.of_run run
  obtain ⟨stopped, halted, terminals, isClearing⟩ :=
    attached.rootHalts isUser isRoot otherRuns distinct tempBuf status
  refine ⟨stopped, halted, terminals, isClearing, ?_⟩
  intro between middle waits clearsNow
  have stoppedAttached : Attached stopped := attached.step (by trivial) halted
  obtain ⟨target, cleared, after⟩ := clearing_step clearsNow
  refine ⟨target, cleared, ?_⟩
  rw [after]
  exact clear_affectsOnly_iff (stoppedAttached.whileClearing waits clearsNow).driven _

/-- A key event; the registers it would save are zero. -/
def keyEvent (c : UInt8) : SystemEvent :=
  .process (.key { esp := 0, ebp := 0 } (fun _ => 0) c)

/-- No key clears the screen of a halted root, or calls anything. -/
theorem clearsUntyped_key (kernel : Kernel) (c : UInt8) (reply : SystemReply) :
    clearsUntyped kernel (keyEvent c) reply :=
  ⟨by trivial, by trivial⟩

/-- The root shell starts, and Alt and F2 start the shell of the second
terminal. -/
theorem shellKernel_second : ∃ first second third,
    systemStep shellKernel (.process (.bootLaunch { esp := 0, ebp := 0 } fun _ => 0)) =
      some (.process none (.launched (.started 1 0)), first) ∧
    systemStep first (keyEvent 0x38) = some (.process (some 1) (.keyed none), second) ∧
    systemStep second (keyEvent 0x3C) =
      some (.process (some 1) (.keyed (some (.started 2 0))), third) ∧
    third.userProcess = some 2 ∧ third.processStatus 1 = true ∧
    (third.pcb 2).isTerminal = 1 ∧ (third.pcb 2).terminal = 1 ∧
    third.terminals.console.displayTerminal = 1 ∧ third.terminals.keyboard.cursorInd 1 = 0 :=
  ⟨_, _, _, rfl, rfl, rfl, rfl, rfl, rfl, rfl, rfl, rfl⟩

/-- It may halt while its own terminal is shown and nothing is typed there. -/
theorem rootHalt_affectsOnly_iff_second : ∃ kernel stopped target, kernel.userProcess = some 2 ∧
    systemStep kernel (.process (.halt (fun _ => 0) 0)) =
      some (.process (some 2) (.halted .spinning), stopped) ∧
    systemStep stopped (.process .clear) =
      some (.process stopped.userProcess .cleared, target) ∧
    AffectsOnly 1 kernel.terminals target.terminals := by
  obtain ⟨first, second, third, launch, alt, f2, isUser, rootRuns, isRoot, isOn, shown, untyped⟩ :=
    shellKernel_second
  have run : GuardedRun systemStep clearsUntyped shellKernel [_, _, _] third :=
    .cons ⟨by trivial, by trivial⟩ launch (.cons (clearsUntyped_key ..) alt
      (.cons (clearsUntyped_key ..) f2 (.nil third)))
  obtain ⟨stopped, halted, terminals, isClearing, clears⟩ :=
    rootHalt_affectsOnly_iff run isUser isRoot rootRuns (by decide) (fun _ => 0) 0
  obtain ⟨target, cleared, exact⟩ := clears [] stopped (.nil stopped) isClearing
  rw [isOn, terminals] at exact
  refine ⟨third, stopped, target, isUser, halted, cleared, exact.mpr ⟨.inl shown, ?_⟩⟩
  rw [shown]
  exact untyped

theorem releaseAlt_step (kernel : Kernel) : ∃ target,
    systemStep kernel (keyEvent 0xB8) = some (.process kernel.userProcess (.keyed none), target) ∧
    target.table = kernel.table ∧ target.terminals.console = kernel.terminals.console ∧
    target.terminals.keyboard.cursorInd = kernel.terminals.keyboard.cursorInd ∧
    target.terminals.keyboard.pressedKey scancodeLeftAlt = false :=
  ⟨{ kernel with terminals := { kernel.terminals with
      keyboard := releaseKey kernel.terminals.keyboard 0xB8 } }, rfl, rfl, rfl, rfl, rfl⟩

theorem typeA_step (kernel : Kernel)
    (noAlt : kernel.terminals.keyboard.pressedKey scancodeLeftAlt = false)
    (room : kernel.terminals.keyboard.cursorInd kernel.terminals.console.displayTerminal < 128) :
    ∃ target, systemStep kernel (keyEvent 0x1E) =
        some (.process kernel.userProcess (.keyed none), target) ∧
      target.table = kernel.table ∧
      target.terminals.keyboard.cursorInd target.terminals.console.displayTerminal =
        kernel.terminals.keyboard.cursorInd kernel.terminals.console.displayTerminal + 1 := by
  generalize pressedEq : pressKey kernel.terminals.keyboard 0x1E = pressed
  have sameLine : pressed.cursorInd = kernel.terminals.keyboard.cursorInd := by
    rw [← pressedEq]
    rfl
  have typed : makeBreak consoleOps kernel.getEmptyPid.isSome kernel.terminals.console
      kernel.terminals.keyboard (UInt8.toNat 0x1E) =
      { screen := kernel.terminals.console.putcScrollDisplay (pressed.characterConvert 0x1E)
        keyboard := pressed.appendChar kernel.terminals.console.displayTerminal
          (pressed.characterConvert 0x1E)
        launch := none } := by
    unfold makeBreak
    rw [if_neg (by decide)]
    simp only
    rw [if_neg, if_neg, if_pos, ← pressedEq]
    · rfl
    · exact ⟨by decide, room⟩
    · exact ne_true_of_eq_false noAlt
    · rintro ⟨isL, -⟩
      contradiction
  have display := congrArg Control.displayTerminal
    (kernel.terminals.console.putcScrollDisplay_control (pressed.characterConvert 0x1E))
  generalize kernel.terminals.console.putcScrollDisplay (pressed.characterConvert 0x1E) = console
    at typed display
  refine ⟨{ kernel with terminals :=
    { console := console
      keyboard := pressed.appendChar kernel.terminals.console.displayTerminal
        (pressed.characterConvert 0x1E) } }, ?_, ?_, ?_⟩
  · simp only [systemStep, keyEvent, processStep, keyboardInterrupt, scancodeProcessing, typed]
    rfl
  · rw [← pressedEq]
    rfl
  · have shown : console.displayTerminal = kernel.terminals.console.displayTerminal := display
    simp only [Keyboard.appendChar, shown, Function.update_self, sameLine]

/-- With a letter typed on its terminal, it leaves the cursor before the end of
the line. -/
theorem typedLine_not_behind :
    ¬ ∀ (trace : List (SystemEvent × SystemReply)) (kernel stopped target : Kernel)
      (pid other : Nat) (reply answer : SystemReply), Run systemStep shellKernel trace kernel →
      kernel.userProcess = some pid → (kernel.pcb pid).isTerminal = 1 →
      kernel.processStatus other = true → other ≠ pid →
      systemStep kernel (.process (.halt (fun _ => 0) 0)) = some (reply, stopped) →
      systemStep stopped (.process .clear) = some (answer, target) →
      AffectsOnly (kernel.pcb pid).terminal kernel.terminals target.terminals := by
  intro affectsOnly
  obtain ⟨first, second, third, launch, alt, f2, isUser, rootRuns, isRoot, -, shown, untyped⟩ :=
    shellKernel_second
  obtain ⟨fourth, release, sameTable, sameConsole, sameLine, noAlt⟩ := releaseAlt_step third
  have empty : fourth.terminals.keyboard.cursorInd
      fourth.terminals.console.displayTerminal = 0 := by
    rw [sameLine, sameConsole, shown, untyped]
  obtain ⟨fifth, typed, typedTable, line⟩ := typeA_step fourth noAlt (by omega)
  have table : fifth.table = third.table := typedTable.trans sameTable
  have isUserStill : fifth.userProcess = some 2 :=
    (congrArg (fun table => table.current.filter table.running) table).trans isUser
  have rootRunsStill : fifth.processStatus 1 = true :=
    (congrArg (fun table => table.running 1) table).trans rootRuns
  have isRootStill : (fifth.pcb 2).isTerminal = 1 :=
    (congrArg (fun table => (table.links 2).isTerminal) table).trans isRoot
  have run : GuardedRun systemStep clearsUntyped shellKernel [_, _, _, _, _] fifth :=
    .cons ⟨by trivial, by trivial⟩ launch (.cons (clearsUntyped_key ..) alt
      (.cons (clearsUntyped_key ..) f2 (.cons (clearsUntyped_key ..) release
        (.cons (clearsUntyped_key ..) typed (.nil fifth)))))
  have attached := Attached.of_run run
  obtain ⟨stopped, halted, sameTerminals, isClearing⟩ :=
    attached.rootHalts isUserStill isRootStill rootRunsStill (by decide) (fun _ => 0) 0
  obtain ⟨target, cleared, terminals⟩ := clearing_step isClearing
  have affected := affectsOnly _ fifth stopped target 2 1 _ _ run.unguarded isUserStill isRootStill
    rootRunsStill (by decide) halted cleared
  rw [terminals, sameTerminals, clear_affectsOnly_iff attached.driven] at affected
  rw [affected.2, empty] at line
  contradiction

end PonyOS.Syscall
