import PonyOS.Process.Atomic
import PonyOS.Process.Table

/-!
# The kernel keeps the process table

The view of a kernel forgets everything but the links of its processes.  Each
process event is one operation of the process table on the view: a successful
execution is a start, a halt is a stop or a leave, a tick is a switch or
nothing.  The invariant of the table then holds in every reachable kernel.
-/

namespace PonyOS.Process

open PonyOS.FileSystem
open PonyOS.Lib.Transition
open PonyOS.Lib.Word
open PonyOS.Paging
open PonyOS.Terminal

/-- The links in a control block. -/
def Pcb.links (pcb : Pcb) : Links :=
  { parent := pcb.parent
    child := pcb.child
    terminal := pcb.terminal
    isTerminal := pcb.isTerminal
    pid := pcb.pid }

namespace Kernel

/-- The process table of a kernel. -/
def table (kernel : Kernel) : ProcessTable :=
  { running := kernel.processStatus
    total := kernel.totalRunningProcess
    current := kernel.currentPid
    links := fun slot => (kernel.pcb slot).links
    launchedSecond := kernel.terminals.keyboard.terminal2Running
    launchedThird := kernel.terminals.keyboard.terminal3Running }

theorem setPcb_table (kernel : Kernel) (slot : Nat) (pcb : Pcb) :
    (kernel.setPcb slot pcb).table =
      { kernel.table with links := Function.update kernel.table.links slot pcb.links } := by
  simp only [table, setPcb, ProcessTable.mk.injEq, true_and, and_true]
  funext other
  by_cases same : other = slot
  · rw [same, Function.update_self, Function.update_self]
  · rw [Function.update_of_ne same, Function.update_of_ne same]

/-- Changes of a control block outside its links do not show. -/
theorem setPcb_table_of_links (kernel : Kernel) {slot : Nat} {pcb : Pcb}
    (same : pcb.links = (kernel.pcb slot).links) :
    (kernel.setPcb slot pcb).table = kernel.table := by
  rw [setPcb_table, same]
  exact congrArg (fun links => { kernel.table with links := links })
    (Function.update_eq_self slot kernel.table.links)

theorem onConsole_table (kernel : Kernel) (change : Console → Console) :
    (kernel.onConsole change).table = kernel.table :=
  rfl

theorem stopRoot_table (kernel : Kernel) (pid : Nat) :
    (kernel.stopRoot pid).table = (kernel.stopProcess pid).table :=
  rfl

theorem clearScreen_table (kernel : Kernel) : kernel.clearScreen.table = kernel.table :=
  onConsole_table { kernel with clearing := false } Console.clear

theorem saveCurrent_table (kernel : Kernel) (slot esp ebp : Nat) :
    (kernel.setPcb slot
      { kernel.pcb slot with currentEsp := esp, currentEbp := ebp }).table = kernel.table := by
  apply setPcb_table_of_links
  rfl

theorem saveParent_table (kernel : Kernel) (slot esp ebp : Nat) :
    (kernel.setPcb slot
      { kernel.pcb slot with parentEsp := esp, parentEbp := ebp }).table = kernel.table := by
  apply setPcb_table_of_links
  rfl

theorem setChild_table (kernel : Kernel) (slot : Nat) (child : Option Nat) :
    (kernel.setPcb slot { kernel.pcb slot with child := child }).table =
      { kernel.table with
        links := Function.update kernel.table.links slot
          { kernel.table.links slot with child := child } } := by
  rw [setPcb_table]
  rfl

theorem saveContext_table (kernel : Kernel) (pid : Nat) (registers : Registers) :
    (kernel.saveContext pid registers).table = kernel.table := by
  cases currentEq : kernel.currentPid with
  | none => simp only [saveContext, currentEq, saveCurrent_table, saveParent_table]
  | some previous => simp only [saveContext, currentEq, saveCurrent_table, saveParent_table]

/-- Claiming a slot counts it as running and sets its pid. -/
theorem claimProcess_table (kernel : Kernel) (text : CString) (pid terminalNum : Nat) :
    (kernel.claimProcess text pid terminalNum).table =
      { kernel.table with
        running := Function.update kernel.table.running pid true
        total := kernel.table.total + 1
        links := Function.update kernel.table.links pid
          { kernel.table.links pid with pid := pid } } := by
  simp only [table, claimProcess, ProcessTable.mk.injEq, true_and, and_true]
  funext other
  by_cases same : other = pid
  · rw [same, Function.update_self, Function.update_self]
    rfl
  · rw [Function.update_of_ne same, Function.update_of_ne same]

/-- Claiming a slot and linking it is a start of the process table. -/
theorem startProcess_table (kernel : Kernel) (text : CString) (pid terminalNum : Nat)
    (isTerminal : Int) (entry : Nat) (registers : Registers) :
    ((kernel.claimProcess text pid terminalNum).startProcess pid terminalNum isTerminal entry
      registers).table = kernel.table.spawn pid terminalNum isTerminal := by
  have claimed := kernel.claimProcess_table text pid terminalNum
  have sameCurrent : (kernel.claimProcess text pid terminalNum).currentPid =
      kernel.table.current := rfl
  generalize kernel.claimProcess text pid terminalNum = claim at claimed sameCurrent
  have linked : (claim.linkProcess pid terminalNum isTerminal).table =
      { kernel.table.spawn pid terminalNum isTerminal with current := kernel.table.current } := by
    have first : (claim.setPcb pid { claim.pcb pid with
        terminal := terminalNum, parent := kernel.table.current, isTerminal := isTerminal }).table =
        { kernel.table with
          running := Function.update kernel.table.running pid true
          total := kernel.table.total + 1
          links := Function.update kernel.table.links pid
            { kernel.table.links pid with
              parent := kernel.table.current, terminal := terminalNum
              isTerminal := isTerminal, pid := pid } } := by
      have pidField : (claim.pcb pid).pid = pid ∧
          (claim.pcb pid).child = (kernel.table.links pid).child := by
        have atPid := congrArg (fun view : ProcessTable => view.links pid) claimed
        simp only [Function.update_self] at atPid
        exact ⟨congrArg Links.pid atPid, congrArg Links.child atPid⟩
      rw [setPcb_table, claimed, Function.update_idem]
      simp only [Pcb.links, pidField.1, pidField.2]
    cases currentEq : kernel.table.current with
    | none =>
        rw [currentEq] at first
        simp only [linkProcess, sameCurrent, currentEq, first, ProcessTable.spawn]
    | some parent =>
        rw [currentEq] at first
        by_cases isChild : isTerminal = 0
        · simp only [linkProcess, sameCurrent, currentEq, isChild, if_true, ProcessTable.spawn]
          rw [isChild] at first
          rw [setChild_table, first]
          simp only [currentEq]
        · simp only [linkProcess, sameCurrent, currentEq, isChild, if_false, first,
            ProcessTable.spawn]
  have saved := saveContext_table (claim.linkProcess pid terminalNum isTerminal) pid registers
  rw [linked] at saved
  exact congrArg (fun view : ProcessTable => { view with current := some pid }) saved

theorem setTerminals_table (kernel : Kernel) (terminals : Terminals) :
    { kernel with terminals := terminals }.table =
      { kernel.table with
        launchedSecond := terminals.keyboard.terminal2Running
        launchedThird := terminals.keyboard.terminal3Running } :=
  rfl

theorem returnToParent_table (kernel : Kernel) (parent : Nat) :
    (kernel.returnToParent parent).table =
      { kernel.table with
        current := some (kernel.table.links parent).pid
        links := Function.update kernel.table.links parent
          { kernel.table.links parent with child := none } } := by
  have freed := setChild_table (kernel.onConsole fun console =>
    console.setupTaskPage (kernel.pcb parent).pid) parent none
  exact congrArg (fun view : ProcessTable =>
    { view with current := some (kernel.table.links parent).pid }) freed

theorem switchProcess_table (kernel : Kernel) (previous pid : Nat) (registers : Registers) :
    (kernel.switchProcess previous pid registers).table = kernel.table.switch pid := by
  have saved := saveCurrent_table (kernel.onConsole fun console =>
    (console.setupTaskPage pid).setActiveTerminal (kernel.pcb pid).terminal) previous
    registers.esp registers.ebp
  exact congrArg (fun view : ProcessTable => { view with current := some pid }) saved

end Kernel

/-! ## Sound kernels -/

/-- No lookup finds an entry whose inode is missing. -/
def EntriesHaveInodes (fs : Volume) : Prop :=
  ∀ name, ¬ DanglingEntry fs name

/-- A well-formed image has no such entry. -/
theorem entriesHaveInodes_of_wellFormed {memory : Memory} {start : Nat} {image : Image}
    (loaded : Loaded memory start image) (wellFormed : image.WellFormed) :
    EntriesHaveInodes (filesysInit memory start) := by
  rintro name ⟨dentry, found, outside⟩
  obtain ⟨index, bound, -, rfl⟩ := Volume.readDentryByName_eq_some found
  rw [loaded.numDirEntry_eq wellFormed, Int.toNat_natCast] at bound
  have inodeLt := wellFormed.inode_lt index bound
  have inodesSmall : image.numInodes < 2147483648 := by
    have fits := loaded.fits
    unfold Image.size at fits
    omega
  rw [(loaded.dentryAt_inode wellFormed bound).1, loaded.numInodes_eq,
    int32_of_lt (Nat.lt_trans inodeLt inodesSmall), uint32_of_lt (by omega),
    uint32_of_lt (by omega)] at outside
  omega

/-- The table invariant holds and every entry has its inode. -/
structure Sound (kernel : Kernel) : Prop where
  table : kernel.table.Inv
  inodes : EntriesHaveInodes kernel.fs

theorem Kernel.boot_inv (fs : Volume) (paging : PageTables) (memory : Memory)
    (printBuffer argBuf fname : Nat → UInt8) (currentDirReadIndex : Int) :
    (Kernel.boot fs paging memory printBuffer argBuf fname currentDirReadIndex).table.Inv := by
  constructor
  case count => rfl
  case childFree => exact fun pid stopped => rfl
  case idle => exact fun noCurrent pid => rfl
  case current => exact fun pid isCurrent => nomatch isCurrent
  case range => exact fun pid isRunning => nomatch isRunning
  case pidField => exact fun pid isRunning => nomatch isRunning
  case kind => exact fun pid isRunning => nomatch isRunning
  case parent => exact fun pid isRunning => nomatch isRunning
  case child => exact fun pid child isRunning => nomatch isRunning
  case root => exact fun first second isRunning => nomatch isRunning
  case leaf => exact fun first second isRunning => nomatch isRunning
  case terminalLt => exact fun pid isRunning => nomatch isRunning
  case second => exact fun pid isRunning => nomatch isRunning
  case third => exact fun pid isRunning => nomatch isRunning

theorem Sound.boot {fs : Volume} (inodes : EntriesHaveInodes fs) (paging : PageTables)
    (memory : Memory) (printBuffer argBuf fname : Nat → UInt8) (currentDirReadIndex : Int) :
    Sound (Kernel.boot fs paging memory printBuffer argBuf fname currentDirReadIndex) :=
  ⟨Kernel.boot_inv .., inodes⟩

/-! ## Events as operations of the table -/

/-- A slot that a start may claim. -/
def FreeSlot (table : ProcessTable) (pid : Nat) : Prop :=
  1 ≤ pid ∧ pid < 8 ∧ table.running pid = false

/-- What one event does to the process table, with the reply it gives. -/
inductive TableChange (table : ProcessTable) : ProcessReply → ProcessTable → Prop
  | same (reply : ProcessReply) : TableChange table reply table
  | failedLaunch (second third : Bool) :
      (table.launchedSecond = true → second = true) →
      (table.launchedThird = true → third = true) →
      TableChange table (.keyed (some .failed))
        { table with launchedSecond := second, launchedThird := third }
  | firstShell (pid entry : Nat) :
      FreeSlot table pid → table.current = none →
      TableChange table (.launched (.started pid entry)) (table.spawn pid 0 1)
  | secondShell (pid entry : Nat) :
      FreeSlot table pid → table.launchedSecond = false →
      TableChange table (.keyed (some (.started pid entry)))
        ({ table with launchedSecond := true }.spawn pid 1 1)
  | thirdShell (pid entry : Nat) :
      FreeSlot table pid → table.launchedThird = false →
      TableChange table (.keyed (some (.started pid entry)))
        ({ table with launchedThird := true }.spawn pid 2 1)
  | child (caller pid entry : Nat) :
      FreeSlot table pid → table.current = some caller → table.running caller = true →
      TableChange table (.executed (.started pid entry))
        (table.spawn pid (table.links caller).terminal 0)
  | stop (caller : Nat) :
      table.current = some caller → table.running caller = true →
      (table.links caller).isTerminal = 1 → table.total ≠ 1 →
      TableChange table (.halted .spinning) (table.stop caller)
  | leave (caller parent : Nat) (registers : Registers) :
      table.current = some caller → table.running caller = true →
      (table.links caller).isTerminal = 0 → (table.links caller).parent = some parent →
      TableChange table (.halted (.returned 0 registers)) (table.leave caller parent)
  | switch (pid : Nat) (loaded : Option Registers) :
      table.running pid = true → (table.links pid).child = none →
      TableChange table (.ticked loaded) (table.switch pid)

/-- Every change keeps the invariant. -/
theorem ProcessTable.Inv.change {table target : ProcessTable} {reply : ProcessReply}
    (inv : table.Inv) (change : TableChange table reply target) : target.Inv := by
  cases change with
  | same => exact inv
  | failedLaunch second third keepsSecond keepsThird => exact inv.launch keepsSecond keepsThird
  | firstShell pid entry free noCurrent =>
      apply inv.spawnRoot free.1 free.2.1 free.2.2 (by decide)
        (fun other => absurd other (by decide)) (fun other => absurd other (by decide))
      intro other isRunning
      have stopped := inv.idle noCurrent other
      exact absurd (isRunning.symm.trans stopped) (by decide)
  | secondShell pid entry free wasFree =>
      have raised := inv.launch (fun _ => rfl : _ → true = true) id
      apply raised.spawnRoot free.1 free.2.1 free.2.2 (by decide) (fun _ => rfl)
        (fun other => absurd other (by decide))
      intro other isRunning onSecond
      have launched := inv.second other isRunning onSecond
      exact absurd (wasFree.symm.trans launched) (by decide)
  | thirdShell pid entry free wasFree =>
      have raised := inv.launch id (fun _ => rfl : _ → true = true)
      apply raised.spawnRoot free.1 free.2.1 free.2.2 (by decide)
        (fun other => absurd other (by decide)) (fun _ => rfl)
      intro other isRunning onThird
      have launched := inv.third other isRunning onThird
      exact absurd (wasFree.symm.trans launched) (by decide)
  | child caller pid entry free isCurrent isRunning =>
      exact inv.spawnChild isCurrent isRunning free.1 free.2.1 free.2.2
  | stop caller isCurrent isRunning isRoot notLast => exact inv.stopRoot isCurrent isRunning isRoot
  | leave caller parent registers isCurrent isRunning isChild parentEq =>
      exact inv.leaveChild isCurrent isRunning isChild parentEq
  | switch pid loaded isRunning childless => exact inv.switch isRunning childless

/-- An execution starts a process in a free slot or leaves the table alone. -/
theorem executeWithTerminalNum_table {kernel target : Kernel} {registers : Registers}
    {tempBuf : Nat → UInt8} {command : Option CString} {terminalNum : Nat} {isTerminal : Int}
    {reply : ExecuteReply}
    (ended : executeWithTerminalNum kernel registers tempBuf command terminalNum isTerminal =
      some (reply, target)) (inodes : EntriesHaveInodes kernel.fs) :
    (reply = .failed ∧ target.table = kernel.table) ∨
      ∃ pid entry, reply = .started pid entry ∧ FreeSlot kernel.table pid ∧
        target.table = kernel.table.spawn pid terminalNum isTerminal := by
  rcases executeWithTerminalNum_cases ended with
    ⟨failed, fname, rfl⟩ | ⟨text, pid, rfl, free, ⟨-, dangling, -⟩ | ⟨entry, started, rfl⟩⟩
  · exact .inl ⟨failed, rfl⟩
  · exact absurd dangling (inodes (programName text))
  · refine .inr ⟨pid, entry, started, Kernel.getEmptyPid_eq_some free, ?_⟩
    exact Kernel.startProcess_table _ text pid terminalNum isTerminal entry registers

theorem halt_table {kernel target : Kernel} {caller : Nat} {tempBuf : Nat → UInt8} {status : Int}
    {reply : HaltReply} (inv : kernel.table.Inv) (isUser : kernel.userProcess = some caller)
    (ended : halt kernel tempBuf status = some (reply, target)) :
    TableChange kernel.table (.halted reply) target.table := by
  obtain ⟨isCurrent, isRunning⟩ := Kernel.userProcess_eq_some.mp isUser
  have pidField : (kernel.pcb caller).pid = caller := inv.pidField caller isRunning
  rcases halt_cases isCurrent ended with
    ⟨-, entry, rfl, rfl⟩ | ⟨notLast, isRoot, rfl, rfl⟩ |
    ⟨-, isChild, parent, parentEq, rfl, rfl⟩
  · exact .same _
  · have rooted := (inv.kind caller isRunning).resolve_left isRoot
    rw [Kernel.stopRoot_table, pidField]
    exact .stop caller isCurrent isRunning rooted notLast
  · rw [pidField, Kernel.returnToParent_table]
    exact .leave caller parent _ isCurrent isRunning isChild parentEq

theorem keyboardInterrupt_table {kernel target : Kernel} {registers : Registers}
    {tempBuf : Nat → UInt8} {c : UInt8} {reply : Option ExecuteReply}
    (ended : keyboardInterrupt kernel registers tempBuf c = some (reply, target))
    (inodes : EntriesHaveInodes kernel.fs) :
    TableChange kernel.table (.keyed reply) target.table := by
  have flags := scancodeProcessing_launch consoleOps kernel.getEmptyPid.isSome
    kernel.terminals.console kernel.terminals.keyboard c
  obtain ⟨result, resultEq, outcome⟩ := keyboardInterrupt_cases ended
  rw [← resultEq] at flags
  have handled := kernel.setTerminals_table
    { console := result.screen, keyboard := result.keyboard }
  rcases outcome with ⟨launchEq, rfl, rfl⟩ | ⟨terminalId, started, launchEq, rfl, executed⟩
  · rw [launchEq] at flags
    cases flags with
    | same second third =>
        rw [handled, second, third]
        exact .same _
  · rw [launchEq] at flags
    have ran := executeWithTerminalNum_table executed inodes
    rw [handled] at ran
    rcases ran with ⟨rfl, failed⟩ | ⟨pid, entry, rfl, free, spawned⟩
    · rw [failed]
      cases flags with
      | second wasFree raised third =>
          exact .failedLaunch _ _ (fun _ => raised) fun was => third.trans was
      | third wasFree raised second =>
          exact .failedLaunch _ _ (fun was => second.trans was) fun _ => raised
    · rw [spawned]
      cases flags with
      | second wasFree raised third =>
          rw [raised, third]
          exact .secondShell pid entry free wasFree
      | third wasFree raised second =>
          rw [raised, second]
          exact .thirdShell pid entry free wasFree

/-- Every event is a change of the table. -/
theorem Moved.change {kernel target : Kernel} {event : ProcessEvent} {reply : ProcessReply}
    (moved : Moved kernel target event reply) (sound : Sound kernel) :
    TableChange kernel.table reply target.table := by
  cases moved with
  | launched registers tempBuf outcome noCurrent executed =>
      rcases executeWithTerminalNum_table executed sound.inodes with
        ⟨rfl, same⟩ | ⟨pid, entry, rfl, free, spawned⟩
      · rw [same]
        exact .same _
      · rw [spawned]
        exact .firstShell pid entry free noCurrent
  | executed caller registers tempBuf command outcome isUser executed =>
      obtain ⟨isCurrent, isRunning⟩ := Kernel.userProcess_eq_some.mp isUser
      rcases executeWithTerminalNum_table executed sound.inodes with
        ⟨rfl, same⟩ | ⟨pid, entry, rfl, free, spawned⟩
      · rw [same]
        exact .same _
      · rw [spawned]
        exact .child caller pid entry free isCurrent isRunning
  | halted caller tempBuf status outcome isUser ended => exact halt_table sound.table isUser ended
  | cleared isClearing targetEq =>
      rw [targetEq, Kernel.clearScreen_table]
      exact .same _
  | keyed registers tempBuf c outcome ended => exact keyboardInterrupt_table ended sound.inodes
  | ticked registers loaded ended =>
      rcases pitHandler_cases ended with
        ⟨-, rfl⟩ | ⟨previous, pid, -, -, isRunning, childless, rfl, -⟩
      · exact .same _
      · rw [Kernel.switchProcess_table]
        exact .switch pid loaded (Kernel.processStatus_of_isRunning isRunning) childless

/-- No event remounts the file system or moves the position in the directory. -/
theorem Moved.listing {kernel target : Kernel} {event : ProcessEvent} {reply : ProcessReply}
    (moved : Moved kernel target event reply) :
    target.fs = kernel.fs ∧ target.currentDirReadIndex = kernel.currentDirReadIndex := by
  have executed : ∀ {source : Kernel} {registers : Registers} {tempBuf : Nat → UInt8}
      {command : Option CString} {terminalNum : Nat} {isTerminal : Int} {outcome : ExecuteReply},
      executeWithTerminalNum source registers tempBuf command terminalNum isTerminal =
        some (outcome, target) →
      target.fs = source.fs ∧ target.currentDirReadIndex = source.currentDirReadIndex := by
    intro source registers tempBuf command terminalNum isTerminal outcome ended
    rcases executeWithTerminalNum_cases ended with
      ⟨-, fname, rfl⟩ | ⟨text, pid, -, -, ⟨-, -, -, rfl⟩ | ⟨entry, -, rfl⟩⟩
    · exact ⟨rfl, rfl⟩
    · exact ⟨rfl, rfl⟩
    · rw [Kernel.startProcess_eq]
      exact ⟨rfl, rfl⟩
  cases moved with
  | launched registers tempBuf outcome noCurrent ended => exact executed ended
  | executed caller registers tempBuf command outcome isUser ended => exact executed ended
  | halted caller tempBuf status outcome isUser ended =>
      rcases halt_cases (Kernel.userProcess_eq_some.mp isUser).1 ended with
        ⟨-, entry, -, rfl⟩ | ⟨-, -, -, rfl⟩ | ⟨-, -, parent, -, -, rfl⟩
      · exact ⟨rfl, rfl⟩
      · exact ⟨rfl, rfl⟩
      · exact ⟨rfl, rfl⟩
  | cleared isClearing targetEq =>
      rw [targetEq, Kernel.clearScreen, Kernel.onConsole_fs, Kernel.onConsole_currentDirReadIndex]
      exact ⟨rfl, rfl⟩
  | keyed registers tempBuf c outcome ended =>
      obtain ⟨result, -, ⟨-, -, rfl⟩ | ⟨terminalId, started, -, -, launched⟩⟩ :=
        keyboardInterrupt_cases ended
      · exact ⟨rfl, rfl⟩
      · have ran := executed launched
        exact ran
  | ticked registers loaded ended =>
      rcases pitHandler_cases ended with ⟨-, rfl⟩ | ⟨previous, pid, -, -, -, -, rfl, -⟩
      · exact ⟨rfl, rfl⟩
      · exact ⟨rfl, rfl⟩

theorem Moved.fs {kernel target : Kernel} {event : ProcessEvent} {reply : ProcessReply}
    (moved : Moved kernel target event reply) : target.fs = kernel.fs :=
  moved.listing.1

namespace Sound

variable {kernel target : Kernel}

/-- The one process left is a root. -/
theorem last_isRoot (sound : Sound kernel) {pid : Nat}
    (isRunning : kernel.processStatus pid = true) (last : kernel.totalRunningProcess = 1) :
    (kernel.pcb pid).isTerminal = 1 := by
  rcases sound.table.kind pid isRunning with isChild | isRoot
  · obtain ⟨parent, -, parentRuns, parentNe, -⟩ := sound.table.parent pid isRunning isChild
    have two := sound.table.two_le_total parentNe parentRuns isRunning
    have one : kernel.table.total = 1 := last
    omega
  · exact isRoot

/-- Every process event keeps a kernel sound. -/
theorem step (sound : Sound kernel) {event : ProcessEvent} {reply : ProcessReply}
    (moved : Moved kernel target event reply) : Sound target := by
  constructor
  · exact sound.table.change (moved.change sound)
  · rw [moved.fs]
    exact sound.inodes

end Sound

/-! ## A small image -/

/-- The nonzero bytes of an image with the directory `"."` and the program
`"shell"`, whose file is the magic number and four zero bytes. -/
def shellBytes : List (Nat × UInt8) :=
  [(0, 2), (4, 1), (8, 1), (64, 46), (96, 1), (128, 115), (129, 104), (130, 101), (131, 108),
    (132, 108), (160, 2), (4096, 8), (8192, 0x7f), (8193, 0x45), (8194, 0x4c), (8195, 0x46)]

/-- That image. -/
def shellImage : Image :=
  { byte := fun k => (shellBytes.lookup k).getD 0 }

/-- The image as a module in memory. -/
def shellMemory : Memory :=
  fun address => if address < 0x420000 then 0 else shellImage.byte (address - 0x420000)

theorem shellImage_wellFormed : shellImage.WellFormed := by
  constructor
  · decide
  · decide
  · decide
  · decide

theorem shellMemory_loaded : Loaded shellMemory 0x420000 shellImage := by
  constructor
  · decide
  · intro k bound
    have small : (0x420000 + k) % 4294967296 = 0x420000 + k := by
      have size : shellImage.size = 12288 := by decide
      omega
    rw [load, small, shellMemory, if_neg (by omega), Nat.add_sub_cancel_left]

/-- The kernel that booted with it. -/
def shellKernel : Kernel :=
  Kernel.boot (filesysInit shellMemory 0x420000) zeroTables (fun _ => 0) (fun _ => 0)
    (fun _ => 0) (fun _ => 0) 0

/-- Its root shell starts. -/
theorem shellKernel_launch : ∃ target, processStep shellKernel
    (.bootLaunch { esp := 0, ebp := 0 } fun _ => 0) =
      some (.launched (.started 1 0), target) ∧ target.userProcess = some 1 :=
  ⟨_, rfl, rfl⟩

/-- The root shell starts a second one, which halts. -/
theorem shellKernel_nested : ∃ first second third,
    processStep shellKernel (.bootLaunch { esp := 0, ebp := 0 } fun _ => 0) =
      some (.launched (.started 1 0), first) ∧ first.userProcess = some 1 ∧
    processStep first (.execute { esp := 64, ebp := 96 } (fun _ => 0) (some shellCommand)) =
      some (.executed (.started 2 0), second) ∧
    second.userProcess = some 2 ∧ second.totalRunningProcess = 2 ∧
    halt second (fun _ => 0) 7 = some (.returned 0 { esp := 64, ebp := 96 }, third) :=
  ⟨_, _, _, rfl, rfl, rfl, rfl, rfl, rfl⟩

/-! ## Reachable kernels -/

/-- What holds of the process table between any two events. -/
structure ProcessInvariant (kernel : Kernel) : Prop where
  total : kernel.totalRunningProcess =
    ((List.range maxPid).countP kernel.processStatus : Nat)
  range : ∀ pid, kernel.processStatus pid = true → 1 ≤ pid ∧ pid < maxPid
  kind : ∀ pid, kernel.processStatus pid = true →
    (kernel.pcb pid).isTerminal = 0 ∨ (kernel.pcb pid).isTerminal = 1
  parent : ∀ pid, kernel.processStatus pid = true → (kernel.pcb pid).isTerminal = 0 →
    ∃ parent, (kernel.pcb pid).parent = some parent ∧ kernel.processStatus parent = true ∧
      parent ≠ pid ∧ (kernel.pcb parent).terminal = (kernel.pcb pid).terminal ∧
      (kernel.pcb parent).child = some pid
  child : ∀ pid child, kernel.processStatus pid = true → (kernel.pcb pid).child = some child →
    kernel.processStatus child = true ∧ (kernel.pcb child).isTerminal = 0 ∧
      (kernel.pcb child).parent = some pid ∧ child ≠ pid ∧
      (kernel.pcb child).terminal = (kernel.pcb pid).terminal
  root : ∀ first second, kernel.processStatus first = true → kernel.processStatus second = true →
    (kernel.pcb first).isTerminal = 1 → (kernel.pcb second).isTerminal = 1 →
    (kernel.pcb first).terminal = (kernel.pcb second).terminal → first = second
  leaf : ∀ first second, kernel.processStatus first = true → kernel.processStatus second = true →
    (kernel.pcb first).child = none → (kernel.pcb second).child = none →
    (kernel.pcb first).terminal = (kernel.pcb second).terminal → first = second
  current : ∀ pid, kernel.currentPid = some pid →
    (kernel.processStatus pid = true ∧ (kernel.pcb pid).child = none) ∨
      (kernel.processStatus pid = false ∧ (kernel.pcb pid).isTerminal = 1)
  haltParent : ∀ pid, kernel.userProcess = some pid → (kernel.pcb pid).isTerminal = 0 →
    ∃ parent, (kernel.pcb pid).parent = some parent ∧ kernel.processStatus parent = true
  haltRestart : ∀ pid, kernel.userProcess = some pid → kernel.totalRunningProcess = 1 →
    (kernel.pcb pid).isTerminal = 1
  haltEnds : ∀ pid tempBuf status, kernel.userProcess = some pid →
    (halt kernel tempBuf status).isSome = true
  tickEnds : ∀ registers, (pitHandler kernel registers).isSome = true

/-- A halt never follows a missing parent. -/
theorem Sound.halt_isSome {kernel : Kernel} (sound : Sound kernel) {pid : Nat}
    (isUser : kernel.userProcess = some pid) (tempBuf : Nat → UInt8) (status : Int) :
    (Process.halt kernel tempBuf status).isSome = true := by
  obtain ⟨isCurrent, isRunning⟩ := Kernel.userProcess_eq_some.mp isUser
  rcases sound.table.kind pid isRunning with isChild | isRoot
  · obtain ⟨parent, parentEq, -⟩ := sound.table.parent pid isRunning isChild
    have isChild : (kernel.pcb pid).isTerminal = 0 := isChild
    have parentEq : (kernel.pcb pid).parent = some parent := parentEq
    simp only [Process.halt, isCurrent, isChild, parentEq]
    split
    · rfl
    · rfl
  · have isRoot : (kernel.pcb pid).isTerminal = 1 := isRoot
    simp only [Process.halt, isCurrent, isRoot]
    split
    · rfl
    · rfl

/-- A tick finds its way back to the current process. -/
theorem Sound.tick_isSome {kernel : Kernel} (sound : Sound kernel) (registers : Registers) :
    (pitHandler kernel registers).isSome = true := by
  apply pitHandler_isSome
  intro someRun
  cases current : kernel.currentPid with
  | none =>
      have nobody := sound.table.idle current
      have total : kernel.totalRunningProcess =
          ((List.range maxPid).countP kernel.processStatus : Nat) := sound.table.count
      have nothing : (List.range maxPid).countP kernel.processStatus = 0 := by
        apply List.countP_eq_zero.mpr
        intro pid _
        have stopped : kernel.processStatus pid = false := nobody pid
        simp [stopped]
      rw [nothing] at total
      exact absurd total someRun
  | some previous =>
      obtain ⟨-, upper, pidField, -⟩ := sound.table.current previous current
      have pidField : (kernel.pcb previous).pid = previous := pidField
      refine ⟨previous, rfl, ?_⟩
      rw [pidField]
      exact upper

theorem Sound.processInvariant {kernel : Kernel} (sound : Sound kernel) :
    ProcessInvariant kernel := by
  have inv := sound.table
  constructor
  · exact inv.count
  · exact inv.range
  · exact inv.kind
  · exact inv.parent
  · intro pid child isRunning hasChild
    obtain ⟨childRuns, childKind, childParent⟩ := inv.child pid child isRunning hasChild
    obtain ⟨parent, parentEq, -, parentNe, sameTerminal, -⟩ :=
      inv.parent child childRuns childKind
    cases childParent.symm.trans parentEq
    exact ⟨childRuns, childKind, childParent, Ne.symm parentNe, sameTerminal.symm⟩
  · exact inv.root
  · exact inv.leaf
  · intro pid isCurrent
    exact (inv.current pid isCurrent).2.2.2
  · intro pid isUser isChild
    obtain ⟨parent, parentEq, parentRuns, -⟩ :=
      inv.parent pid (Kernel.userProcess_eq_some.mp isUser).2 isChild
    exact ⟨parent, parentEq, parentRuns⟩
  · intro pid isUser last
    exact sound.last_isRoot (Kernel.userProcess_eq_some.mp isUser).2 last
  · intro pid tempBuf status isUser
    exact sound.halt_isSome isUser tempBuf status
  · exact sound.tick_isSome

/-- A first process has been started. -/
def Begun (trace : List (ProcessEvent × ProcessReply)) : Prop :=
  ∃ step ∈ trace, startedBy step.2 ≠ none

theorem executeWithTerminalNum_current {kernel target : Kernel} {registers : Registers}
    {tempBuf : Nat → UInt8} {command : Option CString} {terminalNum : Nat} {isTerminal : Int}
    {reply : ExecuteReply}
    (ended : executeWithTerminalNum kernel registers tempBuf command terminalNum isTerminal =
      some (reply, target))
    (begun : kernel.currentPid ≠ none ∨ startedPid reply ≠ none) :
    target.currentPid ≠ none := by
  rcases executeWithTerminalNum_cases ended with
    ⟨rfl, fname, rfl⟩ | ⟨text, pid, rfl, -, ⟨rfl, -, -, rfl⟩ | ⟨entry, -, rfl⟩⟩
  · exact begun.resolve_right fun started => started rfl
  · exact begun.resolve_right fun started => started rfl
  · rw [Kernel.startProcess_eq]
    exact Option.some_ne_none pid

/-- A process that is started becomes current, and from then on some process
always is. -/
theorem Moved.current {kernel target : Kernel} {event : ProcessEvent} {reply : ProcessReply}
    (moved : Moved kernel target event reply)
    (begun : kernel.currentPid ≠ none ∨ startedBy reply ≠ none) : target.currentPid ≠ none := by
  cases moved with
  | launched registers tempBuf outcome noCurrent executed =>
      exact executeWithTerminalNum_current executed begun
  | executed caller registers tempBuf command outcome isUser executed =>
      exact executeWithTerminalNum_current executed begun
  | halted caller tempBuf status outcome isUser ended =>
      have before := begun.resolve_right fun started => started rfl
      rcases halt_cases (Kernel.userProcess_eq_some.mp isUser).1 ended with
        ⟨-, entry, -, rfl⟩ | ⟨-, -, -, rfl⟩ | ⟨-, -, parent, -, -, rfl⟩
      · exact before
      · exact before
      · exact Option.some_ne_none _
  | cleared isClearing targetEq =>
      rw [targetEq, Kernel.clearScreen_currentPid]
      exact begun.resolve_right fun started => started rfl
  | keyed registers tempBuf c outcome ended =>
      obtain ⟨result, -, ⟨-, rfl, rfl⟩ | ⟨terminalId, started, -, rfl, executed⟩⟩ :=
        keyboardInterrupt_cases ended
      · exact begun.resolve_right fun started => started rfl
      · exact executeWithTerminalNum_current executed begun
  | ticked registers loaded ended =>
      rcases pitHandler_cases ended with ⟨-, rfl⟩ | ⟨previous, pid, -, -, -, -, rfl, -⟩
      · exact begun.resolve_right fun started => started rfl
      · exact Option.some_ne_none pid

theorem Begun.current {source final : Kernel} {trace : List (ProcessEvent × ProcessReply)}
    (begun : Begun trace) (run : Run processStep source trace final) :
    ∃ pid, final.currentPid = some pid := by
  have initial : Begun [] → source.currentPid ≠ none := by
    rintro ⟨step, member, -⟩
    exact absurd member List.not_mem_nil
  have reached := run.historyInvariant
    (P := fun history kernel => Begun history → kernel.currentPid ≠ none) ?_ initial
  · exact Option.ne_none_iff_exists'.mp (reached begun)
  · rintro history kernel event reply target before - stepped ⟨step, member, started⟩
    apply (processStep_moved stepped).current
    rcases List.mem_append.mp member with earlier | last
    · exact .inl (before ⟨step, earlier, started⟩)
    · rw [List.mem_singleton.mp last] at started
      exact .inr started

/-- Every kernel reachable from boot on a well-formed image is sound. -/
theorem Sound.of_run {memory screen : Memory} {start : Nat} {image : Image}
    {paging : PageTables} {printBuffer argBuf fname : Nat → UInt8} {currentDirReadIndex : Int}
    {trace : List (ProcessEvent × ProcessReply)} {final : Kernel}
    (loaded : Loaded memory start image) (wellFormed : image.WellFormed)
    (run : Run processStep (Kernel.boot (filesysInit memory start) paging screen printBuffer
      argBuf fname currentDirReadIndex) trace final) : Sound final := by
  apply run.invariant (fun sound _ stepped => Sound.step sound (processStep_moved stepped))
  exact Sound.boot (entriesHaveInodes_of_wellFormed loaded wellFormed) ..

/-- The process table is consistent in every reachable state, and once a first
process was started there is a current one. -/
theorem reachable_processInvariant {memory screen : Memory} {start : Nat} {image : Image}
    {paging : PageTables} {printBuffer argBuf fname : Nat → UInt8} {currentDirReadIndex : Int}
    {trace : List (ProcessEvent × ProcessReply)} {final : Kernel}
    (loaded : Loaded memory start image) (wellFormed : image.WellFormed)
    (run : Run processStep (Kernel.boot (filesysInit memory start) paging screen printBuffer
      argBuf fname currentDirReadIndex) trace final) :
    ProcessInvariant final ∧ (Begun trace → ∃ pid, final.currentPid = some pid) :=
  ⟨(Sound.of_run loaded wellFormed run).processInvariant, fun begun => begun.current run⟩

/-- With the root shell started there is a process to speak of. -/
theorem reachable_processInvariant_rootShell :
    ∃ final, final.userProcess = some 1 ∧ ProcessInvariant final := by
  obtain ⟨target, launched, isUser⟩ := shellKernel_launch
  exact ⟨target, isUser, (reachable_processInvariant shellMemory_loaded shellImage_wellFormed
    (.cons trivial launched (.nil target))).1⟩

end PonyOS.Process
