import PonyOS.Process.Atomic
import PonyOS.Syscall.Calls

/-!
# What one event does to descriptors

For every kind of event: which control blocks it touches, and what becomes of
their descriptor tables.  The results about whole runs use these descriptions
and not the definitions of the calls.
-/

namespace PonyOS.Syscall

open PonyOS.FileSystem
open PonyOS.Lib.Transition
open PonyOS.Lib.Word
open PonyOS.Process
open PonyOS.Terminal

/-! ## Process events -/

/-- The control blocks that matter carry the number of their slot. -/
structure PidsKnown (kernel : Kernel) : Prop where
  running : ∀ slot, kernel.processStatus slot = true → (kernel.pcb slot).pid = slot
  current : ∀ slot, kernel.currentPid = some slot → (kernel.pcb slot).pid = slot
  parent : ∀ slot parent, (kernel.pcb slot).parent = some parent →
    (kernel.pcb parent).pid = parent

/-- What a process event does to descriptor tables and slots. -/
structure ProcessEffect (kernel target : Kernel) (reply : ProcessReply) : Prop where
  fs : target.fs = kernel.fs
  dirIndex : target.currentDirReadIndex = kernel.currentDirReadIndex
  kept : ∀ slot, kernel.processStatus slot = true →
    (target.pcb slot).fileArray = (kernel.pcb slot).fileArray
  fresh : ∀ slot, kernel.processStatus slot = false → target.processStatus slot = true →
    (target.pcb slot).fileArray = (pcbInit (kernel.pcb slot) slot).fileArray
  alive : ∀ slot, kernel.processStatus slot = true →
    target.processStatus slot = true ∨
      (kernel.userProcess = some slot ∧ endsProcess reply = true)
  ended : ∀ slot, kernel.userProcess = some slot → endsProcess reply = true →
    target.processStatus slot = false
  started : ∀ slot, startedBy reply = some slot → kernel.processStatus slot = false
  known : PidsKnown target

/-- A part of the control blocks survives a replacement that respects it. -/
theorem setPcb_view {β : Type} (view : Pcb → β) (kernel : Kernel) {slot : Nat} {pcb : Pcb}
    (same : view pcb = view (kernel.pcb slot)) (other : Nat) :
    view ((kernel.setPcb slot pcb).pcb other) = view (kernel.pcb other) := by
  by_cases isSlot : other = slot
  · rw [isSlot, ← same]
    exact congrArg view (Function.update_self ..)
  · exact congrArg view (Function.update_of_ne isSlot ..)

/-- Descriptors and slot number of a control block. -/
def Pcb.core (pcb : Pcb) : (Nat → FileDesc) × Nat :=
  (pcb.fileArray, pcb.pid)

theorem linkProcess_core (kernel : Kernel) (pid terminalNum : Nat) (isTerminal : Int)
    (slot : Nat) :
    Pcb.core ((kernel.linkProcess pid terminalNum isTerminal).pcb slot) =
      Pcb.core (kernel.pcb slot) := by
  unfold Kernel.linkProcess
  cases kernel.currentPid with
  | none =>
      simp only
      rw [setPcb_view Pcb.core]
      rfl
  | some parent =>
      simp only
      split
      · rw [setPcb_view Pcb.core, setPcb_view Pcb.core]
        · rfl
        · rfl
      · rw [setPcb_view Pcb.core]
        rfl

theorem linkProcess_parent (kernel : Kernel) (pid terminalNum : Nat) (isTerminal : Int)
    (slot : Nat) :
    ((kernel.linkProcess pid terminalNum isTerminal).pcb slot).parent =
      if slot = pid then kernel.currentPid else (kernel.pcb slot).parent := by
  have first : ∀ current, ((kernel.setPcb pid { kernel.pcb pid with
      terminal := terminalNum, parent := current, isTerminal := isTerminal }).pcb slot).parent =
      if slot = pid then current else (kernel.pcb slot).parent := by
    intro current
    by_cases own : slot = pid
    · simp [Kernel.setPcb, own]
    · simp [Kernel.setPcb, own]
  unfold Kernel.linkProcess
  cases kernel.currentPid with
  | none => exact first none
  | some parent =>
      simp only
      split
      · rw [setPcb_view Pcb.parent]
        · exact first (some parent)
        · rfl
      · exact first (some parent)

theorem saveContext_view {β : Type} (view : Pcb → β)
    (registersIrrelevant : ∀ (pcb : Pcb) (parentEsp parentEbp currentEsp currentEbp : Nat),
      view { pcb with parentEsp := parentEsp, parentEbp := parentEbp, currentEsp := currentEsp,
                      currentEbp := currentEbp } = view pcb)
    (kernel : Kernel) (pid : Nat) (registers : Registers) (slot : Nat) :
    view ((kernel.saveContext pid registers).pcb slot) = view (kernel.pcb slot) := by
  unfold Kernel.saveContext
  cases kernel.currentPid with
  | none =>
      simp only
      rw [setPcb_view view, setPcb_view view]
      · exact registersIrrelevant ..
      · exact registersIrrelevant ..
  | some previous =>
      simp only
      rw [setPcb_view view, setPcb_view view, setPcb_view view]
      · exact registersIrrelevant ..
      · exact registersIrrelevant ..
      · exact registersIrrelevant ..

theorem claimProcess_parent (kernel : Kernel) (text : CString) (pid terminalNum slot : Nat) :
    ((kernel.claimProcess text pid terminalNum).pcb slot).parent = (kernel.pcb slot).parent := by
  by_cases own : slot = pid
  · simp [Kernel.claimProcess, own, pcbInit]
  · simp [Kernel.claimProcess, own]

theorem startProcess_core (kernel : Kernel) (pid terminalNum : Nat) (isTerminal : Int)
    (entry : Nat) (registers : Registers) (slot : Nat) :
    Pcb.core ((kernel.startProcess pid terminalNum isTerminal entry registers).pcb slot) =
      Pcb.core (kernel.pcb slot) :=
  (saveContext_view Pcb.core (fun _ _ _ _ _ => rfl) _ pid registers slot).trans
    (linkProcess_core kernel pid terminalNum isTerminal slot)

theorem startProcess_parent (kernel : Kernel) (pid terminalNum : Nat) (isTerminal : Int)
    (entry : Nat) (registers : Registers) (slot : Nat) :
    ((kernel.startProcess pid terminalNum isTerminal entry registers).pcb slot).parent =
      if slot = pid then kernel.currentPid else (kernel.pcb slot).parent :=
  (saveContext_view Pcb.parent (fun _ _ _ _ _ => rfl) _ pid registers slot).trans
    (linkProcess_parent kernel pid terminalNum isTerminal slot)

/-- Claiming a free slot, with or without the start that follows. -/
theorem ProcessEffect.of_claim {kernel target : Kernel} {reply : ProcessReply} {pid : Nat}
    (known : PidsKnown kernel) (free : kernel.processStatus pid = false)
    (fs : target.fs = kernel.fs)
    (dirIndex : target.currentDirReadIndex = kernel.currentDirReadIndex)
    (status : target.processStatus = Function.update kernel.processStatus pid true)
    (core : ∀ slot, Pcb.core (target.pcb slot) =
      Pcb.core (Function.update kernel.pcb pid (pcbInit (kernel.pcb pid) pid) slot))
    (parent : ∀ slot parent, (target.pcb slot).parent = some parent →
      (kernel.pcb slot).parent = some parent ∨ kernel.currentPid = some parent)
    (current : ∀ slot, target.currentPid = some slot →
      slot = pid ∨ kernel.currentPid = some slot)
    (goesOn : endsProcess reply = false)
    (started : ∀ slot, startedBy reply = some slot → slot = pid) :
    ProcessEffect kernel target reply := by
  have newCore : Pcb.core (target.pcb pid) = Pcb.core (pcbInit (kernel.pcb pid) pid) := by
    rw [core, Function.update_self]
  have oldCore : ∀ slot, slot ≠ pid → Pcb.core (target.pcb slot) = Pcb.core (kernel.pcb slot) := by
    intro slot notPid
    rw [core, Function.update_of_ne notPid]
  have knows : ∀ slot, (kernel.pcb slot).pid = slot → (target.pcb slot).pid = slot := by
    intro slot before
    by_cases own : slot = pid
    · rw [own]
      exact congrArg Prod.snd newCore
    · exact (congrArg Prod.snd (oldCore slot own)).trans before
  constructor
  · exact fs
  · exact dirIndex
  · intro slot isRunning
    have notPid : slot ≠ pid := by
      rintro rfl
      rw [isRunning] at free
      contradiction
    exact congrArg Prod.fst (oldCore slot notPid)
  · intro slot wasStopped isRunning
    have own : slot = pid := by
      by_contra notPid
      rw [status, Function.update_of_ne notPid, wasStopped] at isRunning
      contradiction
    rw [own]
    exact congrArg Prod.fst newCore
  · intro slot isRunning
    left
    rw [status]
    by_cases own : slot = pid
    · rw [own, Function.update_self]
    · rw [Function.update_of_ne own, isRunning]
  · intro slot isUser ends
    rw [goesOn] at ends
    contradiction
  · intro slot isStarted
    rw [started slot isStarted, free]
  · constructor
    · intro slot isRunning
      by_cases own : slot = pid
      · rw [own]
        exact congrArg Prod.snd newCore
      · rw [status, Function.update_of_ne own] at isRunning
        exact knows slot (known.running slot isRunning)
    · intro slot isCurrent
      rcases current slot isCurrent with own | before
      · rw [own]
        exact congrArg Prod.snd newCore
      · exact knows slot (known.current slot before)
    · intro slot waiting waitingEq
      rcases parent slot waiting waitingEq with before | wasCurrent
      · exact knows waiting (known.parent slot waiting before)
      · exact knows waiting (known.current waiting wasCurrent)

theorem ProcessEffect.of_core {kernel target : Kernel} {reply : ProcessReply}
    (known : PidsKnown kernel) (fs : target.fs = kernel.fs)
    (dirIndex : target.currentDirReadIndex = kernel.currentDirReadIndex)
    (core : ∀ slot, Pcb.core (target.pcb slot) = Pcb.core (kernel.pcb slot))
    (parent : ∀ slot, (target.pcb slot).parent = (kernel.pcb slot).parent)
    (current : ∀ slot, target.currentPid = some slot → (kernel.pcb slot).pid = slot)
    (ran : ∀ slot, target.processStatus slot = true → kernel.processStatus slot = true)
    (alive : ∀ slot, kernel.processStatus slot = true →
      target.processStatus slot = true ∨
        (kernel.userProcess = some slot ∧ endsProcess reply = true))
    (ended : ∀ slot, kernel.userProcess = some slot → endsProcess reply = true →
      target.processStatus slot = false)
    (noStart : startedBy reply = none) : ProcessEffect kernel target reply := by
  have knows : ∀ slot, (kernel.pcb slot).pid = slot → (target.pcb slot).pid = slot := by
    intro slot before
    exact (congrArg Prod.snd (core slot)).trans before
  constructor
  · exact fs
  · exact dirIndex
  · intro slot isRunning
    exact congrArg Prod.fst (core slot)
  · intro slot wasStopped isRunning
    rw [ran slot isRunning] at wasStopped
    contradiction
  · exact alive
  · exact ended
  · intro slot isStarted
    rw [noStart] at isStarted
    contradiction
  · constructor
    · intro slot isRunning
      exact knows slot (known.running slot (ran slot isRunning))
    · intro slot isCurrent
      exact knows slot (current slot isCurrent)
    · intro slot waiting waitingEq
      rw [parent] at waitingEq
      exact knows waiting (known.parent slot waiting waitingEq)

theorem ProcessEffect.of_same {kernel target : Kernel} {reply : ProcessReply}
    (known : PidsKnown kernel) (fs : target.fs = kernel.fs)
    (dirIndex : target.currentDirReadIndex = kernel.currentDirReadIndex)
    (pcb : target.pcb = kernel.pcb) (current : target.currentPid = kernel.currentPid)
    (status : target.processStatus = kernel.processStatus)
    (goesOn : endsProcess reply = false) (noStart : startedBy reply = none) :
    ProcessEffect kernel target reply := by
  apply ProcessEffect.of_core known fs dirIndex
  · intro slot
    rw [pcb]
  · intro slot
    rw [pcb]
  · intro slot isCurrent
    rw [current] at isCurrent
    exact known.current slot isCurrent
  · intro slot isRunning
    rw [status] at isRunning
    exact isRunning
  · intro slot isRunning
    left
    rw [status]
    exact isRunning
  · intro slot isUser ends
    rw [goesOn] at ends
    contradiction
  · exact noStart

theorem ProcessEffect.executed {kernel target : Kernel} {reply : ProcessReply}
    (terminals : Terminals) {registers : Registers} {tempBuf : Nat → UInt8}
    {command : Option CString} {terminalNum : Nat} {isTerminal : Int} {outcome : ExecuteReply}
    (known : PidsKnown kernel)
    (ended : executeWithTerminalNum { kernel with terminals := terminals } registers tempBuf
      command terminalNum isTerminal = some (outcome, target))
    (goesOn : endsProcess reply = false) (started : startedBy reply = startedPid outcome) :
    ProcessEffect kernel target reply := by
  rcases executeWithTerminalNum_cases ended with
    ⟨rfl, fname, rfl⟩ | ⟨text, pid, rfl, free, ⟨rfl, -, -, rfl⟩ | ⟨entry, rfl, rfl⟩⟩
  · exact .of_same known rfl rfl rfl rfl rfl goesOn started
  · have stopped := (Kernel.getEmptyPid_eq_some free).2.2
    apply ProcessEffect.of_claim known stopped
    · rfl
    · rfl
    · rfl
    · intro slot
      rfl
    · intro slot parent parentEq
      left
      rw [claimProcess_parent] at parentEq
      exact parentEq
    · intro slot isCurrent
      exact .inr isCurrent
    · exact goesOn
    · intro slot isStarted
      rw [started] at isStarted
      contradiction
  · have stopped := (Kernel.getEmptyPid_eq_some free).2.2
    apply ProcessEffect.of_claim known stopped
    · rw [Kernel.startProcess_eq]
      rfl
    · rw [Kernel.startProcess_eq]
      rfl
    · rw [Kernel.startProcess_eq]
      rfl
    · intro slot
      rw [startProcess_core]
      rfl
    · intro slot parent parentEq
      rw [startProcess_parent] at parentEq
      split at parentEq
      · exact .inr parentEq
      · rw [claimProcess_parent] at parentEq
        exact .inl parentEq
    · intro slot isCurrent
      rw [Kernel.startProcess_eq] at isCurrent
      exact .inl (Option.some.inj isCurrent).symm
    · exact goesOn
    · intro slot isStarted
      rw [started] at isStarted
      exact (Option.some.inj isStarted).symm

theorem stopProcess_running {kernel : Kernel} {pid slot : Nat} :
    (kernel.stopProcess pid).processStatus slot = true ↔
      slot ≠ pid ∧ kernel.processStatus slot = true := by
  by_cases own : slot = pid
  · simp [Kernel.stopProcess, own]
  · simp [Kernel.stopProcess, own]

theorem stopProcess_ended {kernel : Kernel} {caller slot : Nat}
    (pidField : (kernel.pcb caller).pid = caller) (isUser : kernel.userProcess = some caller)
    (isSlot : kernel.userProcess = some slot) :
    (kernel.stopProcess (kernel.pcb caller).pid).processStatus slot = false := by
  rw [pidField, ← Option.some.inj (isUser.symm.trans isSlot)]
  exact Function.update_self ..

theorem stopProcess_alive {kernel : Kernel} {caller slot : Nat} {reply : ProcessReply}
    (pidField : (kernel.pcb caller).pid = caller) (isUser : kernel.userProcess = some caller)
    (ends : endsProcess reply = true) (wasRunning : kernel.processStatus slot = true) :
    (kernel.stopProcess (kernel.pcb caller).pid).processStatus slot = true ∨
      (kernel.userProcess = some slot ∧ endsProcess reply = true) := by
  by_cases own : slot = caller
  · right
    rw [own]
    exact ⟨isUser, ends⟩
  · left
    rw [pidField]
    exact stopProcess_running.mpr ⟨own, wasRunning⟩

theorem returnToParent_core (kernel : Kernel) (parent slot : Nat) :
    Pcb.core ((kernel.returnToParent parent).pcb slot) = Pcb.core (kernel.pcb slot) := by
  apply setPcb_view Pcb.core (kernel.onConsole _)
  rfl

theorem returnToParent_parent (kernel : Kernel) (parent slot : Nat) :
    ((kernel.returnToParent parent).pcb slot).parent = (kernel.pcb slot).parent := by
  apply setPcb_view Pcb.parent (kernel.onConsole _)
  rfl

theorem ProcessEffect.spinning {kernel : Kernel} {caller : Nat} (known : PidsKnown kernel)
    (pidField : (kernel.pcb caller).pid = caller) (isUser : kernel.userProcess = some caller) :
    ProcessEffect kernel (kernel.stopRoot (kernel.pcb caller).pid) (.halted .spinning) := by
  apply ProcessEffect.of_core known
  · rfl
  · rfl
  · intro slot
    rfl
  · intro slot
    rfl
  · exact known.current
  · intro slot stillRuns
    exact (stopProcess_running.mp stillRuns).2
  · intro slot wasRunning
    exact stopProcess_alive pidField isUser rfl wasRunning
  · intro slot isSlot ends
    exact stopProcess_ended pidField isUser isSlot
  · rfl

theorem switchProcess_view {β : Type} (view : Pcb → β)
    (registersIrrelevant : ∀ (pcb : Pcb) (esp ebp : Nat),
      view { pcb with currentEsp := esp, currentEbp := ebp } = view pcb)
    (kernel : Kernel) (previous pid : Nat) (registers : Registers) (slot : Nat) :
    view ((kernel.switchProcess previous pid registers).pcb slot) = view (kernel.pcb slot) := by
  apply setPcb_view view (kernel.onConsole _)
  exact registersIrrelevant ..

theorem ProcessEffect.halted {kernel target : Kernel} {caller : Nat} {tempBuf : Nat → UInt8}
    {status : Int} {outcome : HaltReply} (known : PidsKnown kernel)
    (isUser : kernel.userProcess = some caller)
    (ended : halt kernel tempBuf status = some (outcome, target)) :
    ProcessEffect kernel target (.halted outcome) := by
  obtain ⟨isCurrent, isRunning⟩ := Kernel.userProcess_eq_some.mp isUser
  have pidField := known.running caller isRunning
  rcases halt_cases isCurrent ended with
    ⟨-, entry, rfl, rfl⟩ | ⟨-, -, rfl, rfl⟩ | ⟨-, -, parent, parentEq, rfl, rfl⟩
  · exact .of_same known rfl rfl rfl rfl rfl rfl rfl
  · exact .spinning known pidField isUser
  · apply ProcessEffect.of_core known
    · rfl
    · rfl
    · exact returnToParent_core _ parent
    · exact returnToParent_parent _ parent
    · intro slot isNow
      have parentKnown := known.parent caller parent parentEq
      have now : some (kernel.pcb parent).pid = some slot := isNow
      rw [parentKnown] at now
      rw [← Option.some.inj now]
      exact parentKnown
    · intro slot stillRuns
      exact (stopProcess_running.mp stillRuns).2
    · intro slot wasRunning
      exact stopProcess_alive pidField isUser rfl wasRunning
    · intro slot isSlot ends
      exact stopProcess_ended pidField isUser isSlot
    · rfl

/-- Every process event, provided the control blocks know their slots. -/
theorem ProcessEffect.of_moved {kernel target : Kernel} {event : ProcessEvent}
    {reply : ProcessReply} (known : PidsKnown kernel) (moved : Moved kernel target event reply) :
    ProcessEffect kernel target reply := by
  cases moved with
  | launched registers tempBuf outcome noCurrent ended =>
      exact .executed kernel.terminals known ended rfl rfl
  | executed caller registers tempBuf command outcome isUser ended =>
      exact .executed kernel.terminals known ended rfl rfl
  | halted caller tempBuf status outcome isUser ended => exact .halted known isUser ended
  | cleared isClearing targetEq =>
      rw [targetEq]
      apply ProcessEffect.of_same known
      · rw [Kernel.clearScreen, Kernel.onConsole_fs]
      · rw [Kernel.clearScreen, Kernel.onConsole_currentDirReadIndex]
      · exact kernel.clearScreen_pcb
      · exact kernel.clearScreen_currentPid
      · exact kernel.clearScreen_processStatus
      · rfl
      · rfl
  | keyed registers tempBuf c outcome ended =>
      obtain ⟨result, -, ⟨-, rfl, rfl⟩ | ⟨terminalId, started, -, rfl, executed⟩⟩ :=
        keyboardInterrupt_cases ended
      · exact .of_same known rfl rfl rfl rfl rfl rfl rfl
      · exact .executed _ known executed rfl rfl
  | ticked registers loaded ended =>
      rcases pitHandler_cases ended with
        ⟨-, rfl⟩ | ⟨previous, pid, -, -, isRunning, -, rfl, -⟩
      · exact .of_same known rfl rfl rfl rfl rfl rfl rfl
      · apply ProcessEffect.of_core known
        · rfl
        · rfl
        · intro slot
          exact switchProcess_view Pcb.core (fun _ _ _ => rfl) kernel previous pid registers slot
        · intro slot
          exact switchProcess_view Pcb.parent (fun _ _ _ => rfl) kernel previous pid registers slot
        · intro slot isNow
          cases isNow
          exact known.running pid (Kernel.processStatus_of_isRunning isRunning)
        · intro slot stillRuns
          exact stillRuns
        · intro slot wasRunning
          exact .inl wasRunning
        · intro slot isSlot ends
          contradiction
        · rfl

/-! ## Calls -/

/-- Memory that belongs to the user: the page of the process and the window on
its screen. -/
def UserAddress (address : Nat) : Prop :=
  InUserPage address ∨ InVideoWindow address

/-- Stores into user memory can only change the screen. -/
theorem userStores_of_user {stores : List Store} {kernel target : Kernel}
    (user : ∀ store ∈ stores, UserAddress store.address)
    (stored : userStores kernel stores = some target) :
    ∃ console, target =
      { kernel with terminals := { kernel.terminals with console := console } } := by
  induction stores generalizing kernel with
  | nil =>
      cases stored
      exact ⟨target.terminals.console, rfl⟩
  | cons store rest ih =>
      have here := user store (List.mem_cons_self ..)
      have later : ∀ other ∈ rest, UserAddress other.address := fun other member =>
        user other (List.mem_cons_of_mem store member)
      rw [userStores, List.foldlM_cons] at stored
      obtain ⟨middle, first, remaining⟩ := Option.bind_eq_some_iff.mp stored
      obtain ⟨console, targetEq⟩ := ih later remaining
      unfold userStore at first
      split at first
      · cases first
        exact ⟨console, targetEq⟩
      · next notPage =>
          rw [if_pos (here.resolve_left notPage)] at first
          cases first
          exact ⟨console, targetEq⟩

/-- Such stores always succeed. -/
theorem userStores_isSome {stores : List Store} (kernel : Kernel)
    (user : ∀ store ∈ stores, UserAddress store.address) :
    (userStores kernel stores).isSome = true := by
  induction stores generalizing kernel with
  | nil => rfl
  | cons store rest ih =>
      have here := user store (List.mem_cons_self ..)
      have later : ∀ other ∈ rest, UserAddress other.address := fun other member =>
        user other (List.mem_cons_of_mem store member)
      have first : (userStore kernel store).isSome = true := by
        unfold userStore
        split
        · rfl
        · next notPage =>
            rw [if_pos (here.resolve_left notPage)]
            rfl
      obtain ⟨middle, middleEq⟩ := Option.isSome_iff_exists.mp first
      rw [userStores, List.foldlM_cons, middleEq]
      exact ih middle later

/-- Two kernels with the same processes and files. -/
structure SameTables (kernel other : Kernel) : Prop where
  fs : other.fs = kernel.fs
  pcb : other.pcb = kernel.pcb
  status : other.processStatus = kernel.processStatus
  current : other.currentPid = kernel.currentPid

/-- The enumeration position after a read. -/
def dirIndexAfterRead (kernel : Kernel) (tried : Attempt) : Int :=
  if tried.called = some .dirReadWrapper ∧ tried.stores ≠ [] then kernel.currentDirReadIndex + 1
  else kernel.currentDirReadIndex

theorem dirRead_same (kernel : Kernel) (memory : Memory) (buf : Nat) :
    SameTables kernel (dirRead kernel memory buf).kernel ∧
      (dirRead kernel memory buf).kernel.currentDirReadIndex =
        dirIndexAfterRead kernel (dirRead kernel memory buf) := by
  unfold dirRead
  split
  · exact ⟨⟨rfl, rfl, rfl, rfl⟩, by simp [dirIndexAfterRead]⟩
  · split
    · exact ⟨⟨rfl, rfl, rfl, rfl⟩, by simp [dirIndexAfterRead]⟩
    · refine ⟨⟨rfl, rfl, rfl, rfl⟩, ?_⟩
      have someStore : ∀ dentry : Dentry, storesAt buf (dentry.fileName ++ [0]) ≠ [] := by
        intro dentry empty
        have length := congrArg List.length empty
        simp at length
      simp [dirIndexAfterRead, someStore]

/-- Reading touches no table. -/
theorem read_same {kernel : Kernel} {pid : Nat} {memory : Memory} {fd : Int} {buf : Nat}
    {nbytes : Int} {tried : Attempt}
    (attempted : read kernel pid memory fd buf nbytes = some tried) :
    SameTables kernel tried.kernel ∧
      tried.kernel.currentDirReadIndex = dirIndexAfterRead kernel tried := by
  have unchanged : ∀ tried : Attempt, tried.called ≠ some .dirReadWrapper →
      tried.kernel.currentDirReadIndex = kernel.currentDirReadIndex →
      tried.kernel.currentDirReadIndex = dirIndexAfterRead kernel tried := by
    intro tried other same
    rw [dirIndexAfterRead, if_neg (fun both => other both.1), same]
  rcases read_cases attempted with ⟨-, rfl⟩ | ⟨-, -, called⟩
  · exact ⟨⟨rfl, rfl, rfl, rfl⟩, unchanged _ (by simp [refused]) rfl⟩
  · cases callRead_cases called with
    | terminal isTerminal ready => exact ⟨⟨rfl, rfl, rfl, rfl⟩, unchanged _ (by simp) rfl⟩
    | rtc isRtc ticked => exact ⟨⟨rfl, rfl, rfl, rfl⟩, unchanged _ (by simp) rfl⟩
    | file isFile => exact ⟨⟨rfl, rfl, rfl, rfl⟩, unchanged _ (by simp [filesysRead]) rfl⟩
    | directory isDirectory => exact dirRead_same kernel memory buf

/-- Neither does writing. -/
theorem write_same {kernel : Kernel} {pid : Nat} {memory : Memory} {fd : Int} {buf : Nat}
    {nbytes : Int} {tried : Attempt}
    (attempted : write kernel pid memory fd buf nbytes = some tried) :
    SameTables kernel tried.kernel ∧
      tried.kernel.currentDirReadIndex = kernel.currentDirReadIndex ∧ tried.stores = [] := by
  rcases write_cases attempted with ⟨-, rfl⟩ | ⟨-, -, called⟩
  · exact ⟨⟨rfl, rfl, rfl, rfl⟩, rfl, rfl⟩
  · cases callWrite_cases called with
    | terminal value terminals isTerminal written => exact ⟨⟨rfl, rfl, rfl, rfl⟩, rfl, rfl⟩
    | rtc isRtc => exact ⟨⟨rfl, rfl, rfl, rfl⟩, rfl, rfl⟩
    | file isFile => exact ⟨⟨rfl, rfl, rfl, rfl⟩, rfl, rfl⟩
    | directory isDirectory => exact ⟨⟨rfl, rfl, rfl, rfl⟩, rfl, rfl⟩

/-- The descriptors of the caller after a call. -/
def filesAfter (fs : Volume) (files : Nat → FileDesc) (call : Call) (value : Int) :
    Nat → FileDesc :=
  if value = -1 then files
  else
    match call with
    | .read fd _ _ => Function.update files fd.toNat
        { files fd.toNat with filePosition := int32 ((files fd.toNat).filePosition + value) }
    | .openFile filename =>
        match fs.readDentryByName filename with
        | none => files
        | some dentry => Function.update files value.toNat
            (openedDescriptor (files value.toNat) dentry)
    | .close fd => Function.update files fd.toNat { files fd.toNat with flags := 0 }
    | _ => files

/-- The enumeration position after a call. -/
def dirIndexAfter (fs : Volume) (index : Int) (call : Call) (reply : CallReply) : Int :=
  match call with
  | .read _ _ _ =>
      if reply.called = some .dirReadWrapper ∧ reply.stores ≠ [] then index + 1 else index
  | .openFile filename =>
      match fs.readDentryByName filename with
      | none => index
      | some dentry => if reply.value ≠ -1 ∧ dentry.fileType = dirType then 0 else index
  | _ => index

/-- What a call does: it changes the descriptors of its caller and the
enumeration position. -/
structure CallEffect (kernel target : Kernel) (pid : Nat) (call : Call) (reply : CallReply) :
    Prop where
  caller : reply.pid = pid
  fs : target.fs = kernel.fs
  status : target.processStatus = kernel.processStatus
  current : target.currentPid = kernel.currentPid
  others : ∀ slot, slot ≠ pid → target.pcb slot = kernel.pcb slot
  parent : (target.pcb pid).parent = (kernel.pcb pid).parent
  pidField : (target.pcb pid).pid = (kernel.pcb pid).pid
  files : (target.pcb pid).fileArray =
    filesAfter kernel.fs (kernel.pcb pid).fileArray call reply.value
  dirIndex : target.currentDirReadIndex =
    dirIndexAfter kernel.fs kernel.currentDirReadIndex call reply

/-- A call in its two halves. -/
theorem systemCall_eq_some {kernel target : Kernel} {pid : Nat} {memory : Memory} {call : Call}
    {reply : CallReply} (called : systemCall kernel pid memory call = some (reply, target)) :
    ∃ tried stored, attempt kernel pid memory call = some tried ∧
      userStores tried.kernel tried.stores = some stored ∧
      reply = { pid := pid, value := tried.value, called := tried.called, stores := tried.stores } ∧
      target = finish stored pid call tried := by
  unfold systemCall at called
  split at called
  · contradiction
  · next tried attempted =>
      obtain ⟨stored, storedEq, outcomeEq⟩ := Option.map_eq_some_iff.mp called
      exact ⟨tried, stored, attempted, storedEq, (congrArg Prod.fst outcomeEq).symm,
        (congrArg Prod.snd outcomeEq).symm⟩

theorem CallEffect.of_same {kernel target : Kernel} {pid : Nat} {call : Call}
    {reply : CallReply} (caller : reply.pid = pid) (same : SameTables kernel target)
    (files : filesAfter kernel.fs (kernel.pcb pid).fileArray call reply.value =
      (kernel.pcb pid).fileArray)
    (dirIndex : target.currentDirReadIndex =
      dirIndexAfter kernel.fs kernel.currentDirReadIndex call reply) :
    CallEffect kernel target pid call reply := by
  constructor
  · exact caller
  · exact same.fs
  · exact same.status
  · exact same.current
  · intro slot other
    rw [same.pcb]
  · rw [same.pcb]
  · rw [same.pcb]
  · rw [same.pcb, files]
  · exact dirIndex

theorem CallEffect.of_descriptor {kernel middle : Kernel} {pid fd : Nat} {call : Call}
    {reply : CallReply} {desc : FileDesc} (caller : reply.pid = pid)
    (same : SameTables kernel middle)
    (files : filesAfter kernel.fs (kernel.pcb pid).fileArray call reply.value =
      Function.update (kernel.pcb pid).fileArray fd desc)
    (dirIndex : middle.currentDirReadIndex =
      dirIndexAfter kernel.fs kernel.currentDirReadIndex call reply) :
    CallEffect kernel (setDescriptor middle pid fd desc) pid call reply := by
  have own : (setDescriptor middle pid fd desc).pcb pid =
      { middle.pcb pid with
        fileArray := Function.update (middle.pcb pid).fileArray fd desc } :=
    Function.update_self ..
  constructor
  · exact caller
  · exact same.fs
  · exact same.status
  · exact same.current
  · intro slot other
    rw [← same.pcb]
    exact Function.update_of_ne other ..
  · rw [own, same.pcb]
  · rw [own, same.pcb]
  · rw [own, files, same.pcb]
  · exact dirIndex

theorem SameTables.stored {kernel middle target : Kernel} {stores : List Store}
    (same : SameTables kernel middle) (user : ∀ store ∈ stores, UserAddress store.address)
    (stored : userStores middle stores = some target) :
    SameTables kernel target ∧ target.currentDirReadIndex = middle.currentDirReadIndex := by
  obtain ⟨console, rfl⟩ := userStores_of_user user stored
  exact ⟨⟨same.fs, same.pcb, same.status, same.current⟩, rfl⟩

theorem SameTables.refl (kernel : Kernel) : SameTables kernel kernel :=
  ⟨rfl, rfl, rfl, rfl⟩

/-- While the terminal's descriptors are open, only others are free. -/
theorem two_le_of_free {fileArray : Nat → FileDesc} {fd : Nat}
    (stdin : (fileArray 0).flags = 1) (stdout : (fileArray 1).flags = 1)
    (clear : (fileArray fd).flags = 0) : 2 ≤ fd := by
  by_contra low
  have cases : fd = 0 ∨ fd = 1 := by omega
  rcases cases with rfl | rfl
  · rw [stdin] at clear
    contradiction
  · rw [stdout] at clear
    contradiction

/-- `open` refuses, or takes the descriptor that its scan finds. -/
theorem openFile_cases (kernel : Kernel) (pid : Nat) (filename : CString) :
    ((kernel.fs.readDentryByName filename = none ∨
          freeDescriptor (kernel.pcb pid).fileArray = none) ∧
        openFile kernel pid filename = refused kernel) ∨
      ∃ dentry i, kernel.fs.readDentryByName filename = some dentry ∧
        freeDescriptor (kernel.pcb pid).fileArray = some i ∧
        openFile kernel pid filename =
          { value := i, called := none, stores := []
            kernel := takeDescriptor kernel pid i dentry } := by
  unfold openFile
  cases found : kernel.fs.readDentryByName filename with
  | none => exact .inl ⟨.inl rfl, rfl⟩
  | some dentry =>
      cases free : freeDescriptor (kernel.pcb pid).fileArray with
      | none => exact .inl ⟨.inr rfl, rfl⟩
      | some i => exact .inr ⟨dentry, i, rfl, rfl, rfl⟩

theorem CallEffect.of_open {kernel : Kernel} {pid i : Nat} {filename : CString}
    {dentry : Dentry} {reply : CallReply} (caller : reply.pid = pid) (value : reply.value = i)
    (found : kernel.fs.readDentryByName filename = some dentry) :
    CallEffect kernel (takeDescriptor kernel pid i dentry) pid (.openFile filename) reply := by
  have notFailed : reply.value ≠ -1 := by omega
  constructor
  · exact caller
  · rfl
  · rfl
  · rfl
  · intro slot other
    exact Function.update_of_ne other ..
  · simp [takeDescriptor, Kernel.setPcb]
  · simp [takeDescriptor, Kernel.setPcb]
  · have position : reply.value.toNat = i := by omega
    simp [filesAfter, notFailed, found, position, takeDescriptor, Kernel.setPcb]
  · simp [dirIndexAfter, found, notFailed, takeDescriptor]

theorem CallEffect.of_refused {kernel : Kernel} {pid : Nat} {call : Call} {reply : CallReply}
    (caller : reply.pid = pid) (failed : reply.value = -1) (called : reply.called = none) :
    CallEffect kernel kernel pid call reply := by
  apply CallEffect.of_same caller (SameTables.refl kernel)
  · unfold filesAfter
    rw [if_pos failed]
  · cases call with
    | read fd buf nbytes => simp [dirIndexAfter, called]
    | openFile filename =>
        simp only [dirIndexAfter, failed]
        split <;> simp
    | _ => rfl

theorem CallEffect.of_stored {kernel stored : Kernel} {pid : Nat} {call : Call} {tried : Attempt}
    (same : SameTables kernel tried.kernel)
    (dirIndex : tried.kernel.currentDirReadIndex = kernel.currentDirReadIndex)
    (files : ∀ value, filesAfter kernel.fs (kernel.pcb pid).fileArray call value =
      (kernel.pcb pid).fileArray)
    (keepsIndex : ∀ reply, dirIndexAfter kernel.fs kernel.currentDirReadIndex call reply =
      kernel.currentDirReadIndex)
    (user : ∀ store ∈ tried.stores, UserAddress store.address)
    (storedEq : userStores tried.kernel tried.stores = some stored) :
    CallEffect kernel stored pid call
      { pid := pid, value := tried.value, called := tried.called, stores := tried.stores } := by
  obtain ⟨sameStored, indexStored⟩ := same.stored user storedEq
  refine CallEffect.of_same ?_ sameStored ?_ ?_
  · rfl
  · exact files tried.value
  · rw [keepsIndex, indexStored, dirIndex]

theorem getargs_same (kernel : Kernel) (pid buf : Nat) (nbytes : Int) :
    (getargs kernel pid buf nbytes).kernel = kernel := by
  unfold getargs
  split
  · rfl
  · split
    · rfl
    · rfl

theorem vidmap_same (kernel : Kernel) (screenstart : Nat) :
    (vidmap kernel screenstart).kernel = kernel := by
  unfold vidmap
  split
  · rfl
  · split
    · rfl
    · rfl

/-- Every call, provided that it stores into user memory only. -/
theorem systemCall_effect {kernel target : Kernel} {pid : Nat} {memory : Memory} {call : Call}
    {reply : CallReply} (called : systemCall kernel pid memory call = some (reply, target))
    (user : ∀ store ∈ reply.stores, UserAddress store.address) :
    CallEffect kernel target pid call reply := by
  obtain ⟨tried, stored, attempted, storedEq, rfl, rfl⟩ := systemCall_eq_some called
  cases call with
  | read fd buf nbytes =>
      obtain ⟨same, dirIndex⟩ := read_same attempted
      obtain ⟨sameStored, indexStored⟩ := same.stored user storedEq
      simp only [finish, advance]
      split
      · next failed =>
          refine .of_same ?_ sameStored ?_ ?_
          · rfl
          · unfold filesAfter
            rw [if_pos failed]
          · rw [indexStored, dirIndex]
            rfl
      · next returned =>
          refine .of_descriptor ?_ sameStored ?_ ?_
          · rfl
          · simp only [filesAfter, returned, if_false, sameStored.pcb]
          · rw [indexStored, dirIndex]
            rfl
  | write fd buf nbytes =>
      obtain ⟨same, dirIndex, -⟩ := write_same attempted
      apply CallEffect.of_stored same dirIndex _ _ user storedEq
      · intro value
        exact ite_self _
      · intro reply
        rfl
  | openFile filename =>
      have triedEq := Option.some.inj attempted
      rcases openFile_cases kernel pid filename with
        ⟨-, opened⟩ | ⟨dentry, i, found, -, opened⟩
      · rw [← triedEq, opened] at storedEq ⊢
        cases storedEq
        exact .of_refused rfl rfl rfl
      · rw [← triedEq, opened] at storedEq ⊢
        cases storedEq
        exact .of_open rfl rfl found
  | close fd =>
      have triedEq := Option.some.inj attempted
      rw [close] at triedEq
      split at triedEq
      · rw [← triedEq] at storedEq ⊢
        cases storedEq
        exact .of_refused rfl rfl rfl
      · rw [← triedEq] at storedEq ⊢
        cases storedEq
        refine .of_descriptor ?_ (SameTables.refl kernel) ?_ ?_
        · rfl
        · rfl
        · rfl
  | getargs buf nbytes =>
      have sameKernel : tried.kernel = kernel := by
        rw [← Option.some.inj attempted]
        exact getargs_same kernel pid buf nbytes
      apply CallEffect.of_stored _ _ _ _ user storedEq
      · rw [sameKernel]
        exact SameTables.refl kernel
      · rw [sameKernel]
      · intro value
        exact ite_self _
      · intro reply
        rfl
  | vidmap screenstart =>
      have sameKernel : tried.kernel = kernel := by
        rw [← Option.some.inj attempted]
        exact vidmap_same kernel screenstart
      apply CallEffect.of_stored _ _ _ _ user storedEq
      · rw [sameKernel]
        exact SameTables.refl kernel
      · rw [sameKernel]
      · intro value
        exact ite_self _
      · intro reply
        rfl

theorem CallEffect.known {kernel target : Kernel} {pid : Nat} {call : Call} {reply : CallReply}
    (effect : CallEffect kernel target pid call reply) (known : PidsKnown kernel) :
    PidsKnown target := by
  have samePid : ∀ slot, (target.pcb slot).pid = (kernel.pcb slot).pid := by
    intro slot
    by_cases own : slot = pid
    · rw [own, effect.pidField]
    · rw [effect.others slot own]
  have sameParent : ∀ slot, (target.pcb slot).parent = (kernel.pcb slot).parent := by
    intro slot
    by_cases own : slot = pid
    · rw [own, effect.parent]
    · rw [effect.others slot own]
  constructor
  · intro slot isRunning
    rw [effect.status] at isRunning
    rw [samePid, known.running slot isRunning]
  · intro slot isCurrent
    rw [effect.current] at isCurrent
    rw [samePid, known.current slot isCurrent]
  · intro slot parent parentEq
    rw [sameParent] at parentEq
    rw [samePid, known.parent slot parent parentEq]

theorem PidsKnown.boot (fs : Volume) (paging : PonyOS.Paging.PageTables) (memory : Memory)
    (printBuffer argBuf fname : Nat → UInt8) (currentDirReadIndex : Int) :
    PidsKnown (Kernel.boot fs paging memory printBuffer argBuf fname currentDirReadIndex) := by
  constructor
  · exact fun slot isRunning => nomatch isRunning
  · exact fun slot isCurrent => nomatch isCurrent
  · exact fun slot parent parentEq => nomatch parentEq

end PonyOS.Syscall
