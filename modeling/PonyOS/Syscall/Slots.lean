import Mathlib.Data.List.Find
import PonyOS.Process.Atomic
import PonyOS.Process.Executables
import PonyOS.Process.Shells
import PonyOS.Process.Similar
import PonyOS.Syscall.Buffers
import PonyOS.Syscall.Footprint

/-!
# A new process and the past of its slot

The control block in a free slot holds whatever was there before, and so does
the kernel stack above it.  `pcb_init` sets the process number, the handlers of
descriptors 0 and 1 and all the flags; the rest of the start fills in terminal,
parent and registers.  What remains of the past is the child, which the scheduler
tests, and the handlers of closed descriptors.  Those come alive again when `open`
finds a file of a type it does not know, or when a call is made to store into the
flags of a descriptor.  The bytes themselves can be seen by a call with a pointer
into the slot, and those on the stack by a check of a header that its file does
not fill.
-/

namespace PonyOS.Syscall

open PonyOS.FileSystem
open PonyOS.Lib.Transition
open PonyOS.Lib.Word
open PonyOS.Process
open PonyOS.Terminal

/-! ## What can differ -/

/-- Addresses of a slot: its control block and the kernel stack above it. -/
def InSlot (pid address : Nat) : Prop :=
  getKernelStackBottom pid ≤ address ∧ address < getKernelStackBottom pid + assignedPcbSize

/-- The event with other bytes left over on the stack. -/
def onStack (tempBuf : Nat → UInt8) : ProcessEvent → ProcessEvent
  | .bootLaunch registers _ => .bootLaunch registers tempBuf
  | .execute registers _ command => .execute registers tempBuf command
  | .halt _ status => .halt tempBuf status
  | .clear => .clear
  | .key registers _ c => .key registers tempBuf c
  | .tick registers => .tick registers

/-- Events that are the same but for what a slot holds: the bytes that pointers
into the slot see, and those left over on the stack while it is in the slot.  The
names and commands that they carry come from elsewhere. -/
inductive SeenAlike (pid : Nat) (kernel : Kernel) : SystemEvent → SystemEvent → Prop
  | same (event : SystemEvent) : SeenAlike pid kernel event event
  | stack (event : ProcessEvent) (tempBuf : Nat → UInt8) : kernel.currentPid = some pid →
      SeenAlike pid kernel (.process event) (.process (onStack tempBuf event))
  | memory (memory other : Memory) (call : Call) :
      (∀ address, ¬ InSlot pid address → memory address = other address) →
      SeenAlike pid kernel (.call memory call) (.call other call)

/-- User memory, and the inode and position fields of descriptors. -/
def Harmless (address : Nat) : Prop :=
  UserAddress address ∨
    ∃ slot fd offset, 8 ≤ offset ∧ offset < 16 ∧ descriptorAt address = some (slot, fd, offset)

/-- The buffer that a call fills lies there. -/
def StoresHarmlessly (kernel : Kernel) : SystemEvent → Prop
  | .call _ asked => ∀ pid, kernel.userProcess = some pid →
      ∀ k, k < fillLength kernel pid asked → Harmless ((asked.buffer + k) % 4294967296)
  | _ => True

/-- A file that is opened has one of the three types. -/
def OpensKnownType (kernel : Kernel) : SystemEvent → Prop
  | .call _ (.openFile filename) =>
      ∀ dentry, kernel.fs.readDentryByName filename = some dentry →
        dentry.fileType = rtcType ∨ dentry.fileType = regType ∨ dentry.fileType = dirType
  | _ => True

/-- No byte that a call reads through its pointer lies in the slot. -/
def ReadsOutside (pid : Nat) (kernel : Kernel) : SystemEvent → Prop
  | .call memory asked => ∀ caller, kernel.userProcess = some caller →
      ∀ k, k < extent kernel caller memory asked →
        ¬ InSlot pid ((asked.source + k) % 4294967296)
  | _ => True

/-- The header of a program that an event may start is all in its file. -/
def HeaderComplete (kernel : Kernel) : SystemEvent → Prop
  | .process (.execute _ _ command) =>
      ∀ dentry, commandEntry kernel.fs command = some dentry → CompleteHeader kernel.fs dentry
  | .process (.halt _ _) => kernel.totalRunningProcess = 1 →
      ∃ dentry, commandEntry kernel.fs (some shellCommand) = some dentry ∧
        CompleteHeader kernel.fs dentry
  | .process (.bootLaunch _ _) | .process (.key _ _ _) =>
      ∀ dentry, commandEntry kernel.fs (some shellCommand) = some dentry →
        CompleteHeader kernel.fs dentry
  | _ => True

/-- Events that neither bring a closed descriptor back to life nor look at what
the slot held. -/
structure IgnoresSlot (pid : Nat) (kernel : Kernel) (event : SystemEvent) : Prop where
  stores : StoresHarmlessly kernel event
  opens : OpensKnownType kernel event
  reads : ReadsOutside pid kernel event
  header : kernel.currentPid = some pid → HeaderComplete kernel event

/-! ## Events that are seen alike -/

/-- The bytes on the stack do not matter where headers are complete. -/
theorem processStep_onStack {kernel : Kernel} {event : ProcessEvent}
    (complete : HeaderComplete kernel (.process event)) (tempBuf : Nat → UInt8) :
    processStep kernel (onStack tempBuf event) = processStep kernel event := by
  cases event with
  | bootLaunch registers left =>
      simp only [onStack, processStep, executeWithTerminalNum_complete complete registers left]
  | execute registers left command =>
      simp only [onStack, processStep, execute,
        executeWithTerminalNum_complete complete registers left]
  | halt left status =>
      simp only [onStack, processStep, halt]
      by_cases last : kernel.totalRunningProcess = 1
      · obtain ⟨dentry, found, whole⟩ := complete last
        have entry := headerEntry_congr fun k inHeader =>
          readHeader_complete found whole left tempBuf inHeader
        simp only [programName_shellCommand] at entry
        simp only [entry]
      · simp only [last, if_false]
  | clear => rfl
  | key registers left c =>
      simp only [onStack, processStep, keyboardInterrupt]
      generalize scancodeProcessing consoleOps kernel.getEmptyPid.isSome
        kernel.terminals.console kernel.terminals.keyboard c = result
      cases result.launch with
      | none => rfl
      | some terminalId =>
          -- Handling the key leaves the mounted image alone.
          have launched := @executeWithTerminalNum_complete { kernel with
            terminals := { console := result.screen, keyboard := result.keyboard } } _
            complete registers left tempBuf terminalId 1
          simp only [launched]
  | tick registers => rfl

/-- The second of two such events fills and opens the same. -/
theorem SeenAlike.harmless {pid : Nat} {kernel : Kernel} {first second : SystemEvent}
    (alike : SeenAlike pid kernel first second) (harmless : StoresHarmlessly kernel first) :
    StoresHarmlessly kernel second := by
  cases alike with
  | same event => exact harmless
  | stack event tempBuf isCurrent => exact harmless
  | memory memory other call agree => exact harmless

theorem SeenAlike.opens {pid : Nat} {kernel : Kernel} {first second : SystemEvent}
    (alike : SeenAlike pid kernel first second) (known : OpensKnownType kernel first) :
    OpensKnownType kernel second := by
  cases alike with
  | same event => exact known
  | stack event tempBuf isCurrent => exact known
  | memory memory other call agree =>
      cases call with
      | openFile filename => exact known
      | _ => trivial

/-- A kernel answers events alike if they are seen alike and ignore the slot. -/
theorem systemStep_alike {pid : Nat} {kernel : Kernel} {first second : SystemEvent}
    (alike : SeenAlike pid kernel first second) (ignores : IgnoresSlot pid kernel first) :
    systemStep kernel second = systemStep kernel first := by
  cases alike with
  | same event => rfl
  | stack event tempBuf isCurrent =>
      simp only [systemStep, processStep_onStack (ignores.header isCurrent) tempBuf]
  | memory memory other call agree =>
      simp only [systemStep]
      split
      · rfl
      · next caller isUser =>
          have attempts : attempt kernel caller other call = attempt kernel caller memory call :=
            attempt_congr fun k inside => agree _ (ignores.reads caller isUser k inside)
          simp only [systemCall, attempts]

/-! ## Stores -/

theorem setDescriptor_similar {left right : Kernel} (similar : Similar left right)
    (slot fd : Nat) {first second : FileDesc} (alike : fd < fdtSize → first.Alike second) :
    Similar (setDescriptor left slot fd first) (setDescriptor right slot fd second) := by
  have both := similar.pcb slot
  exact similar.setPcb slot { both with files := both.files_update alike }

/-- Stores into the position fields of a descriptor keep descriptors alike. -/
theorem patchDescriptor_alike {left right : FileDesc} (alike : left.Alike right) {offset : Nat}
    (byte : UInt8) (below : offset < 16) :
    Option.Rel FileDesc.Alike (patchDescriptor left offset byte)
      (patchDescriptor right offset byte) := by
  unfold patchDescriptor
  split
  · exact .none
  · split
    · refine .some ⟨alike.flags, alike.read, alike.write, ?_, alike.filePosition⟩
      intro isOpen isFile
      exact congrArg (patchInt · (offset - 8) byte) (alike.inode isOpen isFile)
    · refine .some ⟨alike.flags, alike.read, alike.write, alike.inode, ?_⟩
      intro isOpen isFile
      exact congrArg (patchInt · (offset - 12) byte) (alike.filePosition isOpen isFile)

theorem descriptorAt_lt {address slot fd offset : Nat}
    (isField : descriptorAt address = some (slot, fd, offset)) : fd < fdtSize := by
  simp only [descriptorAt] at isField
  split at isField
  · split at isField
    · simp only [Option.some.injEq, Prod.mk.injEq] at isField
      unfold fdtSize
      omega
    · contradiction
  · contradiction

theorem userStore_similar {left right : Kernel} (similar : Similar left right) {store : Store}
    (harmless : Harmless store.address) :
    Option.Rel Similar (userStore left store) (userStore right store) := by
  unfold userStore
  split
  · exact .some similar
  · next notPage =>
      split
      · exact .some (similar.onConsole _)
      · next notWindow =>
          have notUser : ¬ UserAddress store.address := not_or.mpr ⟨notPage, notWindow⟩
          obtain ⟨slot, fd, offset, -, below, isField⟩ := harmless.resolve_left notUser
          simp only [isField]
          have both := (similar.pcb slot).files fd (descriptorAt_lt isField)
          have patched := patchDescriptor_alike both store.byte below
          revert patched
          generalize patchDescriptor ((left.pcb slot).fileArray fd) offset store.byte = first
          generalize patchDescriptor ((right.pcb slot).fileArray fd) offset store.byte = second
          rintro (alike | _)
          · exact .some (setDescriptor_similar similar slot fd fun _ => alike)
          · exact .none

theorem userStores_similar {stores : List Store} {left right : Kernel}
    (similar : Similar left right) (harmless : ∀ store ∈ stores, Harmless store.address) :
    Option.Rel Similar (userStores left stores) (userStores right stores) := by
  induction stores generalizing left right with
  | nil => exact .some similar
  | cons store rest ih =>
      have first := userStore_similar similar (harmless store (List.mem_cons_self ..))
      have later : ∀ other ∈ rest, Harmless other.address :=
        fun other member => harmless other (List.mem_cons_of_mem store member)
      simp only [userStores, List.foldlM_cons]
      revert first
      generalize userStore left store = leftMiddle
      generalize userStore right store = rightMiddle
      rintro (middle | _)
      · exact ih middle later
      · exact .none

/-! ## The first half of a call -/

/-- Attempts that show the same and leave similar kernels. -/
structure SameAttempt (left right : Attempt) : Prop where
  value : left.value = right.value
  called : left.called = right.called
  stores : left.stores = right.stores
  kernel : Similar left.kernel right.kernel

theorem refused_similar {left right : Kernel} (similar : Similar left right) :
    SameAttempt (refused left) (refused right) :=
  ⟨rfl, rfl, rfl, similar⟩

theorem dirRead_similar {left right : Kernel} (similar : Similar left right) (memory : Memory)
    (buf : Nat) : SameAttempt (dirRead left memory buf) (dirRead right memory buf) := by
  have index := similar.outside Kernel.currentDirReadIndex fun _ _ => rfl
  simp only [dirRead, similar.fs, index]
  split
  · exact ⟨rfl, rfl, rfl, similar⟩
  · split
    · exact ⟨rfl, rfl, rfl, similar⟩
    · refine ⟨rfl, rfl, rfl, ?_⟩
      obtain ⟨pcbs, rfl, alike⟩ := similar
      exact ⟨pcbs, rfl, alike⟩

/-- A read through an open descriptor uses its live part only. -/
theorem callRead_similar {left right : Kernel} (similar : Similar left right) (memory : Memory)
    {first second : FileDesc} (alike : first.Alike second) (isOpen : first.flags ≠ 0)
    (buf count : Nat) :
    Option.Rel SameAttempt (callRead left memory first buf count)
      (callRead right memory second buf count) := by
  have handler := alike.read isOpen
  unfold callRead
  rw [← handler]
  cases isRead : first.read with
  | terminalReadWrapper =>
      obtain ⟨pcbs, rfl, blocks⟩ := similar
      simp only [terminalRead]
      split
      · exact .some ⟨rfl, rfl, rfl, pcbs, rfl, blocks⟩
      · exact .none
  | rtcReadWrapper =>
      obtain ⟨pcbs, rfl, blocks⟩ := similar
      simp only [rtcRead]
      split
      · exact .some ⟨rfl, rfl, rfl, pcbs, rfl, blocks⟩
      · exact .none
  | filesysRead =>
      simp only [filesysRead, alike.inode isOpen isRead, alike.filePosition isOpen isRead,
        similar.fs]
      exact .some ⟨rfl, rfl, rfl, similar⟩
  | dirReadWrapper => exact .some (dirRead_similar similar memory buf)
  | _ => exact .none

theorem callWrite_similar {left right : Kernel} (similar : Similar left right) (memory : Memory)
    {first second : FileDesc} (alike : first.Alike second) (isOpen : first.flags ≠ 0)
    (buf : Nat) (count : Int) :
    Option.Rel SameAttempt (callWrite left memory first buf count)
      (callWrite right memory second buf count) := by
  have handler := alike.write isOpen
  unfold callWrite
  rw [← handler]
  cases first.write with
  | terminalWriteWrapper =>
      obtain ⟨pcbs, rfl, blocks⟩ := similar
      simp only
      cases left.terminals.terminalWrite (fun k => load memory (buf + k)) count with
      | none => exact .none
      | some written => exact .some ⟨rfl, rfl, rfl, pcbs, rfl, blocks⟩
  | rtcWriteWrapper => exact .some ⟨rfl, rfl, rfl, similar⟩
  | filesysWriteWrapper => exact .some ⟨rfl, rfl, rfl, similar⟩
  | dirWriteWrapper => exact .some ⟨rfl, rfl, rfl, similar⟩
  | _ => exact .none

/-- The scan of `open` ends at the same descriptor. -/
theorem freeDescriptor_alike {left right : Pcb} (alike : left.Alike right) :
    freeDescriptor left.fileArray = freeDescriptor right.fileArray := by
  apply List.find?_congr
  intro fd member
  rw [(alike.files fd (List.mem_range.mp member)).flags]

/-- A file of a known type gets handlers of its own. -/
theorem openedDescriptor_alike (left right : FileDesc) {dentry : Dentry}
    (known : dentry.fileType = rtcType ∨ dentry.fileType = regType ∨
      dentry.fileType = dirType) :
    (openedDescriptor left dentry).Alike (openedDescriptor right dentry) := by
  unfold openedDescriptor setHandlers
  rcases known with isRtc | isRegular | isDirectory
  · rw [isRtc]
    exact .of_handlers rfl rfl rfl Handler.noConfusion
  · rw [isRegular]
    exact ⟨rfl, fun _ => rfl, fun _ => rfl, fun _ _ => rfl, fun _ _ => rfl⟩
  · rw [isDirectory]
    exact .of_handlers rfl rfl rfl Handler.noConfusion

theorem openFile_similar {left right : Kernel} (similar : Similar left right) (pid : Nat)
    {filename : CString}
    (known : ∀ dentry, left.fs.readDentryByName filename = some dentry →
      dentry.fileType = rtcType ∨ dentry.fileType = regType ∨ dentry.fileType = dirType) :
    SameAttempt (openFile left pid filename) (openFile right pid filename) := by
  have both := similar.pcb pid
  unfold openFile
  rw [similar.fs]
  split
  · exact refused_similar similar
  · next dentry found =>
      rw [freeDescriptor_alike both]
      split
      · exact refused_similar similar
      · next fd _ =>
          refine ⟨rfl, rfl, rfl, ?_⟩
          have opened : Pcb.Alike
              { left.pcb pid with
                available := Function.update (left.pcb pid).available fd 1
                fileArray := Function.update (left.pcb pid).fileArray fd
                  (openedDescriptor ((left.pcb pid).fileArray fd) dentry) }
              { right.pcb pid with
                available := Function.update (right.pcb pid).available fd 1
                fileArray := Function.update (right.pcb pid).fileArray fd
                  (openedDescriptor ((right.pcb pid).fileArray fd) dentry) } :=
            { both with
              files := both.files_update fun _ =>
                openedDescriptor_alike _ _ (known dentry found) }
          have updated := similar.setPcb pid opened
          obtain ⟨pcbs, rfl, -⟩ := similar
          exact ⟨_, rfl, updated.pcb⟩

theorem close_similar {left right : Kernel} (similar : Similar left right) (pid : Nat)
    (fd : Int) : SameAttempt (close left pid fd) (close right pid fd) := by
  unfold close
  simp only
  by_cases outside : fd ≥ fdtSize ∨ fd ≤ 1
  · rw [if_pos (by omega), if_pos (by omega)]
    exact refused_similar similar
  · have inside : fd.toNat < fdtSize := by omega
    rw [((similar.pcb pid).files fd.toNat inside).flags]
    split
    · exact refused_similar similar
    · refine ⟨rfl, rfl, rfl, setDescriptor_similar similar pid fd.toNat ?_⟩
      intro _
      exact .of_closed rfl rfl

theorem read_similar {left right : Kernel} (similar : Similar left right) (pid : Nat)
    (memory : Memory) (fd : Int) (buf : Nat) (nbytes : Int) :
    Option.Rel SameAttempt (read left pid memory fd buf nbytes)
      (read right pid memory fd buf nbytes) := by
  unfold read
  split
  · exact .some (refused_similar similar)
  · have both := (similar.pcb pid).files fd.toNat (by omega)
    simp only [← both.flags]
    split
    · exact .some (refused_similar similar)
    · next isOpen => exact callRead_similar similar memory both isOpen buf _

theorem write_similar {left right : Kernel} (similar : Similar left right) (pid : Nat)
    (memory : Memory) (fd : Int) (buf : Nat) (nbytes : Int) :
    Option.Rel SameAttempt (write left pid memory fd buf nbytes)
      (write right pid memory fd buf nbytes) := by
  unfold write
  split
  · exact .some (refused_similar similar)
  · have both := (similar.pcb pid).files fd.toNat (by omega)
    simp only [← both.flags]
    split
    · exact .some (refused_similar similar)
    · next isOpen => exact callWrite_similar similar memory both isOpen buf nbytes

theorem attempt_similar {left right : Kernel} (similar : Similar left right) (pid : Nat)
    (memory : Memory) {call : Call} (known : OpensKnownType left (.call memory call)) :
    Option.Rel SameAttempt (attempt left pid memory call) (attempt right pid memory call) := by
  cases call with
  | read fd buf nbytes => exact read_similar similar pid memory fd buf nbytes
  | write fd buf nbytes => exact write_similar similar pid memory fd buf nbytes
  | openFile filename => exact .some (openFile_similar similar pid known)
  | close fd => exact .some (close_similar similar pid fd)
  | getargs buf nbytes =>
      obtain ⟨pcbs, rfl, alike⟩ := similar
      simp only [attempt, getargs]
      split
      · exact .some ⟨rfl, rfl, rfl, pcbs, rfl, alike⟩
      · split
        · exact .some ⟨rfl, rfl, rfl, pcbs, rfl, alike⟩
        · exact .some ⟨rfl, rfl, rfl, pcbs, rfl, alike⟩
  | vidmap screenstart =>
      simp only [attempt, vidmap]
      split
      · exact .some (refused_similar similar)
      · split
        · exact .some (refused_similar similar)
        · exact .some ⟨rfl, rfl, rfl, similar⟩

/-! ## Every event -/

theorem advance_similar {left right : Kernel} (similar : Similar left right) (pid : Nat)
    (fd value : Int) : Similar (advance left pid fd value) (advance right pid fd value) := by
  unfold advance
  split
  · exact similar
  · refine setDescriptor_similar similar pid fd.toNat ?_
    intro inside
    have both := (similar.pcb pid).files fd.toNat inside
    refine ⟨both.flags, both.read, both.write, both.inode, ?_⟩
    intro isOpen isFile
    exact congrArg (fun position => int32 (position + value)) (both.filePosition isOpen isFile)

theorem finish_similar {left right : Kernel} (similar : Similar left right) (pid : Nat)
    (call : Call) {first second : Attempt} (same : SameAttempt first second) :
    Similar (finish left pid call first) (finish right pid call second) := by
  cases call with
  | read fd buf nbytes =>
      simp only [finish, same.value]
      exact advance_similar similar pid fd second.value
  | _ => exact similar

theorem systemCall_similar {left right : Kernel} (similar : Similar left right) {pid : Nat}
    (isUser : left.userProcess = some pid) {memory : Memory} {call : Call}
    (harmless : StoresHarmlessly left (.call memory call))
    (known : OpensKnownType left (.call memory call)) :
    SameOutcome Similar (systemCall left pid memory call) (systemCall right pid memory call) := by
  have attempts := attempt_similar similar pid memory known
  unfold systemCall
  generalize firstEq : attempt left pid memory call = first at attempts
  generalize attempt right pid memory call = second at attempts
  cases attempts with
  | none => exact .none
  | @some first second same =>
      -- The guard speaks of the buffer; the stores are its bytes.
      have missed : ∀ store ∈ first.stores, Harmless store.address := by
        obtain ⟨bytes, storesEq, lengthEq⟩ := attempt_stores firstEq
        intro store member
        rw [storesEq] at member
        obtain ⟨k, inside, addressEq⟩ := mem_storesAt_address.mp ⟨store, member, rfl⟩
        rw [← addressEq]
        exact harmless pid isUser k (lengthEq ▸ inside)
      have stored := userStores_similar same.kernel missed
      simp only [← same.value, ← same.called, ← same.stores]
      generalize userStores first.kernel first.stores = leftStored at stored
      generalize userStores second.kernel first.stores = rightStored at stored
      cases stored with
      | none => exact .none
      | some after => exact .some ⟨rfl, finish_similar after pid call same⟩

/-- Every event on similar kernels. -/
theorem systemStep_similar {left right : Kernel} (similar : Similar left right)
    {event : SystemEvent} (harmless : StoresHarmlessly left event)
    (known : OpensKnownType left event) :
    SameOutcome Similar (systemStep left event) (systemStep right event) := by
  cases event with
  | process event =>
      simp only [systemStep, similar.userProcess]
      exact (processStep_similar similar event).map _
  | call memory call =>
      simp only [systemStep, similar.userProcess]
      split
      · exact .none
      · next pid isUser => exact (systemCall_similar similar isUser harmless known).map _
  | rtc =>
      obtain ⟨pcbs, rfl, alike⟩ := similar
      exact .some ⟨rfl, pcbs, rfl, alike⟩

/-! ## Runs -/

/-- Whatever can happen to the first kernel can happen to the second, with the
same replies and up to what a slot holds, and the two still agree in all but
control blocks then. -/
def Follow (pid : Nat) (guard : Kernel → SystemEvent → Prop) (first second : Kernel) : Prop :=
  ∀ trace final,
    GuardedRun (firstOf systemStep)
      (fun kernel events _ => SeenAlike pid kernel events.1 events.2 ∧ guard kernel events.1)
      first trace final →
    ∃ pcbs, Run systemStep second (secondOf trace) { final with pcb := pcbs }

/-- Similar kernels have the same future. -/
theorem follow_of_similar (pid : Nat) {first second : Kernel} (similar : Similar first second) :
    Follow pid (IgnoresSlot pid) first second := by
  intro trace final run
  obtain ⟨other, matched, pcbs, otherEq, -⟩ := run.transfer (R := Similar) (by
    intro left right events reply related allowed
    obtain ⟨alike, ignores⟩ := allowed
    have same := systemStep_similar related (alike.harmless ignores.stores)
      (alike.opens ignores.opens)
    rw [systemStep_alike alike ignores] at same
    exact same) similar
  exact ⟨pcbs, otherEq ▸ matched⟩

/-- In every run whose events ignore the slot, a new process does not depend on
what it held, as long as that agrees in whether it had a child.  Where the start
itself runs on the stack of the slot, its program has a complete header. -/
theorem newProcess_ignoresSlot {kernel first : Kernel} {other : Pcb}
    {registers : Registers} {tempBuf otherBuf : Nat → UInt8} {command : Option CString}
    {terminalNum pid entry : Nat} {isTerminal : Int}
    (children : (kernel.pcb pid).child = none ↔ other.child = none)
    (elsewhere : kernel.currentPid ≠ some pid → otherBuf = tempBuf)
    (header : kernel.currentPid = some pid →
      ∀ dentry, commandEntry kernel.fs command = some dentry → CompleteHeader kernel.fs dentry)
    (started : executeWithTerminalNum kernel registers tempBuf command terminalNum isTerminal =
      some (.started pid entry, first)) :
    kernel.getEmptyPid = some pid ∧
      ∃ second, executeWithTerminalNum (kernel.setPcb pid other) registers otherBuf command
          terminalNum isTerminal = some (.started pid entry, second) ∧
        Follow pid (IgnoresSlot pid) first second ∧
        Follow pid (IgnoresSlot pid) second first := by
  constructor
  · rcases executeWithTerminalNum_cases started with
      ⟨failed, -⟩ | ⟨text, slot, -, free, ⟨failed, -⟩ | ⟨found, replyEq, -⟩⟩
    · contradiction
    · contradiction
    · cases replyEq
      exact free
  · obtain ⟨second, restarted, similar⟩ := executeWithTerminalNum_slot children started
    refine ⟨second, ?_, follow_of_similar pid similar, follow_of_similar pid similar.symm⟩
    by_cases isCurrent : kernel.currentPid = some pid
    · have same := @executeWithTerminalNum_complete (kernel.setPcb pid other) command
        (header isCurrent) registers tempBuf otherBuf terminalNum isTerminal
      exact same.trans restarted
    · rw [elsewhere isCurrent]
      exact restarted

/-- A control block of a process that read a file on the third terminal. -/
def readerPcb : Pcb :=
  { zeroPcb with
    parent := some 4
    terminal := 2
    fileArray := fun _ =>
      { read := .filesysRead, write := .filesysWriteWrapper, inode := 7, filePosition := 40
        flags := 1 }
    pid := 6 }

/-- The root shell starts in the slot of such a process as in a clean one. -/
theorem newProcess_ignoresSlot_rootShell : ∃ first second,
    executeWithTerminalNum shellKernel { esp := 0, ebp := 0 } (fun _ => 0) (some shellCommand) 0 1 =
      some (.started 1 0, first) ∧
    executeWithTerminalNum (shellKernel.setPcb 1 readerPcb) { esp := 0, ebp := 0 } (fun _ => 0)
      (some shellCommand) 0 1 = some (.started 1 0, second) ∧
    Follow 1 (IgnoresSlot 1) first second ∧ Follow 1 (IgnoresSlot 1) second first := by
  obtain ⟨first, started⟩ : ∃ first, executeWithTerminalNum shellKernel { esp := 0, ebp := 0 }
      (fun _ => 0) (some shellCommand) 0 1 = some (.started 1 0, first) := ⟨_, rfl⟩
  have clean : (shellKernel.pcb 1).child = none ↔ readerPcb.child = none := Iff.rfl
  obtain ⟨-, second, restarted, follows⟩ :=
    newProcess_ignoresSlot clean (fun _ => rfl) (fun isCurrent => nomatch isCurrent) started
  exact ⟨first, second, started, restarted, follows⟩

/-- A control block with a child. -/
def waitingPcb : Pcb :=
  { zeroPcb with child := some 3 }

/-- The shell of the second terminal is started over some control block, with the
root shell in slot 1. -/
def secondShell (slot : Pcb) : Option (ExecuteReply × Kernel) :=
  executeWithTerminalNum (launchedKernel.setPcb 2 slot) { esp := 0, ebp := 0 } (fun _ => 0)
    (some shellCommand) 1 1

/-- The kernel that this leaves. -/
def secondKernel (slot : Pcb) : Kernel :=
  ((secondShell slot).map Prod.snd).getD shellKernel

/-- A clock tick. -/
def tickEvent : SystemEvent :=
  .process (.tick { esp := 0, ebp := 0 })

theorem secondShell_starts (slot : Pcb)
    (answered : (secondShell slot).map Prod.fst = some (.started 2 0)) :
    secondShell slot = some (.started 2 0, secondKernel slot) := by
  obtain ⟨⟨reply, target⟩, outcome, replyEq⟩ := Option.map_eq_some_iff.mp answered
  cases replyEq
  rw [secondKernel, outcome]
  rfl

/-- Two ticks: the first selects the root shell, the second its neighbour. -/
def roundTrip : List (SystemEvent × SystemReply) :=
  [(tickEvent, .process (some 2) (.ticked (some { esp := 0, ebp := 0 }))),
    (tickEvent, .process (some 1) (.ticked (some { esp := 0, ebp := 0 })))]

/-- A trace with every event paired with itself. -/
def paired (trace : List (SystemEvent × SystemReply)) :
    List ((SystemEvent × SystemEvent) × SystemReply) :=
  trace.map fun step => ((step.1, step.1), step.2)

theorem secondKernel_roundTrip :
    GuardedRun (firstOf systemStep)
      (fun kernel events _ => SeenAlike 2 kernel events.1 events.2 ∧ True)
      (secondKernel zeroPcb) (paired roundTrip)
      (after (after (secondKernel zeroPcb) tickEvent) tickEvent) :=
  .cons ⟨.same tickEvent, trivial⟩ (step_after (by decide +kernel))
    (.cons ⟨.same tickEvent, trivial⟩ (step_after (by decide +kernel)) (.nil _))

/-- With a child in its slot the second shell is never selected again. -/
theorem waitingKernel_noRoundTrip (final : Kernel) :
    ¬ Run systemStep (secondKernel waitingPcb) roundTrip final := by
  have first : systemStep (secondKernel waitingPcb) tickEvent =
      some (.process (some 2) (.ticked (some { esp := 0, ebp := 0 })),
        after (secondKernel waitingPcb) tickEvent) := step_after (by decide +kernel)
  have second : systemStep (after (secondKernel waitingPcb) tickEvent) tickEvent =
      some (.process (some 1) (.ticked none),
        after (after (secondKernel waitingPcb) tickEvent) tickEvent) :=
    step_after (by decide +kernel)
  intro run
  cases run with
  | cons _ stepped rest =>
      rw [first] at stepped
      obtain ⟨-, middleEq⟩ := Prod.mk.inj (Option.some.inj stepped)
      cases rest with
      | cons _ again _ =>
          rw [← middleEq, second] at again
          obtain ⟨replyEq, -⟩ := Prod.mk.inj (Option.some.inj again)
          contradiction

/-- A child left in the slot keeps the new shell from running: two ticks select
it again if the slot was clean, and not if it held a child. -/
theorem staleChild_notIgnored :
    ¬ ∀ (kernel first second : Kernel) (other : Pcb) (registers : Registers)
      (tempBuf : Nat → UInt8) (command : Option CString) (terminalNum pid entry : Nat)
      (isTerminal : Int),
      executeWithTerminalNum kernel registers tempBuf command terminalNum isTerminal =
        some (.started pid entry, first) →
      executeWithTerminalNum (kernel.setPcb pid other) registers tempBuf command terminalNum
        isTerminal = some (.started pid entry, second) →
      Follow pid (fun _ _ => True) first second := by
  intro ignored
  have clean := secondShell_starts zeroPcb (by decide +kernel)
  have stale := secondShell_starts waitingPcb (by decide +kernel)
  have replaced : (launchedKernel.setPcb 2 zeroPcb).setPcb 2 waitingPcb =
      launchedKernel.setPcb 2 waitingPcb := by
    simp only [Kernel.setPcb, Function.update_idem]
  rw [secondShell, ← replaced] at stale
  obtain ⟨pcbs, matched⟩ := ignored (launchedKernel.setPcb 2 zeroPcb) _ _ waitingPcb
    { esp := 0, ebp := 0 } (fun _ => 0) (some shellCommand) 1 2 0 1 clean stale
    (paired roundTrip) _ secondKernel_roundTrip
  exact waitingKernel_noRoundTrip _ matched

end PonyOS.Syscall
