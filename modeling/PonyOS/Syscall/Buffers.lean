import PonyOS.Process.Invariant
import PonyOS.Syscall.Effects

/-!
# Where system calls store

Every call that stores through a user pointer fills one contiguous buffer that
starts at the pointer.  Its length follows from the arguments and the state,
and no call but `vidmap` compares the pointer with the bounds of the user page;
`vidmap` compares the first of its four bytes only.  So the stores stay inside
the page exactly when the buffer does.
-/

namespace PonyOS.Syscall

open PonyOS.FileSystem
open PonyOS.Lib.Transition
open PonyOS.Lib.Word
open PonyOS.Process
open PonyOS.Terminal

/-- The pointer that a call stores through. -/
def Call.buffer : Call → Nat
  | .read _ buf _ => buf
  | .getargs buf _ => buf
  | .vidmap screenstart => screenstart
  | _ => 0

/-- Bytes that a read through a descriptor stores. -/
def readFill (kernel : Kernel) (desc : FileDesc) (nbytes : Int) : Nat :=
  match desc.read with
  | .terminalReadWrapper => if kernel.terminals.lineReady then uint32 nbytes else 0
  | .filesysRead =>
      kernel.fs.readCount (uint32 desc.inode) (uint32 desc.filePosition) (uint32 nbytes)
  | .dirReadWrapper =>
      if kernel.currentDirReadIndex ≥ kernel.fs.numDirEntry ∨
          uint32 kernel.currentDirReadIndex ≥ uint32 kernel.fs.numDirEntry then 0
      else 33
  | _ => 0

/-- Bytes that a call by a process stores. -/
def fillLength (kernel : Kernel) (pid : Nat) : Call → Nat
  | .read fd _ nbytes =>
      if fd ≥ fdtSize ∨ fd < 0 ∨ fd = 1 then 0
      else if ((kernel.pcb pid).fileArray fd.toNat).flags = 0 then 0
      else readFill kernel ((kernel.pcb pid).fileArray fd.toNat) nbytes
  | .getargs buf nbytes =>
      if buf = 0 then 0 else if kernel.argAvailable pid = false then 0 else uint32 nbytes
  | .vidmap screenstart =>
      if screenstart = 0 then 0
      else if int32 screenstart < userPageStart ∨ int32 screenstart ≥ userPageEnd then 0
      else 4
  | _ => 0

/-! ## The stores of a call -/

theorem callRead_stores {kernel : Kernel} {memory : Memory} {desc : FileDesc} {buf : Nat}
    {nbytes : Int} {tried : Attempt}
    (attempted : callRead kernel memory desc buf (uint32 nbytes) = some tried) :
    ∃ bytes, tried.stores = storesAt buf bytes ∧ bytes.length = readFill kernel desc nbytes := by
  cases callRead_cases attempted with
  | terminal isTerminal ready =>
      refine ⟨kernel.terminals.readLine (uint32 nbytes), rfl, ?_⟩
      simp [readFill, isTerminal, ready, Terminals.readLine]
  | rtc isRtc ticked => exact ⟨[], rfl, by simp [readFill, isRtc]⟩
  | file isFile =>
      have spec := (kernel.fs.readData_spec (uint32 desc.inode) (uint32 desc.filePosition) buf
        (uint32 nbytes)).2
      exact ⟨_, spec, by simp [readFill, isFile]⟩
  | directory isDirectory =>
      rw [dirRead]
      by_cases ended : kernel.currentDirReadIndex ≥ kernel.fs.numDirEntry
      · rw [if_pos ended]
        exact ⟨[], rfl, by simp [readFill, isDirectory, ended]⟩
      · rw [if_neg ended, Volume.readDentryByIndex]
        by_cases outside : uint32 kernel.currentDirReadIndex ≥ uint32 kernel.fs.numDirEntry
        · rw [if_pos outside]
          exact ⟨[], rfl, by simp [readFill, isDirectory, outside]⟩
        · rw [if_neg outside]
          refine ⟨_, rfl, ?_⟩
          simp [readFill, isDirectory, ended, outside, Volume.dentryAt]

/-- A read that faults or waits would store nothing. -/
theorem callRead_none {kernel : Kernel} {memory : Memory} {desc : FileDesc} {buf : Nat}
    {nbytes : Int} (missing : callRead kernel memory desc buf (uint32 nbytes) = none) :
    readFill kernel desc nbytes = 0 := by
  unfold callRead at missing
  unfold readFill
  cases handler : desc.read with
  | terminalReadWrapper =>
      simp only [handler, terminalRead] at missing
      split at missing
      · contradiction
      · next notReady => simp [notReady]
  | filesysRead => simp [handler] at missing
  | dirReadWrapper => simp [handler] at missing
  | _ => rfl

/-- Every call fills one buffer. -/
theorem attempt_stores {kernel : Kernel} {pid : Nat} {memory : Memory} {call : Call}
    {tried : Attempt} (attempted : attempt kernel pid memory call = some tried) :
    ∃ bytes, tried.stores = storesAt call.buffer bytes ∧
      bytes.length = fillLength kernel pid call := by
  cases call with
  | read fd buf nbytes =>
      simp only [fillLength]
      rcases read_cases attempted with ⟨invalid, rfl⟩ | ⟨valid, isOpen, called⟩
      · refine ⟨[], rfl, ?_⟩
        by_cases closed : ((kernel.pcb pid).fileArray fd.toNat).flags = 0
        · simp [closed]
        · have outside : fd ≥ fdtSize ∨ fd < 0 ∨ fd = 1 := by tauto
          simp [outside]
      · rw [if_neg valid, if_neg isOpen]
        exact callRead_stores called
  | write fd buf nbytes =>
      obtain ⟨-, -, noStores⟩ := write_same attempted
      exact ⟨[], noStores, rfl⟩
  | openFile filename =>
      cases attempted
      refine ⟨[], ?_, rfl⟩
      unfold openFile
      split
      · rfl
      · split <;> rfl
  | close fd =>
      cases attempted
      refine ⟨[], ?_, rfl⟩
      simp only [close]
      split <;> rfl
  | getargs buf nbytes =>
      cases attempted
      simp only [getargs, fillLength]
      split
      · exact ⟨[], rfl, rfl⟩
      · split
        · exact ⟨[], rfl, rfl⟩
        · exact ⟨_, rfl, by simp⟩
  | vidmap screenstart =>
      cases attempted
      simp only [vidmap, fillLength]
      split
      · exact ⟨[], rfl, rfl⟩
      · split
        · exact ⟨[], rfl, rfl⟩
        · exact ⟨_, rfl, rfl⟩

/-- A call that does not get that far would store nothing. -/
theorem attempt_none {kernel : Kernel} {pid : Nat} {memory : Memory} {call : Call}
    (missing : attempt kernel pid memory call = none) : fillLength kernel pid call = 0 := by
  cases call with
  | read fd buf nbytes =>
      simp only [attempt, read] at missing
      simp only [fillLength]
      split at missing
      · contradiction
      · next valid =>
          split at missing
          · contradiction
          · next isOpen =>
              rw [if_neg valid, if_neg isOpen]
              exact callRead_none missing
  | write fd buf nbytes => rfl
  | openFile filename => rfl
  | close fd => rfl
  | getargs buf nbytes => contradiction
  | vidmap screenstart => contradiction

/-! ## Calls that keep to user memory -/

/-- The buffer that a call fills lies in user memory. -/
def BufferInUserMemory (kernel : Kernel) : SystemEvent → Prop
  | .call _ asked => ∀ pid, kernel.userProcess = some pid →
      ∀ k, k < fillLength kernel pid asked → UserAddress ((asked.buffer + k) % 4294967296)
  | _ => True

/-- The guard of runs whose calls keep to user memory. -/
def userBuffers (kernel : Kernel) (event : SystemEvent) (_reply : SystemReply) : Prop :=
  BufferInUserMemory kernel event

theorem bufferInUserMemory_of_page {kernel : Kernel} {memory : Memory} {pid : Nat}
    {fd nbytes : Int} (isUser : kernel.userProcess = some pid)
    (fill : fillLength kernel pid (.read fd 0x8000000 nbytes) ≤ 4096) :
    BufferInUserMemory kernel (.call memory (.read fd 0x8000000 nbytes)) := by
  intro caller isCaller k inside
  cases isUser.symm.trans isCaller
  left
  have below : k < 4096 := Nat.lt_of_lt_of_le inside fill
  simp only [Call.buffer, InUserPage, userPageStart, userPageEnd]
  omega

/-- If its buffer does, so do all the stores of a call. -/
theorem attempt_stores_user {kernel : Kernel} {pid : Nat} {memory : Memory} {call : Call}
    {tried : Attempt} (attempted : attempt kernel pid memory call = some tried)
    (user : ∀ k, k < fillLength kernel pid call →
      UserAddress ((call.buffer + k) % 4294967296)) :
    ∀ store ∈ tried.stores, UserAddress store.address := by
  obtain ⟨bytes, storesEq, lengthEq⟩ := attempt_stores attempted
  intro store member
  rw [storesEq] at member
  obtain ⟨k, inside, addressEq⟩ := mem_storesAt_address.mp ⟨store, member, rfl⟩
  rw [← addressEq]
  exact user k (lengthEq ▸ inside)

/-- A call that gets as far as its stores returns. -/
theorem systemStep_isSome {kernel : Kernel} {pid : Nat} {memory : Memory} {call : Call}
    {tried : Attempt} (isUser : kernel.userProcess = some pid)
    (user : BufferInUserMemory kernel (.call memory call))
    (attempted : attempt kernel pid memory call = some tried) :
    (systemStep kernel (.call memory call)).isSome = true := by
  obtain ⟨stored, storedEq⟩ := Option.isSome_iff_exists.mp
    (userStores_isSome tried.kernel (attempt_stores_user attempted (user pid isUser)))
  simp [systemStep, isUser, systemCall, attempted, storedEq]

/-- What one event does, provided that it keeps to user memory. -/
inductive SystemEffect (kernel target : Kernel) : SystemEvent → SystemReply → Prop
  | process (event : ProcessEvent) (reply : ProcessReply) :
      ProcessEffect kernel target reply →
      SystemEffect kernel target (.process event) (.process kernel.userProcess reply)
  | call (memory : Memory) (asked : Call) (pid : Nat) (reply : CallReply) (tried : Attempt) :
      kernel.userProcess = some pid → attempt kernel pid memory asked = some tried →
      reply = { pid := pid, value := tried.value, called := tried.called, stores := tried.stores } →
      CallEffect kernel target pid asked reply →
      SystemEffect kernel target (.call memory asked) (.call reply)
  | rtc : target = { kernel with nextInterrupt := true } → SystemEffect kernel target .rtc .rtc

theorem systemStep_effect {kernel target : Kernel} {event : SystemEvent} {reply : SystemReply}
    (known : PidsKnown kernel) (user : BufferInUserMemory kernel event)
    (stepped : systemStep kernel event = some (reply, target)) :
    SystemEffect kernel target event reply := by
  cases systemStep_cases stepped with
  | process event answer moved =>
      exact .process event answer (.of_moved known (processStep_moved moved))
  | call pid memory asked answer isUser called =>
      obtain ⟨tried, stored, attempted, -, answerEq, -⟩ := systemCall_eq_some called
      have userStores : ∀ store ∈ answer.stores, UserAddress store.address := by
        rw [answerEq]
        exact attempt_stores_user attempted (user pid isUser)
      exact .call memory asked pid answer tried isUser attempted answerEq
        (systemCall_effect called userStores)
  | rtc targetEq => exact .rtc targetEq

/-- The slot numbers survive every event. -/
theorem SystemEffect.known {kernel target : Kernel} {event : SystemEvent} {reply : SystemReply}
    (effect : SystemEffect kernel target event reply) (known : PidsKnown kernel) :
    PidsKnown target := by
  cases effect with
  | process event reply effect => exact effect.known
  | call memory asked pid reply tried isUser attempted replyEq effect => exact effect.known known
  | rtc targetEq =>
      rw [targetEq]
      exact ⟨known.running, known.current, known.parent⟩

/-- The mounted file system never changes. -/
theorem SystemEffect.fs {kernel target : Kernel} {event : SystemEvent} {reply : SystemReply}
    (effect : SystemEffect kernel target event reply) : target.fs = kernel.fs := by
  cases effect with
  | process event reply effect => exact effect.fs
  | call memory asked pid reply tried isUser attempted replyEq effect => exact effect.fs
  | rtc targetEq => rw [targetEq]

/-! ## Requests -/

/-- The string at an address. -/
def stringAt (memory : Memory) (address : Nat) : CString :=
  { chars := (List.range (strlen (fun i => load memory (address + i)) addressSpace)).map
      fun i => load memory (address + i)
    noNul := by
      intro member
      obtain ⟨i, inside, isNul⟩ := List.mem_map.mp member
      exact strlen_ne_zero (List.mem_range.mp inside) isNul }

/-- What a user program asks for with its four registers. -/
inductive Request
  | invalid
  | halt (status : Int)
  | execute (command : Option CString)
  | call (call : Call)

/-- `general_handler_wrapper` and the jump table. -/
def decode (memory : Memory) (eax ebx ecx edx : UInt32) : Request :=
  if int32 eax.toNat > 8 ∨ int32 eax.toNat ≤ 0 then .invalid
  else
    match eax.toNat with
    | 1 => .halt (int32 ebx.toNat)
    | 2 => .execute (if ebx = 0 then none else some (stringAt memory ebx.toNat))
    | 3 => .call (.read (int32 ebx.toNat) ecx.toNat (int32 edx.toNat))
    | 4 => .call (.write (int32 ebx.toNat) ecx.toNat (int32 edx.toNat))
    | 5 => .call (.openFile (stringAt memory ebx.toNat))
    | 6 => .call (.close (int32 ebx.toNat))
    | 7 => .call (.getargs ebx.toNat (int32 ecx.toNat))
    | _ => .call (.vidmap ebx.toNat)

/-- What a request comes to: the value in `eax` if it returns to its caller, and
the stores it sets out to make through a pointer from the registers. -/
structure Service where
  value : Option Int
  stores : List Store

/-- The service of a request by a process. -/
def service (kernel : Kernel) (pid : Nat) (memory : Memory) (registers : Registers)
    (tempBuf : Nat → UInt8) : Request → Option Service
  | .invalid => some { value := some (-1), stores := [] }
  | .halt status => (halt kernel tempBuf status).map fun _ => { value := none, stores := [] }
  | .execute command =>
      (execute kernel registers tempBuf command).map fun outcome =>
        { value := if outcome.1 = .failed then some (-1) else none, stores := [] }
  | .call call =>
      (attempt kernel pid memory call).map fun tried =>
        { value := some tried.value, stores := tried.stores }

/-- All stores lie in the user page, or there are none and the result is `-1`. -/
def Service.Confined (done : Service) : Prop :=
  (∀ store ∈ done.stores, InUserPage store.address) ∨ (done.value = some (-1) ∧ done.stores = [])

/-- The buffer that a request fills, if any, lies in the user page. -/
def Request.Fits (kernel : Kernel) (pid : Nat) : Request → Prop
  | .call asked =>
      fillLength kernel pid asked = 0 ∨
        (userPageStart ≤ asked.buffer ∧
          asked.buffer + fillLength kernel pid asked ≤ userPageEnd)
  | _ => True

/-- Consecutive stores stay in the page exactly when both ends do. -/
theorem storesAt_inUserPage {dest : Nat} (small : dest < 4294967296) (bytes : List UInt8) :
    (∀ store ∈ storesAt dest bytes, InUserPage store.address) ↔
      bytes.length = 0 ∨ (userPageStart ≤ dest ∧ dest + bytes.length ≤ userPageEnd) := by
  have addresses : (∀ store ∈ storesAt dest bytes, InUserPage store.address) ↔
      ∀ i < bytes.length, InUserPage ((dest + i) % 4294967296) := by
    constructor
    · intro all i inside
      obtain ⟨store, member, addressEq⟩ := mem_storesAt_address.mpr ⟨i, inside, rfl⟩
      rw [← addressEq]
      exact all store member
    · intro all store member
      obtain ⟨i, inside, addressEq⟩ := mem_storesAt_address.mp ⟨store, member, rfl⟩
      rw [← addressEq]
      exact all i inside
  rw [addresses]
  unfold InUserPage userPageStart userPageEnd
  constructor
  · intro all
    by_cases empty : bytes.length = 0
    · exact .inl empty
    · right
      have first := all 0 (by omega)
      by_contra outside
      -- The first byte past the page would be among those stored.
      have past := all (0x8400000 - dest) (by omega)
      omega
  · rintro (empty | ⟨lower, upper⟩) i inside
    · omega
    · omega

theorem buffer_lt (memory : Memory) (eax ebx ecx edx : UInt32) (call : Call)
    (decoded : decode memory eax ebx ecx edx = .call call) : call.buffer < 4294967296 := by
  have ebxLt := ebx.toNat_lt
  have ecxLt := ecx.toNat_lt
  unfold decode at decoded
  split at decoded
  · contradiction
  · split at decoded
    · contradiction
    · contradiction
    · cases decoded
      exact ecxLt
    · cases decoded
      exact Nat.zero_lt_succ _
    · cases decoded
      exact Nat.zero_lt_succ _
    · cases decoded
      exact Nat.zero_lt_succ _
    · cases decoded
      exact ebxLt
    · cases decoded
      exact ebxLt

/-- For every number and arguments of a system call: it stores through the
user's pointer inside the user page only, exactly when its buffer fits there. -/
theorem service_confined_iff (kernel : Kernel) (pid : Nat) (memory : Memory)
    (registers : Registers) (tempBuf : Nat → UInt8) (eax ebx ecx edx : UInt32) :
    (∀ done, service kernel pid memory registers tempBuf (decode memory eax ebx ecx edx) =
        some done → done.Confined) ↔
      (decode memory eax ebx ecx edx).Fits kernel pid := by
  cases decoded : decode memory eax ebx ecx edx with
  | invalid =>
      refine ⟨fun _ => trivial, fun _ done served => ?_⟩
      cases served
      exact .inl (by simp)
  | halt status =>
      refine ⟨fun _ => trivial, fun _ done served => ?_⟩
      obtain ⟨outcome, -, rfl⟩ := Option.map_eq_some_iff.mp served
      exact .inl (by simp)
  | execute command =>
      refine ⟨fun _ => trivial, fun _ done served => ?_⟩
      obtain ⟨outcome, -, rfl⟩ := Option.map_eq_some_iff.mp served
      exact .inl (by simp)
  | call call =>
      have small := buffer_lt memory eax ebx ecx edx call decoded
      simp only [service, Request.Fits]
      cases attempted : attempt kernel pid memory call with
      | none =>
          rw [attempt_none attempted]
          simp
      | some tried =>
          obtain ⟨bytes, storesEq, lengthEq⟩ := attempt_stores attempted
          have inPage := storesAt_inUserPage small bytes
          rw [← storesEq, lengthEq] at inPage
          rw [← inPage]
          constructor
          · intro all
            rcases all _ rfl with confined | ⟨-, nothing⟩
            · exact confined
            · intro store member
              simp only at nothing
              rw [nothing] at member
              exact absurd member List.not_mem_nil
          · intro confined done served
            cases served
            exact .inl confined

/-- A kernel after one event. -/
def after (kernel : Kernel) (event : SystemEvent) : Kernel :=
  ((systemStep kernel event).map Prod.snd).getD kernel

theorem step_after {kernel : Kernel} {event : SystemEvent} {reply : SystemReply}
    (replied : (systemStep kernel event).map Prod.fst = some reply) :
    systemStep kernel event = some (reply, after kernel event) := by
  obtain ⟨⟨answer, target⟩, stepped, answerEq⟩ := Option.map_eq_some_iff.mp replied
  cases answerEq
  rw [after, stepped]
  rfl

/-- The event that starts the root shell. -/
def launchEvent : SystemEvent :=
  .process (.bootLaunch { esp := 0, ebp := 0 } fun _ => 0)

theorem launchEvent_user (kernel : Kernel) (reply : SystemReply) :
    userBuffers kernel launchEvent reply :=
  trivial

/-- The root shell opens its own file. -/
def openEvent : SystemEvent :=
  .call (fun _ => 0) (.openFile shellCommand)

/-- The kernel in which the root shell runs. -/
def launchedKernel : Kernel :=
  after shellKernel launchEvent

/-- The kernel in which the root shell has opened its own file. -/
def readerKernel : Kernel :=
  after launchedKernel openEvent

theorem launchedKernel_step : systemStep shellKernel launchEvent =
    some (.process none (.launched (.started 1 0)), launchedKernel) :=
  step_after (by decide +kernel)

theorem readerKernel_step : systemStep launchedKernel openEvent =
    some (.call { pid := 1, value := 2, called := none, stores := [] }, readerKernel) :=
  step_after (by decide +kernel)

/-- `read(2, 0x400000, 4)` from that shell writes to the start of the kernel. -/
theorem kernelRead_not_confined :
    ¬ ∀ (kernel : Kernel) (pid : Nat) (memory : Memory) (registers : Registers)
      (tempBuf : Nat → UInt8) (eax ebx ecx edx : UInt32) (done : Service),
      kernel.userProcess = some pid →
      service kernel pid memory registers tempBuf (decode memory eax ebx ecx edx) = some done →
      done.Confined := by
  intro all
  have served : (service readerKernel 1 (fun _ => 0) { esp := 0, ebp := 0 } (fun _ => 0)
      (decode (fun _ => 0) 3 2 0x400000 4)).map Service.stores =
      some (storesAt 0x400000 executableChecking) := by decide +kernel
  obtain ⟨done, doneEq, storesEq⟩ := Option.map_eq_some_iff.mp served
  rcases all readerKernel 1 _ _ _ _ _ _ _ done rfl doneEq with inPage | ⟨-, nothing⟩
  · rw [storesEq] at inPage
    exact absurd (inPage { address := 0x400000, byte := 0x7f } (by decide)) (by decide)
  · rw [storesEq] at nothing
    exact absurd nothing (by decide)

end PonyOS.Syscall
