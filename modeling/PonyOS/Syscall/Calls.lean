import PonyOS.Process.Schedule

/-!
# System calls on descriptors

`open`, `close`, `read`, `write`, `getargs` and `vidmap`.  A call is modelled in
two halves.  The first is everything but the stores through the pointer that
the user passed: it yields the result and the stores that the call sets out to
make.  The second makes the stores, and `read` then advances the position.

The kernel is mapped while a system call runs, so such a store may hit kernel
data.  The model follows stores into the user page, into the video window and
into the integer fields of a descriptor; it has no successor for a store
anywhere else.  A run of the model is thus one in which no call stores into other
kernel data, and what holds of every run holds up to the first such store.
-/

namespace PonyOS.Syscall

open PonyOS.FileSystem
open PonyOS.Lib.Transition
open PonyOS.Lib.Word
open PonyOS.Process
open PonyOS.Terminal

/-! ## Stores through user pointers -/

/-- Start of the control block in slot 7, the lowest one. -/
def pcbRegionStart : Nat := 0x7F0000

/-- End of the control block in slot 0. -/
def pcbRegionEnd : Nat := 0x800000

/-- The descriptor field at an address: slot, descriptor, and offset inside
`file_desc_t`. -/
def descriptorAt (address : Nat) : Option (Nat × Nat × Nat) :=
  if pcbRegionStart ≤ address ∧ address < pcbRegionEnd then
    let slot := 7 - (address - pcbRegionStart) / assignedPcbSize
    let offset := (address - pcbRegionStart) % assignedPcbSize
    if 32 ≤ offset ∧ offset < 192 then some (slot, (offset - 32) / 20, (offset - 32) % 20)
    else none
  else none

/-- One byte of an `int32_t` replaced. -/
def patchInt (value : Int) (index : Nat) (byte : UInt8) : Int :=
  int32 (patchByte (uint32 value) index byte)

/-- One byte of a descriptor replaced.  The first eight are the function
pointers. -/
def patchDescriptor (desc : FileDesc) (offset : Nat) (byte : UInt8) : Option FileDesc :=
  if offset < 8 then none
  else if offset < 12 then some { desc with inode := patchInt desc.inode (offset - 8) byte }
  else if offset < 16 then
    some { desc with filePosition := patchInt desc.filePosition (offset - 12) byte }
  else some { desc with flags := patchInt desc.flags (offset - 16) byte }

/-- Replace one descriptor of one process. -/
def setDescriptor (kernel : Kernel) (slot fd : Nat) (desc : FileDesc) : Kernel :=
  kernel.setPcb slot
    { kernel.pcb slot with fileArray := Function.update (kernel.pcb slot).fileArray fd desc }

/-- Addresses of the user page. -/
def InUserPage (address : Nat) : Prop :=
  userPageStart ≤ address ∧ address < userPageEnd

/-- Addresses of the video window. -/
def InVideoWindow (address : Nat) : Prop :=
  videoUser ≤ address ∧ address < videoUser + 4096

instance (address : Nat) : Decidable (InUserPage address) :=
  inferInstanceAs (Decidable (_ ∧ _))

instance (address : Nat) : Decidable (InVideoWindow address) :=
  inferInstanceAs (Decidable (_ ∧ _))

/-- One byte stored through a user pointer; `none` where it hits kernel data that
is not followed. -/
def userStore (kernel : Kernel) (store : Store) : Option Kernel :=
  if InUserPage store.address then some kernel
  else if InVideoWindow store.address then
    some (kernel.onConsole fun console =>
      console.vidmapStore (store.address - videoUser) store.byte)
  else
    match descriptorAt store.address with
    | none => none
    | some (slot, fd, offset) =>
        (patchDescriptor ((kernel.pcb slot).fileArray fd) offset store.byte).map
          (setDescriptor kernel slot fd)

/-- All stores of a call, in order. -/
def userStores (kernel : Kernel) (stores : List Store) : Option Kernel :=
  stores.foldlM userStore kernel

/-- What the user's pointers see after some stores. -/
def memoryAfter (memory : Memory) (stores : List Store) : Memory :=
  stores.foldl (fun memory store => Function.update memory store.address store.byte) memory

/-- `strlen` of a buffer. -/
def strlenAt (memory : Memory) (buf : Nat) : Int :=
  int32 (strlen (fun i => load memory (buf + i)) addressSpace)

/-! ## Handlers -/

/-- What the first half of a call yields. -/
structure Attempt where
  value : Int
  called : Option Handler
  stores : List Store
  kernel : Kernel

/-- `RTC_TYPE`. -/
def rtcType : Int := 0

/-- `DIR_TYPE`. -/
def dirType : Int := 1

/-- `REG_TYPE`. -/
def regType : Int := 2

/-- `terminal_read`, once the flag it waits for is set. -/
def terminalRead (kernel : Kernel) (memory : Memory) (buf count : Nat) : Option Attempt :=
  if kernel.terminals.lineReady then
    let stores := storesAt buf (kernel.terminals.readLine count)
    some
      { value := strlenAt (memoryAfter memory stores) buf
        called := some .terminalReadWrapper
        stores := stores
        kernel := { kernel with terminals := kernel.terminals.clearReady } }
  else none

/-- `rtc_read`, once the flag it waits for is set. -/
def rtcRead (kernel : Kernel) : Option Attempt :=
  if kernel.nextInterrupt then
    some
      { value := 0
        called := some .rtcReadWrapper
        stores := []
        kernel := { kernel with nextInterrupt := false } }
  else none

/-- `filesys_read`. -/
def filesysRead (kernel : Kernel) (inode offset buf count : Nat) : Attempt :=
  let result := kernel.fs.readData inode offset buf count
  { value := result.value
    called := some .filesysRead
    stores := kernel.fs.readStores result
    kernel := kernel }

/-- `dir_read`. -/
def dirRead (kernel : Kernel) (memory : Memory) (buf : Nat) : Attempt :=
  if kernel.currentDirReadIndex ≥ kernel.fs.numDirEntry then
    { value := 0, called := some .dirReadWrapper, stores := [], kernel := kernel }
  else
    match kernel.fs.readDentryByIndex (uint32 kernel.currentDirReadIndex) with
    | none => { value := -1, called := some .dirReadWrapper, stores := [], kernel := kernel }
    | some temp =>
        let stores := storesAt buf (temp.fileName ++ [0])
        { value := strlenAt (memoryAfter memory stores) buf
          called := some .dirReadWrapper
          stores := stores
          kernel := { kernel with currentDirReadIndex := kernel.currentDirReadIndex + 1 } }

/-- The call through the `read` pointer of a descriptor.  A null pointer faults. -/
def callRead (kernel : Kernel) (memory : Memory) (desc : FileDesc) (buf count : Nat) :
    Option Attempt :=
  match desc.read with
  | .terminalReadWrapper => terminalRead kernel memory buf count
  | .rtcReadWrapper => rtcRead kernel
  | .filesysRead =>
      some (filesysRead kernel (uint32 desc.inode) (uint32 desc.filePosition) buf count)
  | .dirReadWrapper => some (dirRead kernel memory buf)
  | _ => none

/-- `MAX_FREQ`. -/
def maxFreq : Int := 1024

/-- The loop of `rtc_write` that looks for a second bit. -/
def rtcOddBit : Nat → Nat → Bool
  | 0, _ => false
  | fuel + 1, temp =>
      if temp = 0 then false
      else (temp % 2 ≠ 0 ∧ temp ≠ 1) || rtcOddBit fuel (temp / 2)

/-- Result of `rtc_write`; the frequency goes to the device. -/
def rtcWrite (memory : Memory) (buf : Nat) : Int :=
  if buf = 0 then -1
  else
    let temp := int32 (loadWord memory buf)
    if temp ≤ 0 then -1
    else if rtcOddBit 32 (if temp > maxFreq then maxFreq else temp).toNat then -1
    else 0

/-- The call through the `write` pointer of a descriptor. -/
def callWrite (kernel : Kernel) (memory : Memory) (desc : FileDesc) (buf : Nat) (count : Int) :
    Option Attempt :=
  match desc.write with
  | .terminalWriteWrapper =>
      (kernel.terminals.terminalWrite (fun k => load memory (buf + k)) count).map fun written =>
        { value := written.1
          called := some .terminalWriteWrapper
          stores := []
          kernel := { kernel with terminals := written.2 } }
  | .rtcWriteWrapper =>
      some
        { value := rtcWrite memory buf
          called := some .rtcWriteWrapper
          stores := []
          kernel := kernel }
  | .filesysWriteWrapper =>
      some { value := -1, called := some .filesysWriteWrapper, stores := [], kernel := kernel }
  | .dirWriteWrapper =>
      some { value := -1, called := some .dirWriteWrapper, stores := [], kernel := kernel }
  | _ => none

/-! ## The calls -/

/-- A call that fails without any effect. -/
def refused (kernel : Kernel) : Attempt :=
  { value := -1, called := none, stores := [], kernel := kernel }

/-- The handlers that `open` stores for a file type; other types keep what the
descriptor had. -/
def setHandlers (desc : FileDesc) (fileType : Int) : FileDesc :=
  if fileType = rtcType then { desc with read := .rtcReadWrapper, write := .rtcWriteWrapper }
  else if fileType = regType then
    { desc with read := .filesysRead, write := .filesysWriteWrapper }
  else if fileType = dirType then
    { desc with read := .dirReadWrapper, write := .dirWriteWrapper }
  else desc

/-- The descriptor after an `open`. -/
def openedDescriptor (desc : FileDesc) (dentry : Dentry) : FileDesc :=
  setHandlers { desc with inode := dentry.inode, flags := 1, filePosition := 0 } dentry.fileType

/-- The scan of `open` for a free descriptor. -/
def freeDescriptor (fileArray : Nat → FileDesc) : Option Nat :=
  (List.range fdtSize).find? fun i => (fileArray i).flags = 0

/-- The part of `open` after the scan.  `filesys_open` resets the enumeration
position. -/
def takeDescriptor (kernel : Kernel) (pid i : Nat) (temp : Dentry) : Kernel :=
  let pcb := kernel.pcb pid
  { kernel.setPcb pid
      { pcb with
        available := Function.update pcb.available i 1
        fileArray := Function.update pcb.fileArray i
          (openedDescriptor (pcb.fileArray i) temp) } with
    currentDirReadIndex :=
      if temp.fileType = dirType then 0 else kernel.currentDirReadIndex }

/-- `open`. -/
def openFile (kernel : Kernel) (pid : Nat) (filename : CString) : Attempt :=
  match kernel.fs.readDentryByName filename with
  | none => refused kernel
  | some temp =>
      match freeDescriptor (kernel.pcb pid).fileArray with
      | none => refused kernel
      | some i =>
          { value := i, called := none, stores := [], kernel := takeDescriptor kernel pid i temp }

/-- `close`. -/
def close (kernel : Kernel) (pid : Nat) (fd : Int) : Attempt :=
  let desc := (kernel.pcb pid).fileArray fd.toNat
  if fd ≥ fdtSize ∨ fd ≤ 1 ∨ desc.flags = 0 then refused kernel
  else
    { value := 0
      called := none
      stores := []
      kernel := setDescriptor kernel pid fd.toNat { desc with flags := 0 } }

/-- `read` up to its stores. -/
def read (kernel : Kernel) (pid : Nat) (memory : Memory) (fd : Int) (buf : Nat) (nbytes : Int) :
    Option Attempt :=
  if fd ≥ fdtSize ∨ fd < 0 ∨ fd = 1 then some (refused kernel)
  else
    let desc := (kernel.pcb pid).fileArray fd.toNat
    if desc.flags = 0 then some (refused kernel)
    else callRead kernel memory desc buf (uint32 nbytes)

/-- `write`. -/
def write (kernel : Kernel) (pid : Nat) (memory : Memory) (fd : Int) (buf : Nat) (nbytes : Int) :
    Option Attempt :=
  if fd ≥ fdtSize ∨ fd < 0 ∨ fd = 0 then some (refused kernel)
  else
    let desc := (kernel.pcb pid).fileArray fd.toNat
    if desc.flags = 0 then some (refused kernel)
    else callWrite kernel memory desc buf nbytes

/-- `getargs`. -/
def getargs (kernel : Kernel) (pid : Nat) (buf : Nat) (nbytes : Int) : Attempt :=
  if buf = 0 then refused kernel
  else if kernel.argAvailable pid = false then refused kernel
  else
    { value := 0
      called := none
      stores := storesAt buf
        ((List.range (uint32 nbytes)).map fun k => kernel.argBuf (maxArgSize * pid + k))
      kernel := kernel }

/-- The bytes of `VIDEO_USER`. -/
def videoUserBytes : List UInt8 := [0x00, 0x80, 0x0B, 0x0A]

/-- `vidmap`. -/
def vidmap (kernel : Kernel) (screenstart : Nat) : Attempt :=
  if screenstart = 0 then refused kernel
  else if int32 screenstart < userPageStart ∨ int32 screenstart ≥ userPageEnd then refused kernel
  else
    { value := 0
      called := none
      stores := storesAt screenstart videoUserBytes
      kernel := kernel }

/-- The system calls that return to their caller. -/
inductive Call
  | read (fd : Int) (buf : Nat) (nbytes : Int)
  | write (fd : Int) (buf : Nat) (nbytes : Int)
  | openFile (filename : CString)
  | close (fd : Int)
  | getargs (buf : Nat) (nbytes : Int)
  | vidmap (screenstart : Nat)
  deriving DecidableEq

/-- The first half of a call by a process. -/
def attempt (kernel : Kernel) (pid : Nat) (memory : Memory) : Call → Option Attempt
  | .read fd buf nbytes => read kernel pid memory fd buf nbytes
  | .write fd buf nbytes => write kernel pid memory fd buf nbytes
  | .openFile filename => some (openFile kernel pid filename)
  | .close fd => some (close kernel pid fd)
  | .getargs buf nbytes => some (getargs kernel pid buf nbytes)
  | .vidmap screenstart => some (vidmap kernel screenstart)

/-- The end of `read`: the position moves by the result, unless it is `-1`. -/
def advance (kernel : Kernel) (pid : Nat) (fd value : Int) : Kernel :=
  if value = -1 then kernel
  else
    let desc := (kernel.pcb pid).fileArray fd.toNat
    setDescriptor kernel pid fd.toNat
      { desc with filePosition := int32 (desc.filePosition + value) }

/-- What a call did after its stores. -/
def finish (kernel : Kernel) (pid : Nat) (call : Call) (tried : Attempt) : Kernel :=
  match call with
  | .read fd _ _ => advance kernel pid fd tried.value
  | _ => kernel

/-- What a call answers: the result, the handler it went through and the bytes
it stored for the user. -/
structure CallReply where
  pid : Nat
  value : Int
  called : Option Handler
  stores : List Store
  deriving DecidableEq

/-- A whole call. -/
def systemCall (kernel : Kernel) (pid : Nat) (memory : Memory) (call : Call) :
    Option (CallReply × Kernel) :=
  match attempt kernel pid memory call with
  | none => none
  | some tried =>
      (userStores tried.kernel tried.stores).map fun stored =>
        ({ pid := pid, value := tried.value, called := tried.called, stores := tried.stores },
          finish stored pid call tried)

/-! ## How reads and writes end -/

/-- What a call through the `read` pointer can be. -/
inductive CalledRead (kernel : Kernel) (memory : Memory) (desc : FileDesc) (buf count : Nat) :
    Attempt → Prop
  | terminal : desc.read = .terminalReadWrapper → kernel.terminals.lineReady = true →
      CalledRead kernel memory desc buf count
        { value :=
            strlenAt (memoryAfter memory (storesAt buf (kernel.terminals.readLine count))) buf
          called := some .terminalReadWrapper
          stores := storesAt buf (kernel.terminals.readLine count)
          kernel := { kernel with terminals := kernel.terminals.clearReady } }
  | rtc : desc.read = .rtcReadWrapper → kernel.nextInterrupt = true →
      CalledRead kernel memory desc buf count
        { value := 0
          called := some .rtcReadWrapper
          stores := []
          kernel := { kernel with nextInterrupt := false } }
  | file : desc.read = .filesysRead →
      CalledRead kernel memory desc buf count
        (filesysRead kernel (uint32 desc.inode) (uint32 desc.filePosition) buf count)
  | directory : desc.read = .dirReadWrapper →
      CalledRead kernel memory desc buf count (dirRead kernel memory buf)

/-- What a call through the `write` pointer can be. -/
inductive CalledWrite (kernel : Kernel) (memory : Memory) (desc : FileDesc) (buf : Nat)
    (count : Int) : Attempt → Prop
  | terminal (value : Int) (terminals : Terminals) : desc.write = .terminalWriteWrapper →
      kernel.terminals.terminalWrite (fun k => load memory (buf + k)) count =
        some (value, terminals) →
      CalledWrite kernel memory desc buf count
        { value := value
          called := some .terminalWriteWrapper
          stores := []
          kernel := { kernel with terminals := terminals } }
  | rtc : desc.write = .rtcWriteWrapper →
      CalledWrite kernel memory desc buf count
        { value := rtcWrite memory buf
          called := some .rtcWriteWrapper
          stores := []
          kernel := kernel }
  | file : desc.write = .filesysWriteWrapper →
      CalledWrite kernel memory desc buf count
        { value := -1, called := some .filesysWriteWrapper, stores := [], kernel := kernel }
  | directory : desc.write = .dirWriteWrapper →
      CalledWrite kernel memory desc buf count
        { value := -1, called := some .dirWriteWrapper, stores := [], kernel := kernel }

theorem callRead_cases {kernel : Kernel} {memory : Memory} {desc : FileDesc} {buf count : Nat}
    {tried : Attempt} (attempted : callRead kernel memory desc buf count = some tried) :
    CalledRead kernel memory desc buf count tried := by
  unfold callRead at attempted
  cases handler : desc.read with
  | terminalReadWrapper =>
      simp only [handler, terminalRead] at attempted
      split at attempted
      · next ready =>
          rw [← Option.some.inj attempted]
          exact .terminal handler ready
      · contradiction
  | rtcReadWrapper =>
      simp only [handler, rtcRead] at attempted
      split at attempted
      · next ticked =>
          rw [← Option.some.inj attempted]
          exact .rtc handler ticked
      · contradiction
  | filesysRead =>
      simp only [handler] at attempted
      rw [← Option.some.inj attempted]
      exact .file handler
  | dirReadWrapper =>
      simp only [handler] at attempted
      rw [← Option.some.inj attempted]
      exact .directory handler
  | _ => simp [handler] at attempted

theorem callWrite_cases {kernel : Kernel} {memory : Memory} {desc : FileDesc} {buf : Nat}
    {count : Int} {tried : Attempt}
    (attempted : callWrite kernel memory desc buf count = some tried) :
    CalledWrite kernel memory desc buf count tried := by
  unfold callWrite at attempted
  cases handler : desc.write with
  | terminalWriteWrapper =>
      simp only [handler] at attempted
      obtain ⟨⟨value, terminals⟩, written, rfl⟩ := Option.map_eq_some_iff.mp attempted
      exact .terminal value terminals handler written
  | rtcWriteWrapper =>
      simp only [handler] at attempted
      rw [← Option.some.inj attempted]
      exact .rtc handler
  | filesysWriteWrapper =>
      simp only [handler] at attempted
      rw [← Option.some.inj attempted]
      exact .file handler
  | dirWriteWrapper =>
      simp only [handler] at attempted
      rw [← Option.some.inj attempted]
      exact .directory handler
  | _ => simp [handler] at attempted

/-- A read is refused, or goes through an open descriptor. -/
theorem read_cases {kernel : Kernel} {pid : Nat} {memory : Memory} {fd : Int} {buf : Nat}
    {nbytes : Int} {tried : Attempt}
    (attempted : read kernel pid memory fd buf nbytes = some tried) :
    ((fd ≥ fdtSize ∨ fd < 0 ∨ fd = 1 ∨ ((kernel.pcb pid).fileArray fd.toNat).flags = 0) ∧
        tried = refused kernel) ∨
      (¬ (fd ≥ fdtSize ∨ fd < 0 ∨ fd = 1) ∧
        ((kernel.pcb pid).fileArray fd.toNat).flags ≠ 0 ∧
        callRead kernel memory ((kernel.pcb pid).fileArray fd.toNat) buf (uint32 nbytes) =
          some tried) := by
  unfold read at attempted
  split at attempted
  · next invalid => exact .inl ⟨by tauto, (Option.some.inj attempted).symm⟩
  · next valid =>
      simp only at attempted
      split at attempted
      · next closed => exact .inl ⟨by tauto, (Option.some.inj attempted).symm⟩
      · next isOpen => exact .inr ⟨valid, isOpen, attempted⟩

theorem write_cases {kernel : Kernel} {pid : Nat} {memory : Memory} {fd : Int} {buf : Nat}
    {nbytes : Int} {tried : Attempt}
    (attempted : write kernel pid memory fd buf nbytes = some tried) :
    ((fd ≥ fdtSize ∨ fd < 0 ∨ fd = 0 ∨ ((kernel.pcb pid).fileArray fd.toNat).flags = 0) ∧
        tried = refused kernel) ∨
      (¬ (fd ≥ fdtSize ∨ fd < 0 ∨ fd = 0) ∧
        ((kernel.pcb pid).fileArray fd.toNat).flags ≠ 0 ∧
        callWrite kernel memory ((kernel.pcb pid).fileArray fd.toNat) buf nbytes =
          some tried) := by
  unfold write at attempted
  split at attempted
  · next invalid => exact .inl ⟨by tauto, (Option.some.inj attempted).symm⟩
  · next valid =>
      simp only at attempted
      split at attempted
      · next closed => exact .inl ⟨by tauto, (Option.some.inj attempted).symm⟩
      · next isOpen => exact .inr ⟨valid, isOpen, attempted⟩

/-! ## The whole system -/

/-- Everything that happens: the events that move processes, the other system
calls with the memory that their pointers see, and the clock interrupt.  The
memory may be any, also where a pointer sees kernel data. -/
inductive SystemEvent
  | process (event : ProcessEvent)
  | call (memory : Memory) (call : Call)
  | rtc

/-- What the events answer; for the first kind with the process that was in
user mode. -/
inductive SystemReply
  | process (caller : Option Nat) (reply : ProcessReply)
  | call (reply : CallReply)
  | rtc
  deriving DecidableEq

/-- One event of the system.  A blocking read is the event of its completion:
until then its caller changes nothing. -/
def systemStep : Step Kernel SystemEvent SystemReply
  | kernel, .process event =>
      (processStep kernel event).map fun outcome =>
        (.process kernel.userProcess outcome.1, outcome.2)
  | kernel, .call memory call =>
      match kernel.userProcess with
      | none => none
      | some pid =>
          (systemCall kernel pid memory call).map fun outcome => (.call outcome.1, outcome.2)
  | kernel, .rtc => some (.rtc, { kernel with nextInterrupt := true })

/-- What an event of the system can be. -/
inductive Stepped (kernel target : Kernel) : SystemEvent → SystemReply → Prop
  | process (event : ProcessEvent) (answer : ProcessReply) :
      processStep kernel event = some (answer, target) →
      Stepped kernel target (.process event) (.process kernel.userProcess answer)
  | call (pid : Nat) (memory : Memory) (asked : Call) (answer : CallReply) :
      kernel.userProcess = some pid →
      systemCall kernel pid memory asked = some (answer, target) →
      Stepped kernel target (.call memory asked) (.call answer)
  | rtc : target = { kernel with nextInterrupt := true } → Stepped kernel target .rtc .rtc

theorem systemStep_cases {kernel target : Kernel} {event : SystemEvent} {reply : SystemReply}
    (stepped : systemStep kernel event = some (reply, target)) :
    Stepped kernel target event reply := by
  cases event with
  | process event =>
      obtain ⟨⟨answer, final⟩, moved, outcomeEq⟩ := Option.map_eq_some_iff.mp stepped
      cases outcomeEq
      exact .process event answer moved
  | call memory asked =>
      simp only [systemStep] at stepped
      split at stepped
      · contradiction
      · next pid isUser =>
          obtain ⟨⟨answer, final⟩, called, outcomeEq⟩ := Option.map_eq_some_iff.mp stepped
          cases outcomeEq
          exact .call pid memory asked answer isUser called
  | rtc =>
      cases stepped
      exact .rtc rfl

end PonyOS.Syscall
