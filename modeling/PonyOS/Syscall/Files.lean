import PonyOS.Syscall.Buffers

/-!
# Sequential reads of an open file

A process that opens a regular file and reads it piece by piece gets the file:
each read delivers the next bytes, as many as were asked for and are left.
Nothing that other processes do, and nothing that the process does on its other
descriptors, moves the position in between.
-/

namespace PonyOS.Syscall

open PonyOS.FileSystem
open PonyOS.Lib.Transition
open PonyOS.Lib.Word
open PonyOS.Process
open PonyOS.Terminal

/-- Position in the file, by the results of the reads so far. -/
def readPosition (pid : Nat) (fd : Int) (position : Nat) : SystemEvent → SystemReply → Nat
  | .call _ (.read asked _ _), .call reply =>
      if reply.pid = pid ∧ asked = fd then position + reply.value.toNat else position
  | _, _ => position

/-- A read of the descriptor delivers the bytes at the position: as many as were
asked for and are left. -/
def ReadSpec (contents : List UInt8) (pid : Nat) (fd : Int) (position : Nat) :
    SystemEvent → SystemReply → Prop
  | .call _ (.read asked buf nbytes), .call reply =>
      reply.pid = pid → asked = fd →
        reply.value = (min nbytes.toNat (contents.length - position) : Nat) ∧
          reply.stores = storesAt buf ((contents.drop position).take reply.value.toNat)
  | _, _ => True

/-- The process keeps the descriptor open, asks for sensible lengths, and every
buffer lies in user memory. -/
def keepsOpen (pid : Nat) (fd : Int) (kernel : Kernel) (event : SystemEvent)
    (reply : SystemReply) : Prop :=
  BufferInUserMemory kernel event ∧
    match event, reply with
    | .call _ (.close asked), .call answer => answer.pid = pid → asked ≠ fd
    | .call _ (.read asked _ nbytes), .call answer =>
        answer.pid = pid → asked = fd → 0 ≤ nbytes ∧ nbytes < 2147483648
    | _, .process caller answer => caller = some pid → endsProcess answer = false
    | _, _ => True

/-! ## The terminal's descriptors stay open -/

/-- Descriptors 0 and 1 of every running process are open. -/
def TerminalOpen (kernel : Kernel) : Prop :=
  ∀ pid, kernel.processStatus pid = true →
    ((kernel.pcb pid).fileArray 0).flags = 1 ∧ ((kernel.pcb pid).fileArray 1).flags = 1

/-- A call by its result: which entry of the caller's table it touches. -/
theorem filesAfter_of_ne {fs : Volume} {files : Nat → FileDesc} {call : Call} {value : Int}
    {slot : Nat}
    (other : value = -1 ∨
      match call with
      | .read fd _ _ => fd.toNat ≠ slot
      | .openFile _ => value.toNat ≠ slot
      | .close fd => fd.toNat ≠ slot
      | _ => True) : filesAfter fs files call value slot = files slot := by
  by_cases failed : value = -1
  · simp only [filesAfter, failed, if_true]
  · have elsewhere := other.resolve_left failed
    cases call with
    | read fd buf nbytes =>
        simp only [filesAfter, failed, if_false]
        exact Function.update_of_ne (Ne.symm elsewhere) ..
    | openFile filename =>
        simp only [filesAfter, failed, if_false]
        cases fs.readDentryByName filename with
        | none => rfl
        | some dentry => exact Function.update_of_ne (Ne.symm elsewhere) ..
    | close fd =>
        simp only [filesAfter, failed, if_false]
        exact Function.update_of_ne (Ne.symm elsewhere) ..
    | write fd buf nbytes => simp only [filesAfter, failed, if_false]
    | getargs buf nbytes => simp only [filesAfter, failed, if_false]
    | vidmap screenstart => simp only [filesAfter, failed, if_false]

/-- A successful `open` takes a descriptor that was free. -/
theorem openFile_value {kernel : Kernel} {pid : Nat} {filename : CString}
    (success : (openFile kernel pid filename).value ≠ -1) :
    ∃ fd : Nat, (openFile kernel pid filename).value = fd ∧ fd < 8 ∧
      ((kernel.pcb pid).fileArray fd).flags = 0 := by
  rcases openFile_cases kernel pid filename with
    ⟨-, opened⟩ | ⟨dentry, i, -, scanned, opened⟩
  · rw [opened] at success
    exact absurd rfl success
  · rw [opened]
    have member := List.mem_of_find?_eq_some scanned
    exact ⟨i, rfl, List.mem_range.mp member, by simpa using List.find?_some scanned⟩

/-- A successful `close` names a descriptor above those of the terminal. -/
theorem close_value {kernel : Kernel} {pid : Nat} {fd : Int}
    (success : (close kernel pid fd).value ≠ -1) : 2 ≤ fd := by
  by_contra low
  have invalid : fd ≥ fdtSize ∨ fd ≤ 1 ∨ ((kernel.pcb pid).fileArray fd.toNat).flags = 0 := by
    omega
  have refusal : close kernel pid fd = refused kernel := if_pos invalid
  rw [refusal] at success
  exact success rfl

/-- No call closes a descriptor below 2. -/
theorem filesAfter_flags {kernel : Kernel} {pid : Nat} {memory : Memory} {call : Call}
    {tried : Attempt} {slot : Nat} (attempted : attempt kernel pid memory call = some tried)
    (low : slot < 2) (isOpen : ((kernel.pcb pid).fileArray slot).flags = 1) :
    (filesAfter kernel.fs (kernel.pcb pid).fileArray call tried.value slot).flags = 1 := by
  by_cases failed : tried.value = -1
  · rw [filesAfter_of_ne (.inl failed)]
    exact isOpen
  · cases call with
    | read fd buf nbytes =>
        simp only [filesAfter, failed, if_false]
        by_cases own : slot = fd.toNat
        · rw [own, Function.update_self]
          rw [own] at isOpen
          exact isOpen
        · rw [Function.update_of_ne own]
          exact isOpen
    | openFile filename =>
        rw [← Option.some.inj attempted] at failed ⊢
        obtain ⟨fd, valueEq, -, clear⟩ := openFile_value failed
        rw [filesAfter_of_ne, isOpen]
        right
        simp only [valueEq, Int.toNat_natCast]
        rintro rfl
        rw [isOpen] at clear
        contradiction
    | close fd =>
        rw [← Option.some.inj attempted] at failed ⊢
        have lower := close_value failed
        rw [filesAfter_of_ne, isOpen]
        right
        simp only
        omega
    | write fd buf nbytes =>
        rw [filesAfter_of_ne (.inr trivial)]
        exact isOpen
    | getargs buf nbytes =>
        rw [filesAfter_of_ne (.inr trivial)]
        exact isOpen
    | vidmap screenstart =>
        rw [filesAfter_of_ne (.inr trivial)]
        exact isOpen

/-- Every event keeps descriptors 0 and 1 open. -/
theorem TerminalOpen.step {kernel target : Kernel} {event : SystemEvent} {reply : SystemReply}
    (terminal : TerminalOpen kernel) (effect : SystemEffect kernel target event reply) :
    TerminalOpen target := by
  cases effect with
  | process event reply effect =>
      intro pid isRunning
      cases before : kernel.processStatus pid with
      | true =>
          rw [effect.kept pid before]
          exact terminal pid before
      | false =>
          rw [effect.fresh pid before isRunning]
          exact ⟨rfl, rfl⟩
  | call memory asked pid reply tried isUser attempted replyEq effect =>
      intro other isRunning
      rw [effect.status] at isRunning
      obtain ⟨stdin, stdout⟩ := terminal other isRunning
      by_cases own : other = pid
      · rw [own] at stdin stdout ⊢
        rw [effect.files, replyEq]
        exact ⟨filesAfter_flags attempted (by decide) stdin,
          filesAfter_flags attempted (by decide) stdout⟩
      · rw [effect.others other own]
        exact ⟨stdin, stdout⟩
  | rtc targetEq =>
      rw [targetEq]
      exact terminal

/-! ## One open file -/

/-- A regular file of a well-formed image, as the code sees it. -/
structure RegularFile (fs : Volume) (inode : Nat) (contents : List UInt8) : Prop where
  inodeLt : inode < uint32 fs.numInodes
  length : fs.inodeLength inode = contents.length
  small : contents.length ≤ 1023 * 4096
  slice : ∀ offset count, offset + count ≤ contents.length →
    fs.fileSlice inode offset count = (contents.drop offset).take count

/-- The descriptor of an open regular file. -/
def regularDescriptor (inode : Int) (position : Nat) : FileDesc :=
  { read := .filesysRead
    write := .filesysWriteWrapper
    inode := inode
    filePosition := position
    flags := 1 }

/-- A running process has the file open at a position. -/
structure Tracks (fs : Volume) (pid fd : Nat) (inode : Int) (size : Nat) (kernel : Kernel)
    (position : Nat) : Prop where
  known : PidsKnown kernel
  volume : kernel.fs = fs
  running : kernel.processStatus pid = true
  desc : (kernel.pcb pid).fileArray fd = regularDescriptor inode position
  inside : position ≤ size

theorem read_regular_eq {kernel : Kernel} {pid : Nat} (memory : Memory) {fd : Int} (buf : Nat)
    (nbytes : Int) {inode : Int} {position : Nat}
    (desc : (kernel.pcb pid).fileArray fd.toNat = regularDescriptor inode position)
    (lower : 2 ≤ fd) (upper : fd < 8) :
    read kernel pid memory fd buf nbytes =
      some (filesysRead kernel (uint32 inode) (uint32 position) buf (uint32 nbytes)) := by
  have valid : ¬ (fd ≥ fdtSize ∨ fd < 0 ∨ fd = 1) := by
    unfold fdtSize
    omega
  simp [read, valid, callRead, desc, regularDescriptor]

theorem read_regular {kernel : Kernel} {pid : Nat} {memory : Memory} {fd : Int} {buf : Nat}
    {nbytes inode : Int} {position : Nat} {contents : List UInt8} {tried : Attempt}
    (file : RegularFile kernel.fs (uint32 inode) contents)
    (desc : (kernel.pcb pid).fileArray fd.toNat = regularDescriptor inode position)
    (lower : 2 ≤ fd) (upper : fd < 8) (inside : position ≤ contents.length)
    (nonneg : 0 ≤ nbytes) (small : nbytes < 2147483648)
    (attempted : read kernel pid memory fd buf nbytes = some tried) :
    tried.value = (min nbytes.toNat (contents.length - position) : Nat) ∧
      tried.stores = storesAt buf ((contents.drop position).take tried.value.toNat) := by
  have positionEq : uint32 (position : Int) = position :=
    uint32_of_lt (Nat.lt_of_le_of_lt inside (Nat.lt_of_le_of_lt file.small (by decide)))
  have nbytesEq : uint32 nbytes = nbytes.toNat := by
    unfold uint32
    omega
  rw [read_regular_eq memory buf nbytes desc lower upper, positionEq, nbytesEq] at attempted
  rw [← Option.some.inj attempted]
  have sizeSmall := file.small
  have lengthEq := file.length
  have count : kernel.fs.readCount (uint32 inode) position nbytes.toNat =
      min nbytes.toNat (contents.length - position) := by
    rw [kernel.fs.readCount_eq file.inodeLt (by omega) (by omega) (by omega), lengthEq]
  obtain ⟨value, stores⟩ :=
    kernel.fs.readData_spec (uint32 inode) position buf nbytes.toNat
  rw [if_neg (Nat.not_le.mpr file.inodeLt), count] at value
  rw [count, file.slice position _ (by omega)] at stores
  refine ⟨value, ?_⟩
  simp only [filesysRead, stores, value, Int.toNat_natCast]

theorem filesAfter_read {fs : Volume} {files : Nat → FileDesc} {fd buf : Nat} {nbytes value : Int}
    (success : value ≠ -1) :
    filesAfter fs files (.read fd buf nbytes) value fd =
      { files (fd : Int).toNat with
        filePosition := int32 ((files (fd : Int).toNat).filePosition + value) } := by
  simp [filesAfter, success]

/-- The descriptor survives what its process does on other descriptors. -/
theorem filesAfter_elsewhere {kernel : Kernel} {pid : Nat} {memory : Memory} {call : Call}
    {tried : Attempt} {fd : Nat} (attempted : attempt kernel pid memory call = some tried)
    (lower : 2 ≤ fd) (isOpen : ((kernel.pcb pid).fileArray fd).flags = 1)
    (elsewhere : match call with
      | .read asked _ _ => asked ≠ fd
      | .close asked => asked ≠ fd
      | _ => True) :
    filesAfter kernel.fs (kernel.pcb pid).fileArray call tried.value fd =
      (kernel.pcb pid).fileArray fd := by
  apply filesAfter_of_ne
  by_cases failed : tried.value = -1
  · exact .inl failed
  · right
    cases call with
    | read asked buf nbytes =>
        simp only at elsewhere ⊢
        omega
    | openFile filename =>
        rw [← Option.some.inj attempted] at failed ⊢
        obtain ⟨taken, valueEq, -, clear⟩ := openFile_value failed
        simp only [valueEq, Int.toNat_natCast]
        rintro rfl
        rw [isOpen] at clear
        contradiction
    | close asked =>
        simp only at elsewhere ⊢
        omega
    | write asked buf nbytes => trivial
    | getargs buf nbytes => trivial
    | vidmap screenstart => trivial

/-- A read of the descriptor meets the specification and leaves the file open
at the next position. -/
theorem Tracks.ownRead {fs : Volume} {pid fd : Nat} {inode : Int} {contents : List UInt8}
    {kernel target : Kernel} {position : Nat} {memory : Memory} {buf : Nat} {nbytes : Int}
    {reply : CallReply} {tried : Attempt} (file : RegularFile fs (uint32 inode) contents)
    (lower : 2 ≤ fd) (upper : fd < 8)
    (tracks : Tracks fs pid fd inode contents.length kernel position)
    (nonneg : 0 ≤ nbytes) (small : nbytes < 2147483648)
    (attempted : read kernel pid memory fd buf nbytes = some tried)
    (replyEq : reply =
      { pid := pid, value := tried.value, called := tried.called, stores := tried.stores })
    (effect : CallEffect kernel target pid (.read fd buf nbytes) reply)
    (known : PidsKnown target) :
    (reply.value = (min nbytes.toNat (contents.length - position) : Nat) ∧
        reply.stores = storesAt buf ((contents.drop position).take reply.value.toNat)) ∧
      Tracks fs pid fd inode contents.length target (position + reply.value.toNat) := by
  have desc : (kernel.pcb pid).fileArray (fd : Int).toNat = regularDescriptor inode position :=
    tracks.desc
  obtain ⟨value, stores⟩ := read_regular (tracks.volume ▸ file) desc
    (by omega) (by omega) tracks.inside nonneg small attempted
  have replyValue : reply.value = tried.value := congrArg CallReply.value replyEq
  have replyStores : reply.stores = tried.stores := congrArg CallReply.stores replyEq
  rw [← replyValue] at value stores
  rw [← replyStores] at stores
  have inside := tracks.inside
  have sizeSmall := file.small
  refine ⟨⟨value, stores⟩, known, effect.fs.trans tracks.volume, ?_, ?_, ?_⟩
  · rw [effect.status]
    exact tracks.running
  · have moved : int32 ((position : Int) + reply.value) =
        (position + reply.value.toNat : Nat) := by
      unfold int32
      omega
    rw [effect.files, filesAfter_read (by omega), desc]
    simp only [regularDescriptor, moved]
  · omega

/-- One event: a read of the descriptor meets the specification, and the file
stays open at the position it leaves. -/
theorem Tracks.step {fs : Volume} {pid fd : Nat} {inode : Int} {contents : List UInt8}
    {kernel target : Kernel} {position : Nat} {event : SystemEvent} {reply : SystemReply}
    (file : RegularFile fs (uint32 inode) contents) (lower : 2 ≤ fd) (upper : fd < 8)
    (tracks : Tracks fs pid fd inode contents.length kernel position)
    (keeps : keepsOpen pid fd kernel event reply)
    (stepped : systemStep kernel event = some (reply, target)) :
    ReadSpec contents pid fd position event reply ∧
      Tracks fs pid fd inode contents.length target (readPosition pid fd position event reply) := by
  have effect := systemStep_effect tracks.known keeps.1 stepped
  have known := effect.known tracks.known
  have volume := effect.fs.trans tracks.volume
  have isOpen : ((kernel.pcb pid).fileArray fd).flags = 1 := by
    rw [tracks.desc]
    rfl
  cases effect with
  | process event reply effect =>
      have stays : kernel.userProcess = some pid → endsProcess reply = false := by
        cases event <;> exact keeps.2
      have running : target.processStatus pid = true := by
        rcases effect.alive pid tracks.running with alive | ⟨isUser, ends⟩
        · exact alive
        · rw [stays isUser] at ends
          contradiction
      have desc := effect.kept pid tracks.running
      cases event <;>
        exact ⟨trivial, known, volume, running, by rw [desc, tracks.desc]; rfl, tracks.inside⟩
  | rtc targetEq =>
      rw [targetEq] at known volume ⊢
      exact ⟨trivial, known, volume, tracks.running, tracks.desc, tracks.inside⟩
  | call memory asked caller reply tried isUser attempted replyEq effect =>
      have running : target.processStatus pid = true := by
        rw [effect.status]
        exact tracks.running
      have replyPid : reply.pid = caller := effect.caller
      have unmoved : (target.pcb pid).fileArray fd = (kernel.pcb pid).fileArray fd →
          Tracks fs pid fd inode contents.length target position := fun same =>
        ⟨known, volume, running, same.trans tracks.desc, tracks.inside⟩
      by_cases own : caller = pid
      · subst own
        have elsewhere := fun other =>
          congrFun effect.files fd |>.trans
            ((congrArg (fun value => filesAfter kernel.fs (kernel.pcb caller).fileArray asked value
              fd) (congrArg CallReply.value replyEq)).trans
              (filesAfter_elsewhere attempted lower isOpen other))
        cases asked with
        | read askedFd buf nbytes =>
            by_cases here : askedFd = fd
            · subst here
              obtain ⟨nonneg, small⟩ := keeps.2 replyPid rfl
              obtain ⟨spec, moved⟩ := tracks.ownRead file lower upper nonneg small attempted
                replyEq effect known
              simp only [readPosition, replyPid, and_self, if_true]
              exact ⟨fun _ _ => spec, moved⟩
            · have notHere : ¬ (reply.pid = caller ∧ askedFd = fd) := fun both => here both.2
              refine ⟨fun _ isHere => absurd isHere here, ?_⟩
              simp only [readPosition, notHere, if_false]
              exact unmoved (elsewhere here)
        | close askedFd => exact ⟨trivial, unmoved (elsewhere (keeps.2 replyPid))⟩
        | openFile filename => exact ⟨trivial, unmoved (elsewhere trivial)⟩
        | write askedFd buf nbytes => exact ⟨trivial, unmoved (elsewhere trivial)⟩
        | getargs buf nbytes => exact ⟨trivial, unmoved (elsewhere trivial)⟩
        | vidmap screenstart => exact ⟨trivial, unmoved (elsewhere trivial)⟩
      · have same : (target.pcb pid).fileArray fd = (kernel.pcb pid).fileArray fd := by
          rw [effect.others pid (Ne.symm own)]
        have notOwn : reply.pid ≠ pid := replyPid ▸ own
        cases asked with
        | read askedFd buf nbytes =>
            refine ⟨fun isOwn => absurd isOwn notOwn, ?_⟩
            simp only [readPosition, notOwn, false_and, if_false]
            exact unmoved same
        | _ => exact ⟨trivial, unmoved same⟩

/-! ## Whole runs -/

theorem Image.word_lt (image : Image) (offset : Nat) : image.word offset < 4294967296 :=
  littleEndian_lt _ _ _ _

/-- A regular entry of a well-formed image names a regular file. -/
theorem regularFile_of_loaded {memory : Memory} {start : Nat} {image : Image} {name : CString}
    {dentry : Dentry} (loaded : Loaded memory start image) (wellFormed : image.WellFormed)
    (found : (filesysInit memory start).readDentryByName name = some dentry)
    (regular : dentry.fileType = regType) :
    RegularFile (filesysInit memory start) (uint32 dentry.inode)
      (image.fileBytes (uint32 dentry.inode)) := by
  obtain ⟨index, bound, -, rfl⟩ := Volume.readDentryByName_eq_some found
  rw [loaded.numDirEntry_eq wellFormed, Int.toNat_natCast] at bound
  obtain ⟨inodeEq, typeEq⟩ := loaded.dentryAt_inode wellFormed bound
  have inodeLt := wellFormed.inode_lt index bound
  have inodesSmall : image.numInodes < 2147483648 := by
    have fits := loaded.fits
    unfold Image.size at fits
    omega
  have inode : uint32 ((filesysInit memory start).dentryAt index).inode =
      image.entryInode index := by
    rw [inodeEq, int32_of_lt (Nat.lt_trans inodeLt inodesSmall), uint32_of_lt (by omega)]
  have isRegular : image.entryType index = Image.regularType := by
    have typeLt : image.entryType index < 4294967296 := Image.word_lt image _
    rw [typeEq] at regular
    unfold int32 regType at regular
    unfold Image.regularType
    omega
  rw [inode]
  have length := image.fileBytes_length (image.entryInode index)
  have lengthLe := wellFormed.length_le index bound isRegular
  constructor
  · rw [loaded.numInodes_eq, uint32_of_lt (by omega)]
    exact inodeLt
  · rw [loaded.inodeLength_eq inodeLt, length]
  · rw [length]
    exact lengthLe
  · intro offset count inside
    rw [length] at inside
    exact loaded.fileSlice_eq inodeLt lengthLe (wellFormed.block_lt index bound isRegular) inside

/-- What holds before any file is opened. -/
structure Ready (fs : Volume) (kernel : Kernel) : Prop where
  known : PidsKnown kernel
  volume : kernel.fs = fs
  terminal : TerminalOpen kernel

theorem Ready.of_run {fs : Volume} {paging : PonyOS.Paging.PageTables} {screen : Memory}
    {printBuffer argBuf fname : Nat → UInt8} {currentDirReadIndex : Int}
    {trace : List (SystemEvent × SystemReply)} {final : Kernel}
    (run : GuardedRun systemStep userBuffers
      (Kernel.boot fs paging screen printBuffer argBuf fname currentDirReadIndex) trace final) :
    Ready fs final := by
  apply run.invariant
  · intro kernel event reply target ready user stepped
    have effect := systemStep_effect ready.known user stepped
    exact ⟨effect.known ready.known, effect.fs.trans ready.volume, ready.terminal.step effect⟩
  · exact ⟨PidsKnown.boot .., rfl, fun pid isRunning => nomatch isRunning⟩

theorem Ready.opened {fs : Volume} {before after : Kernel} {memory : Memory} {name : CString}
    {dentry : Dentry} {reply : CallReply} {size : Nat} (ready : Ready fs before)
    (found : fs.readDentryByName name = some dentry) (regular : dentry.fileType = regType)
    (stepped : systemStep before (.call memory (.openFile name)) = some (.call reply, after))
    (success : reply.value ≠ -1) :
    ∃ fd : Nat, reply.value = fd ∧ 2 ≤ fd ∧ fd < 8 ∧
      Tracks fs reply.pid fd dentry.inode size after 0 := by
  have noBuffer : BufferInUserMemory before (.call memory (.openFile name)) :=
    fun _ _ _ impossible => absurd impossible (Nat.not_lt_zero _)
  have effect := systemStep_effect ready.known noBuffer stepped
  have known := effect.known ready.known
  have volume := effect.fs.trans ready.volume
  cases effect with
  | call _ _ pid _ tried isUser attempted replyEq effect =>
      have isRunning := (Kernel.userProcess_eq_some.mp isUser).2
      have triedEq := Option.some.inj attempted
      have valueEq : reply.value = (openFile before pid name).value := by
        rw [replyEq, ← triedEq]
      obtain ⟨fd, fdEq, upper, clear⟩ := openFile_value (valueEq ▸ success)
      have value : reply.value = fd := valueEq.trans fdEq
      obtain ⟨stdin, stdout⟩ := ready.terminal pid isRunning
      have lower := two_le_of_free stdin stdout clear
      refine ⟨fd, value, lower, upper, known, volume, ?_, ?_, Nat.zero_le size⟩
      · rw [effect.status, effect.caller]
        exact isRunning
      · rw [effect.caller, effect.files, ready.volume]
        have notFailed : (fd : Int) ≠ -1 := by omega
        simp only [filesAfter, value, notFailed, if_false, found, Int.toNat_natCast,
          Function.update_self, openedDescriptor, regular]
        rfl

/-- A process that opens a regular file of a well-formed image reads it in
sequence, whatever else happens in the system, and its reads return. -/
theorem openedFile_reads {memory screen : Memory} {start : Nat} {image : Image}
    {paging : PonyOS.Paging.PageTables} {printBuffer argBuf fname : Nat → UInt8}
    {currentDirReadIndex : Int} {trace later : List (SystemEvent × SystemReply)}
    {before after final : Kernel} {userMemory : Memory} {name : CString} {dentry : Dentry}
    {reply : CallReply} (loaded : Loaded memory start image) (wellFormed : image.WellFormed)
    (reached : GuardedRun systemStep userBuffers
      (Kernel.boot (filesysInit memory start) paging screen printBuffer argBuf fname
        currentDirReadIndex) trace before)
    (found : (filesysInit memory start).readDentryByName name = some dentry)
    (regular : dentry.fileType = regType)
    (opened : systemStep before (.call userMemory (.openFile name)) = some (.call reply, after))
    (success : reply.value ≠ -1)
    (run : GuardedRun systemStep (keepsOpen reply.pid reply.value) after later final) :
    Follows (readPosition reply.pid reply.value)
        (ReadSpec (image.fileBytes (uint32 dentry.inode)) reply.pid reply.value) 0 later ∧
      ∀ memory buf nbytes, final.userProcess = some reply.pid →
        BufferInUserMemory final (.call memory (.read reply.value buf nbytes)) →
        (systemStep final (.call memory (.read reply.value buf nbytes))).isSome = true := by
  have file := regularFile_of_loaded loaded wellFormed found regular
  obtain ⟨fd, value, lower, upper, tracks⟩ :=
    (Ready.of_run reached).opened found regular opened success
  rw [value] at run ⊢
  have simulated := run.simulation (ReadSpec (image.fileBytes (uint32 dentry.inode)) reply.pid fd)
    (Tracks (filesysInit memory start) reply.pid fd dentry.inode
      (image.fileBytes (uint32 dentry.inode)).length) ?_
    (follows_any (readPosition reply.pid fd) 0 later) tracks
  · refine ⟨simulated.1, fun memory buf nbytes isUser user => ?_⟩
    exact systemStep_isSome isUser user
      (read_regular_eq memory buf nbytes simulated.2.desc (by omega) (by omega))
  · intro kernel position event answer target tracked keeps _ stepped
    exact tracked.step file lower upper keeps stepped

/-- The root shell reads its own file into the user page. -/
def readEvent (nbytes : Int) : SystemEvent :=
  .call (fun _ => 0) (.read 2 0x8000000 nbytes)

/-- What it gets. -/
def readReply (bytes : List UInt8) : SystemReply :=
  .call { pid := 1, value := bytes.length, called := some .filesysRead
          stores := storesAt 0x8000000 bytes }

theorem readEvent_keepsOpen {kernel : Kernel} {nbytes : Int} (bytes : List UInt8)
    (isUser : kernel.userProcess = some 1) (nonneg : 0 ≤ nbytes) (small : nbytes < 2147483648)
    (fill : fillLength kernel 1 (.read 2 0x8000000 nbytes) ≤ 4096) :
    keepsOpen 1 2 kernel (readEvent nbytes) (readReply bytes) :=
  ⟨bufferInUserMemory_of_page isUser fill, fun _ _ => ⟨nonneg, small⟩⟩

/-- The root shell reads three bytes of its own file and then asks for a hundred;
five are left. -/
theorem openedFile_reads_rootShell :
    Follows (readPosition 1 2) (ReadSpec (shellImage.fileBytes 0) 1 2) 0
      [(readEvent 3, readReply [0x7f, 0x45, 0x4c]),
        (readEvent 100, readReply [0x46, 0, 0, 0, 0])] := by
  have found : shellKernel.fs.readDentryByName shellCommand = some (shellKernel.fs.dentryAt 1) := by
    decide +kernel
  have regular : (shellKernel.fs.dentryAt 1).fileType = regType := by decide +kernel
  have inode : uint32 (shellKernel.fs.dentryAt 1).inode = 0 := by decide +kernel
  have first : systemStep readerKernel (readEvent 3) =
      some (readReply [0x7f, 0x45, 0x4c], after readerKernel (readEvent 3)) :=
    step_after (by decide +kernel)
  have second : systemStep (after readerKernel (readEvent 3)) (readEvent 100) =
      some (readReply [0x46, 0, 0, 0, 0],
        after (after readerKernel (readEvent 3)) (readEvent 100)) :=
    step_after (by decide +kernel)
  rw [← inode]
  exact (openedFile_reads shellMemory_loaded shellImage_wellFormed
    (.cons (launchEvent_user _ _) launchedKernel_step (.nil launchedKernel)) found regular
    readerKernel_step
    (by decide)
    (.cons (readEvent_keepsOpen _ (by decide +kernel) (by decide) (by decide) (by decide +kernel))
      first
      (.cons (readEvent_keepsOpen _ (by decide +kernel) (by decide) (by decide)
        (by decide +kernel)) second (.nil _)))).1

end PonyOS.Syscall
