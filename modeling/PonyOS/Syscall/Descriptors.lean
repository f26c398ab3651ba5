import PonyOS.Syscall.Buffers

/-!
# Descriptor tables

What the descriptors of a process mean: descriptors 0 and 1 are the terminal,
and 2 to 7 are a finite map to open files.  An observer computes the map of
every process from the trace of calls and replies alone, and the tables in the
control blocks represent it in every state that is reached by calls that keep
to user memory.
-/

namespace PonyOS.Syscall

open PonyOS.FileSystem
open PonyOS.Lib.Transition
open PonyOS.Lib.Word
open PonyOS.Process
open PonyOS.Terminal

/-! ## Open files -/

/-- The three kinds of files. -/
inductive FileKind
  | rtc
  | directory
  | regular
  deriving DecidableEq

namespace FileKind

/-- Handler for reads. -/
def readHandler : FileKind → Handler
  | rtc => .rtcReadWrapper
  | directory => .dirReadWrapper
  | regular => .filesysRead

/-- Handler for writes. -/
def writeHandler : FileKind → Handler
  | rtc => .rtcWriteWrapper
  | directory => .dirWriteWrapper
  | regular => .filesysWriteWrapper

/-- The kind that a file type stands for. -/
def ofType (fileType : Int) : Option FileKind :=
  if fileType = rtcType then some rtc
  else if fileType = dirType then some directory
  else if fileType = regType then some regular
  else none

end FileKind

/-- An open file. -/
structure OpenFile where
  kind : FileKind
  inode : Int
  position : Int
  deriving DecidableEq

/-- The descriptor that represents it. -/
def OpenFile.descriptor (file : OpenFile) : FileDesc :=
  { read := file.kind.readHandler
    write := file.kind.writeHandler
    inode := file.inode
    filePosition := file.position
    flags := 1 }

/-- Values for some of the descriptors of every process. -/
abbrev DescriptorMap (α : Type) := Nat → Nat → Option α

namespace DescriptorMap

variable {α : Type}

/-- No process has any. -/
def empty : DescriptorMap α :=
  fun _ _ => none

/-- One process has none. -/
def clear (map : DescriptorMap α) (pid : Nat) : DescriptorMap α :=
  Function.update map pid fun _ => none

/-- What a process event leaves: a process that ends has none, and so has a new
one. -/
def afterProcess (map : DescriptorMap α) (caller : Option Nat) (reply : ProcessReply) :
    DescriptorMap α :=
  let left :=
    match caller with
    | some pid => if endsProcess reply then map.clear pid else map
    | none => map
  match startedBy reply with
  | some pid => left.clear pid
  | none => left

end DescriptorMap

/-- Open files of every process, by process and descriptor. -/
abbrev OpenFiles := DescriptorMap OpenFile

namespace OpenFiles

/-- The open files of the caller after a call, by its result. -/
def ownAfter (fs : Volume) (own : Nat → Option OpenFile) (call : Call) (value : Int) :
    Nat → Option OpenFile :=
  if value = -1 then own
  else
    match call with
    | .openFile filename =>
        match fs.readDentryByName filename with
        | none => own
        | some dentry =>
            Function.update own value.toNat
              ((FileKind.ofType dentry.fileType).map fun kind =>
                { kind := kind, inode := dentry.inode, position := 0 })
    | .close fd => Function.update own fd.toNat none
    | .read fd _ _ =>
        Function.update own fd.toNat
          ((own fd.toNat).map fun file =>
            { file with position := int32 (file.position + value) })
    | _ => own

/-- What a call and its reply say about the open files. -/
def afterCall (fs : Volume) (files : OpenFiles) (call : Call) (reply : CallReply) : OpenFiles :=
  Function.update files reply.pid (ownAfter fs (files reply.pid) call reply.value)

/-- The observer. -/
def observe (fs : Volume) (files : OpenFiles) : SystemEvent → SystemReply → OpenFiles
  | .call _ asked, .call reply => files.afterCall fs asked reply
  | _, .process caller reply => files.afterProcess caller reply
  | _, _ => files

end OpenFiles

/-! ## What calls answer -/

/-- A descriptor that a file can be open on. -/
def IsFileDescriptor (fd : Int) : Prop :=
  2 ≤ fd ∧ fd < 8

instance (fd : Int) : Decidable (IsFileDescriptor fd) :=
  inferInstanceAs (Decidable (_ ∧ _))

/-- `open` gives the lowest free descriptor, and `-1` exactly when the name is
not found or no descriptor is free. -/
def OpenSpec (fs : Volume) (files : Nat → Option OpenFile) (filename : CString)
    (reply : CallReply) : Prop :=
  ((fs.readDentryByName filename = none ∨ ∀ fd, 2 ≤ fd → fd < 8 → files fd ≠ none) ∧
      reply.value = -1) ∨
    (fs.readDentryByName filename ≠ none ∧
      ∃ fd, 2 ≤ fd ∧ fd < 8 ∧ files fd = none ∧
        (∀ lower, 2 ≤ lower → lower < fd → files lower ≠ none) ∧ reply.value = (fd : Nat))

/-- `close` gives `0` exactly on an open file. -/
def CloseSpec (files : Nat → Option OpenFile) (fd : Int) (reply : CallReply) : Prop :=
  (IsFileDescriptor fd ∧ files fd.toNat ≠ none ∧ reply.value = 0) ∨
    (¬ (IsFileDescriptor fd ∧ files fd.toNat ≠ none) ∧ reply.value = -1)

/-- A transfer goes through the handler of the file that is open, or of the
terminal, and otherwise fails without a handler. -/
def TransferSpec (files : Nat → Option OpenFile) (terminal : Int) (terminalHandler : Handler)
    (handlerOf : FileKind → Handler) (fd : Int) (reply : CallReply) : Prop :=
  (fd = terminal ∧ reply.called = some terminalHandler) ∨
    (IsFileDescriptor fd ∧
      ∃ file, files fd.toNat = some file ∧ reply.called = some (handlerOf file.kind)) ∨
    (fd ≠ terminal ∧ ¬ (IsFileDescriptor fd ∧ files fd.toNat ≠ none) ∧
      reply.value = -1 ∧ reply.called = none ∧ reply.stores = [])

/-- What every call answers, by the files that are open. -/
def DescriptorSpec (fs : Volume) (files : OpenFiles) : SystemEvent → SystemReply → Prop
  | .call _ (.openFile filename), .call reply => OpenSpec fs (files reply.pid) filename reply
  | .call _ (.close fd), .call reply => CloseSpec (files reply.pid) fd reply
  | .call _ (.read fd _ _), .call reply =>
      TransferSpec (files reply.pid) 0 .terminalReadWrapper FileKind.readHandler fd reply
  | .call _ (.write fd _ _), .call reply =>
      TransferSpec (files reply.pid) 1 .terminalWriteWrapper FileKind.writeHandler fd reply
  | _, _ => True

/-! ## Representation -/

/-- A descriptor table represents the open files of its process. -/
structure Represents (fileArray : Nat → FileDesc) (files : Nat → Option OpenFile) : Prop where
  stdin : (fileArray 0).read = .terminalReadWrapper ∧ (fileArray 0).flags = 1
  stdout : (fileArray 1).write = .terminalWriteWrapper ∧ (fileArray 1).flags = 1
  opened : ∀ fd file, files fd = some file → 2 ≤ fd ∧ fd < 8 ∧ fileArray fd = file.descriptor
  closed : ∀ fd, 2 ≤ fd → fd < 8 → files fd = none → (fileArray fd).flags = 0

/-- A relation holds between the table of every running process and its part of
a map; other processes have no part. -/
structure Tabulates {α : Type} (P : (Nat → FileDesc) → (Nat → Option α) → Prop)
    (kernel : Kernel) (map : DescriptorMap α) : Prop where
  running : ∀ pid, kernel.processStatus pid = true → P (kernel.pcb pid).fileArray (map pid)
  stopped : ∀ pid, kernel.processStatus pid = false → map pid = fun _ => none

/-- The tables of all running processes represent their open files. -/
abbrev Refines (kernel : Kernel) (files : OpenFiles) : Prop :=
  Tabulates Represents kernel files

/-- A new process has descriptors 0 and 1, whatever its slot held before. -/
theorem pcbInit_represents (pcb : Pcb) (pid : Nat) :
    Represents (pcbInit pcb pid).fileArray fun _ => none := by
  constructor
  · exact ⟨rfl, rfl⟩
  · exact ⟨rfl, rfl⟩
  · intro fd file none
    contradiction
  · intro fd lower upper _
    have notFirst : fd ≠ 0 := by omega
    have notSecond : fd ≠ 1 := by omega
    have inTable : fd < fdtSize := upper
    simp [pcbInit, notFirst, notSecond, inTable]

/-! ## Process events -/

namespace DescriptorMap

/-- Only a process that ends or starts loses its values. -/
theorem afterProcess_apply {α : Type} (map : DescriptorMap α) (caller : Option Nat)
    (reply : ProcessReply) (pid : Nat) :
    map.afterProcess caller reply pid =
      if (caller = some pid ∧ endsProcess reply = true) ∨ startedBy reply = some pid then
        fun _ => none
      else map pid := by
  have cleared : ∀ (other : DescriptorMap α) (slot : Nat),
      other.clear slot pid = if slot = pid then (fun _ => none) else other pid := by
    intro other slot
    by_cases own : slot = pid
    · rw [if_pos own, own]
      exact Function.update_self ..
    · rw [if_neg own]
      exact Function.update_of_ne (Ne.symm own) ..
  cases caller with
  | none =>
      cases startEq : startedBy reply with
      | none => simp [afterProcess, startEq]
      | some slot => simp [afterProcess, startEq, cleared]
  | some leaver =>
      cases ends : endsProcess reply with
      | false =>
          cases startEq : startedBy reply with
          | none => simp [afterProcess, startEq, ends]
          | some slot => simp [afterProcess, startEq, ends, cleared]
      | true =>
          cases startEq : startedBy reply with
          | none => simp [afterProcess, startEq, ends, cleared]
          | some slot =>
              simp only [afterProcess, startEq, ends, cleared, if_true, and_true,
                Option.some.injEq]
              by_cases starts : slot = pid
              · simp [starts]
              · simp [starts]

end DescriptorMap

/-- A process event keeps a relation that holds of every new table. -/
theorem Tabulates.process {α : Type} {P : (Nat → FileDesc) → (Nat → Option α) → Prop}
    {kernel target : Kernel} {map : DescriptorMap α} {reply : ProcessReply}
    (tables : Tabulates P kernel map)
    (initial : ∀ pcb pid, P (pcbInit pcb pid).fileArray fun _ => none)
    (effect : ProcessEffect kernel target reply) :
    Tabulates P target (map.afterProcess kernel.userProcess reply) := by
  constructor
  · intro pid isRunning
    rw [DescriptorMap.afterProcess_apply]
    cases before : kernel.processStatus pid with
    | true =>
        rw [effect.kept pid before, if_neg]
        · exact tables.running pid before
        · rintro (⟨isUser, ends⟩ | isStarted)
          · have stopped := effect.ended pid isUser ends
            rw [isRunning] at stopped
            contradiction
          · have stopped := effect.started pid isStarted
            rw [before] at stopped
            contradiction
    | false =>
        rw [effect.fresh pid before isRunning, tables.stopped pid before, ite_self]
        exact initial (kernel.pcb pid) pid
  · intro pid isStopped
    rw [DescriptorMap.afterProcess_apply]
    cases before : kernel.processStatus pid with
    | true =>
        rcases effect.alive pid before with alive | ended
        · rw [isStopped] at alive
          contradiction
        · rw [if_pos (.inl ended)]
    | false => rw [tables.stopped pid before, ite_self]

/-- A call keeps a relation that it keeps for its caller. -/
theorem Tabulates.call {α : Type} {P : (Nat → FileDesc) → (Nat → Option α) → Prop}
    {kernel target : Kernel} {map : DescriptorMap α} {pid : Nat} {asked : Call}
    {reply : CallReply} {own : Nat → Option α} (tables : Tabulates P kernel map)
    (isRunning : kernel.processStatus pid = true)
    (effect : CallEffect kernel target pid asked reply)
    (kept : P (filesAfter kernel.fs (kernel.pcb pid).fileArray asked reply.value) own) :
    Tabulates P target (Function.update map pid own) := by
  constructor
  · intro other otherRuns
    rw [effect.status] at otherRuns
    by_cases isOwn : other = pid
    · rw [isOwn, effect.files, Function.update_self]
      exact kept
    · rw [effect.others other isOwn, Function.update_of_ne isOwn]
      exact tables.running other otherRuns
  · intro other otherStopped
    rw [effect.status] at otherStopped
    have notOwn : other ≠ pid := by
      rintro rfl
      rw [isRunning] at otherStopped
      contradiction
    rw [Function.update_of_ne notOwn]
    exact tables.stopped other otherStopped

theorem Tabulates.boot {α : Type} (P : (Nat → FileDesc) → (Nat → Option α) → Prop) (fs : Volume)
    (paging : PonyOS.Paging.PageTables) (memory : Memory)
    (printBuffer argBuf fname : Nat → UInt8) (currentDirReadIndex : Int) :
    Tabulates P (Kernel.boot fs paging memory printBuffer argBuf fname currentDirReadIndex)
      DescriptorMap.empty := by
  constructor
  · exact fun pid isRunning => nomatch isRunning
  · exact fun pid isStopped => rfl

/-! ## Calls -/

theorem callRead_called {kernel : Kernel} {memory : Memory} {desc : FileDesc} {buf count : Nat}
    {tried : Attempt} (attempted : callRead kernel memory desc buf count = some tried) :
    tried.called = some desc.read := by
  cases callRead_cases attempted with
  | terminal isTerminal ready => rw [isTerminal]
  | rtc isRtc ticked => rw [isRtc]
  | file isFile =>
      rw [isFile]
      rfl
  | directory isDirectory =>
      rw [isDirectory, dirRead]
      split
      · rfl
      · split <;> rfl

theorem callWrite_called {kernel : Kernel} {memory : Memory} {desc : FileDesc} {buf : Nat}
    {count : Int} {tried : Attempt}
    (attempted : callWrite kernel memory desc buf count = some tried) :
    tried.called = some desc.write := by
  cases callWrite_cases attempted with
  | terminal value terminals isTerminal written => rw [isTerminal]
  | rtc isRtc => rw [isRtc]
  | file isFile => rw [isFile]
  | directory isDirectory => rw [isDirectory]

namespace Represents

variable {fileArray : Nat → FileDesc} {files : Nat → Option OpenFile}

/-- A file descriptor is free, or stands for the file that is open on it. -/
theorem descriptor (represents : Represents fileArray files) {fd : Nat} (lower : 2 ≤ fd)
    (upper : fd < 8) :
    (files fd = none ∧ (fileArray fd).flags = 0) ∨
      ∃ file, files fd = some file ∧ fileArray fd = file.descriptor := by
  cases opened : files fd with
  | none => exact .inl ⟨rfl, represents.closed fd lower upper opened⟩
  | some file => exact .inr ⟨file, rfl, (represents.opened fd file opened).2.2⟩

/-- Nothing is open on the terminal's descriptors. -/
theorem not_terminal (represents : Represents fileArray files) {fd : Nat} (low : fd < 2) :
    files fd = none := by
  cases opened : files fd with
  | none => rfl
  | some file =>
      have lower := (represents.opened fd file opened).1
      omega

/-- A file descriptor is closed exactly when its flag is clear. -/
theorem flags_iff (represents : Represents fileArray files) {fd : Nat} (upper : fd < 8) :
    (fileArray fd).flags = 0 ↔ 2 ≤ fd ∧ files fd = none := by
  constructor
  · intro clear
    have lower := two_le_of_free represents.stdin.2 represents.stdout.2 clear
    rcases represents.descriptor lower upper with ⟨free, -⟩ | ⟨file, -, descEq⟩
    · exact ⟨lower, free⟩
    · rw [descEq] at clear
      simp [OpenFile.descriptor] at clear
  · rintro ⟨lower, free⟩
    exact represents.closed fd lower upper free

theorem update (represents : Represents fileArray files) {fd : Nat} {desc : FileDesc}
    {file : Option OpenFile} (lower : 2 ≤ fd) (upper : fd < 8)
    (same : match file with
      | none => desc.flags = 0
      | some file => desc = file.descriptor) :
    Represents (Function.update fileArray fd desc) (Function.update files fd file) := by
  have notStdin : 0 ≠ fd := by omega
  have notStdout : 1 ≠ fd := by omega
  constructor
  · rw [Function.update_of_ne notStdin]
    exact represents.stdin
  · rw [Function.update_of_ne notStdout]
    exact represents.stdout
  · intro other found opened
    by_cases own : other = fd
    · rw [own, Function.update_self] at opened
      rw [own, Function.update_self]
      subst opened
      exact ⟨lower, upper, same⟩
    · rw [Function.update_of_ne own] at opened ⊢
      exact represents.opened other found opened
  · intro other otherLower otherUpper free
    by_cases own : other = fd
    · rw [own, Function.update_self] at free
      rw [own, Function.update_self]
      subst free
      exact same
    · rw [Function.update_of_ne own] at free ⊢
      exact represents.closed other otherLower otherUpper free

theorem moveStdin (represents : Represents fileArray files) (position : Int) :
    Represents (Function.update fileArray 0 { fileArray 0 with filePosition := position })
      files := by
  constructor
  · rw [Function.update_self]
    exact represents.stdin
  · rw [Function.update_of_ne (by decide)]
    exact represents.stdout
  · intro fd file opened
    obtain ⟨lower, upper, descEq⟩ := represents.opened fd file opened
    rw [Function.update_of_ne (by omega)]
    exact ⟨lower, upper, descEq⟩
  · intro fd lower upper free
    rw [Function.update_of_ne (by omega)]
    exact represents.closed fd lower upper free

/-- How a transfer ends, by the descriptor it names: `terminal` and `wrong` are
the descriptors of the two directions of the terminal. -/
theorem transfer (represents : Represents fileArray files) {fd terminal wrong : Int}
    {handler : Handler} {handlerOf : FileKind → Handler} {pointer : FileDesc → Handler}
    {reply : CallReply} (directions : (terminal = 0 ∧ wrong = 1) ∨ (terminal = 1 ∧ wrong = 0))
    (terminalHandler : pointer (fileArray terminal.toNat) = handler)
    (fileHandler : ∀ file : OpenFile, pointer file.descriptor = handlerOf file.kind)
    (ended : ((fd ≥ fdtSize ∨ fd < 0 ∨ fd = wrong ∨ (fileArray fd.toNat).flags = 0) ∧
        reply.value = -1 ∧ reply.called = none ∧ reply.stores = []) ∨
      (¬ (fd ≥ fdtSize ∨ fd < 0 ∨ fd = wrong) ∧ (fileArray fd.toNat).flags ≠ 0 ∧
        reply.called = some (pointer (fileArray fd.toNat)))) :
    TransferSpec files terminal handler handlerOf fd reply := by
  unfold fdtSize at ended
  rcases ended with ⟨invalid, failed⟩ | ⟨valid, isOpen, called⟩
  · right
    right
    by_cases bound : 0 ≤ fd ∧ fd < 8
    · by_cases wrongWay : fd = wrong
      · refine ⟨by omega, ?_, failed⟩
        rintro ⟨⟨lower, -⟩, -⟩
        omega
      · have clear : (fileArray fd.toNat).flags = 0 := by omega
        obtain ⟨lower, free⟩ := (represents.flags_iff (by omega)).mp clear
        refine ⟨by omega, ?_, failed⟩
        rintro ⟨-, opened⟩
        exact opened free
    · refine ⟨by omega, ?_, failed⟩
      rintro ⟨⟨lower, upper⟩, -⟩
      omega
  · by_cases isTerminal : fd = terminal
    · left
      rw [isTerminal, terminalHandler] at called
      exact ⟨isTerminal, called⟩
    · right
      left
      have lower : 2 ≤ fd := by omega
      rcases represents.descriptor (by omega : 2 ≤ fd.toNat) (by omega : fd.toNat < 8) with
        ⟨-, clear⟩ | ⟨file, opened, descEq⟩
      · exact absurd clear isOpen
      · rw [descEq, fileHandler] at called
        exact ⟨⟨lower, by omega⟩, file, opened, called⟩

end Represents

/-- `read` answers by what is open. -/
theorem read_spec {kernel : Kernel} {pid : Nat} {memory : Memory} {fd : Int} {buf : Nat}
    {nbytes : Int} {tried : Attempt} {files : Nat → Option OpenFile}
    (represents : Represents (kernel.pcb pid).fileArray files)
    (attempted : read kernel pid memory fd buf nbytes = some tried) :
    TransferSpec files 0 .terminalReadWrapper FileKind.readHandler fd
      { pid := pid, value := tried.value, called := tried.called, stores := tried.stores } := by
  apply represents.transfer (.inl ⟨rfl, rfl⟩) represents.stdin.1 (fun _ => rfl)
  rcases read_cases attempted with ⟨invalid, rfl⟩ | ⟨valid, isOpen, called⟩
  · exact .inl ⟨invalid, rfl, rfl, rfl⟩
  · exact .inr ⟨valid, isOpen, callRead_called called⟩

/-- And so does `write`. -/
theorem write_spec {kernel : Kernel} {pid : Nat} {memory : Memory} {fd : Int} {buf : Nat}
    {nbytes : Int} {tried : Attempt} {files : Nat → Option OpenFile}
    (represents : Represents (kernel.pcb pid).fileArray files)
    (attempted : write kernel pid memory fd buf nbytes = some tried) :
    TransferSpec files 1 .terminalWriteWrapper FileKind.writeHandler fd
      { pid := pid, value := tried.value, called := tried.called, stores := tried.stores } := by
  apply represents.transfer (.inr ⟨rfl, rfl⟩) represents.stdout.1 (fun _ => rfl)
  rcases write_cases attempted with ⟨invalid, rfl⟩ | ⟨valid, isOpen, called⟩
  · exact .inl ⟨invalid, rfl, rfl, rfl⟩
  · exact .inr ⟨valid, isOpen, callWrite_called called⟩

/-- `open` scans for the lowest free descriptor. -/
theorem freeDescriptor_spec {fileArray : Nat → FileDesc} {files : Nat → Option OpenFile}
    (represents : Represents fileArray files) :
    (freeDescriptor fileArray = none ∧ ∀ fd, 2 ≤ fd → fd < 8 → files fd ≠ none) ∨
      ∃ fd, freeDescriptor fileArray = some fd ∧ 2 ≤ fd ∧ fd < 8 ∧ files fd = none ∧
        ∀ lower, 2 ≤ lower → lower < fd → files lower ≠ none := by
  cases scanned : freeDescriptor fileArray with
  | none =>
      left
      refine ⟨rfl, fun fd lower upper free => ?_⟩
      have taken := List.find?_eq_none.mp scanned fd (List.mem_range.mpr upper)
      exact taken (by simpa using represents.closed fd lower upper free)
  | some fd =>
      right
      have member := List.mem_of_find?_eq_some scanned
      have upper : fd < 8 := List.mem_range.mp member
      have clear : (fileArray fd).flags = 0 := by simpa using List.find?_some scanned
      obtain ⟨lower, free⟩ := (represents.flags_iff upper).mp clear
      refine ⟨fd, rfl, lower, upper, free, fun below belowLower belowFd belowFree => ?_⟩
      have belowClear := represents.closed below belowLower (by omega) belowFree
      have belowTaken := (List.find?_range_eq_some.mp scanned).2.2 below belowFd
      simp [belowClear] at belowTaken

theorem openFile_spec {kernel : Kernel} {pid : Nat} {files : Nat → Option OpenFile}
    (represents : Represents (kernel.pcb pid).fileArray files) (filename : CString)
    {reply : CallReply} (value : reply.value = (openFile kernel pid filename).value) :
    OpenSpec kernel.fs files filename reply := by
  rcases openFile_cases kernel pid filename with
    ⟨reason, opened⟩ | ⟨dentry, i, found, scanned, opened⟩
  · left
    rw [opened] at value
    refine ⟨reason.imp_right fun full => ?_, value⟩
    rcases freeDescriptor_spec represents with ⟨-, taken⟩ | ⟨fd, scanned, -⟩
    · exact taken
    · rw [full] at scanned
      contradiction
  · right
    rw [opened] at value
    refine ⟨by simp [found], ?_⟩
    rcases freeDescriptor_spec represents with ⟨full, -⟩ | ⟨fd, found, lower, upper, free, first⟩
    · rw [scanned] at full
      contradiction
    · cases scanned.symm.trans found
      exact ⟨i, lower, upper, free, first, value⟩

theorem close_spec {kernel : Kernel} {pid : Nat} {files : Nat → Option OpenFile}
    (represents : Represents (kernel.pcb pid).fileArray files) (fd : Int) {reply : CallReply}
    (value : reply.value = (close kernel pid fd).value) : CloseSpec files fd reply := by
  by_cases invalid : fd ≥ fdtSize ∨ fd ≤ 1 ∨ ((kernel.pcb pid).fileArray fd.toNat).flags = 0
  · right
    have refusal : close kernel pid fd = refused kernel := if_pos invalid
    rw [refusal] at value
    unfold fdtSize at invalid
    refine ⟨?_, value⟩
    rintro ⟨⟨lower, upper⟩, opened⟩
    have clear : ((kernel.pcb pid).fileArray fd.toNat).flags = 0 := by omega
    exact opened ((represents.flags_iff (by omega)).mp clear).2
  · left
    have success : (close kernel pid fd).value = 0 := congrArg Attempt.value (if_neg invalid)
    rw [success] at value
    unfold fdtSize at invalid
    have isOpen : ((kernel.pcb pid).fileArray fd.toNat).flags ≠ 0 := by omega
    refine ⟨⟨by omega, by omega⟩, fun free => isOpen ?_, value⟩
    exact represents.closed fd.toNat (by omega) (by omega) free

/-! ## Every event -/

/-- The image has files of the three kinds only. -/
def KnownTypes (fs : Volume) : Prop :=
  ∀ index, index < fs.numDirEntry.toNat →
    (fs.dentryAt index).fileType = 0 ∨ (fs.dentryAt index).fileType = 1 ∨
      (fs.dentryAt index).fileType = 2

/-- Opening a file of a known type makes a descriptor that stands for it. -/
theorem openedDescriptor_eq {fs : Volume} (types : KnownTypes fs) {filename : CString}
    {dentry : Dentry} (found : fs.readDentryByName filename = some dentry) (desc : FileDesc) :
    ∃ kind, FileKind.ofType dentry.fileType = some kind ∧
      openedDescriptor desc dentry =
        OpenFile.descriptor { kind := kind, inode := dentry.inode, position := 0 } := by
  obtain ⟨index, bound, -, rfl⟩ := Volume.readDentryByName_eq_some found
  rcases types index bound with isRtc | isDirectory | isRegular
  · refine ⟨.rtc, ?_, ?_⟩
    · rw [isRtc]
      rfl
    · rw [openedDescriptor, isRtc]
      rfl
  · refine ⟨.directory, ?_, ?_⟩
    · rw [isDirectory]
      rfl
    · rw [openedDescriptor, isDirectory]
      rfl
  · refine ⟨.regular, ?_, ?_⟩
    · rw [isRegular]
      rfl
    · rw [openedDescriptor, isRegular]
      rfl

theorem call_spec {kernel : Kernel} {pid : Nat} {memory : Memory} {call : Call}
    {files : OpenFiles} {tried : Attempt}
    (represents : Represents (kernel.pcb pid).fileArray (files pid))
    (attempted : attempt kernel pid memory call = some tried) :
    DescriptorSpec kernel.fs files (.call memory call)
      (.call { pid := pid, value := tried.value, called := tried.called,
               stores := tried.stores }) := by
  cases call with
  | read fd buf nbytes => exact read_spec represents attempted
  | write fd buf nbytes => exact write_spec represents attempted
  | openFile filename =>
      apply openFile_spec represents
      rw [← Option.some.inj attempted]
  | close fd =>
      apply close_spec represents
      rw [← Option.some.inj attempted]
  | getargs buf nbytes => trivial
  | vidmap screenstart => trivial

/-- A call that answers so keeps the representation for its caller. -/
theorem Represents.call {fs : Volume} {fileArray : Nat → FileDesc} {files : OpenFiles}
    {memory : Memory} {call : Call} {reply : CallReply} (types : KnownTypes fs)
    (represents : Represents fileArray (files reply.pid))
    (spec : DescriptorSpec fs files (.call memory call) (.call reply)) :
    Represents (filesAfter fs fileArray call reply.value)
      (OpenFiles.ownAfter fs (files reply.pid) call reply.value) := by
  by_cases failed : reply.value = -1
  · simp only [filesAfter, OpenFiles.ownAfter, failed, if_true]
    exact represents
  · cases call with
    | read fd buf nbytes =>
        simp only [filesAfter, OpenFiles.ownAfter, failed, if_false]
        rcases spec with ⟨isTerminal, -⟩ | ⟨⟨lower, upper⟩, file, opened, -⟩ | ⟨-, -, refusal, -⟩
        · have nothing : files reply.pid 0 = none := represents.not_terminal (by decide)
          have unchanged : Function.update (files reply.pid) 0 none = files reply.pid := by
            rw [← nothing, Function.update_eq_self]
          rw [isTerminal]
          simp only [Int.toNat_zero, nothing, Option.map_none, unchanged]
          exact represents.moveStdin _
        · have descEq := (represents.opened fd.toNat file opened).2.2
          apply represents.update (by omega) (by omega)
          rw [opened, descEq]
          rfl
        · exact absurd refusal failed
    | write fd buf nbytes =>
        simp only [filesAfter, OpenFiles.ownAfter, failed, if_false]
        exact represents
    | openFile filename =>
        rcases spec with ⟨-, refusal⟩ | ⟨present, fd, lower, upper, free, -, value⟩
        · exact absurd refusal failed
        · obtain ⟨dentry, found⟩ := Option.ne_none_iff_exists'.mp present
          simp only [filesAfter, OpenFiles.ownAfter, found, value, Int.toNat_natCast]
          obtain ⟨kind, kindEq, descEq⟩ := openedDescriptor_eq types found (fileArray fd)
          apply represents.update lower upper
          rw [kindEq, descEq]
          rfl
    | close fd =>
        rcases spec with ⟨⟨lower, upper⟩, -, -⟩ | ⟨-, refusal⟩
        · simp only [filesAfter, OpenFiles.ownAfter, failed, if_false]
          apply represents.update (by omega) (by omega)
          rfl
        · exact absurd refusal failed
    | getargs buf nbytes =>
        simp only [filesAfter, OpenFiles.ownAfter, failed, if_false]
        exact represents
    | vidmap screenstart =>
        simp only [filesAfter, OpenFiles.ownAfter, failed, if_false]
        exact represents

/-- Every event meets the specification and keeps the representation. -/
theorem refines_step {kernel target : Kernel} {files : OpenFiles} {event : SystemEvent}
    {reply : SystemReply} (refines : Refines kernel files) (types : KnownTypes kernel.fs)
    (effect : SystemEffect kernel target event reply) :
    DescriptorSpec kernel.fs files event reply ∧
      Refines target (OpenFiles.observe kernel.fs files event reply) := by
  cases effect with
  | process event reply effect =>
      cases event <;> exact ⟨trivial, refines.process pcbInit_represents effect⟩
  | call memory asked pid reply tried isUser attempted replyEq effect =>
      have isRunning := (Kernel.userProcess_eq_some.mp isUser).2
      have spec := call_spec (refines.running pid isRunning) attempted
      rw [← replyEq] at spec
      refine ⟨spec, ?_⟩
      rw [← effect.caller] at isRunning effect
      exact refines.call isRunning effect
        ((refines.running reply.pid isRunning).call types spec)
  | rtc targetEq =>
      rw [targetEq]
      exact ⟨trivial, refines.running, refines.stopped⟩

/-- The pointer that a transfer calls, if it gets that far; `wrong` is the
descriptor of the terminal's other direction. -/
def pointerAt (pointer : FileDesc → Handler) (wrong : Int) (fileArray : Nat → FileDesc)
    (fd : Int) : Option Handler :=
  if fd ≥ fdtSize ∨ fd < 0 ∨ fd = wrong then none
  else if (fileArray fd.toNat).flags = 0 then none
  else some (pointer (fileArray fd.toNat))

/-- No transfer calls a null pointer. -/
theorem Represents.pointerAt_ne_null {fileArray : Nat → FileDesc}
    {files : Nat → Option OpenFile} (represents : Represents fileArray files)
    {pointer : FileDesc → Handler} {terminal wrong : Int}
    (directions : (terminal = 0 ∧ wrong = 1) ∨ (terminal = 1 ∧ wrong = 0))
    (terminalHandler : pointer (fileArray terminal.toNat) ≠ .null)
    (fileHandler : ∀ file : OpenFile, pointer file.descriptor ≠ .null) (fd : Int) :
    pointerAt pointer wrong fileArray fd ≠ some .null := by
  unfold pointerAt
  split
  · exact (Option.some_ne_none Handler.null).symm
  · next valid =>
      split
      · exact (Option.some_ne_none Handler.null).symm
      · next isOpen =>
          intro isNull
          have isNull := Option.some.inj isNull
          by_cases isTerminal : fd = terminal
          · rw [isTerminal] at isNull
            exact terminalHandler isNull
          · unfold fdtSize at valid
            rcases represents.descriptor (by omega : 2 ≤ fd.toNat) (by omega : fd.toNat < 8) with
              ⟨-, clear⟩ | ⟨file, -, descEq⟩
            · exact isOpen clear
            · rw [descEq] at isNull
              exact fileHandler file isNull

/-- The pointer that a read calls. -/
def readPointer : (Nat → FileDesc) → Int → Option Handler :=
  pointerAt FileDesc.read 1

/-- The pointer that a write calls. -/
def writePointer : (Nat → FileDesc) → Int → Option Handler :=
  pointerAt FileDesc.write 0

theorem OpenFile.descriptor_ne_null (file : OpenFile) :
    file.descriptor.read ≠ .null ∧ file.descriptor.write ≠ .null := by
  rcases file with ⟨_ | _ | _, inode, position⟩
  · exact ⟨Handler.noConfusion, Handler.noConfusion⟩
  · exact ⟨Handler.noConfusion, Handler.noConfusion⟩
  · exact ⟨Handler.noConfusion, Handler.noConfusion⟩

/-- Neither reads nor writes call a null pointer. -/
theorem Represents.pointers {fileArray : Nat → FileDesc} {files : Nat → Option OpenFile}
    (represents : Represents fileArray files) (fd : Int) :
    readPointer fileArray fd ≠ some .null ∧ writePointer fileArray fd ≠ some .null := by
  constructor
  · apply represents.pointerAt_ne_null (.inl ⟨rfl, rfl⟩)
    · intro isNull
      exact absurd (represents.stdin.1.symm.trans isNull) Handler.noConfusion
    · exact fun file => file.descriptor_ne_null.1
  · apply represents.pointerAt_ne_null (.inr ⟨rfl, rfl⟩)
    · intro isNull
      exact absurd (represents.stdout.1.symm.trans isNull) Handler.noConfusion
    · exact fun file => file.descriptor_ne_null.2

/-- In every run whose calls keep to user memory, every call answers by the
files that the trace says are open, the tables represent them, and no handler
that the next call can reach is null. -/
theorem descriptors_refine {fs : Volume} {paging : PonyOS.Paging.PageTables} {screen : Memory}
    {printBuffer argBuf fname : Nat → UInt8} {currentDirReadIndex : Int}
    {trace : List (SystemEvent × SystemReply)} {final : Kernel} (types : KnownTypes fs)
    (run : GuardedRun systemStep userBuffers
      (Kernel.boot fs paging screen printBuffer argBuf fname currentDirReadIndex) trace final) :
    Follows (OpenFiles.observe fs) (DescriptorSpec fs) DescriptorMap.empty trace ∧
      Refines final (observed (OpenFiles.observe fs) DescriptorMap.empty trace) ∧
      ∀ pid fd, final.processStatus pid = true →
        readPointer (final.pcb pid).fileArray fd ≠ some .null ∧
          writePointer (final.pcb pid).fileArray fd ≠ some .null := by
  have simulated := run.simulation (DescriptorSpec fs)
    (fun kernel files => PidsKnown kernel ∧ kernel.fs = fs ∧ Refines kernel files)
    ?_ (follows_any (OpenFiles.observe fs) DescriptorMap.empty trace)
    ⟨PidsKnown.boot .., rfl, Tabulates.boot ..⟩
  · obtain ⟨spec, -, -, refines⟩ := simulated
    exact ⟨spec, refines, fun pid fd isRunning => (refines.running pid isRunning).pointers fd⟩
  · rintro kernel files event reply target ⟨known, rfl, refines⟩ user - stepped
    have effect := systemStep_effect known user stepped
    obtain ⟨spec, target⟩ := refines_step refines types effect
    exact ⟨spec, effect.known known, effect.fs, target⟩

theorem shellKernel_types : KnownTypes shellKernel.fs := by
  have few : shellKernel.fs.numDirEntry.toNat = 2 := by decide +kernel
  intro index bound
  rw [few] at bound
  have cases : index = 0 ∨ index = 1 := by omega
  rcases cases with rfl | rfl
  · right
    left
    decide +kernel
  · right
    right
    decide +kernel

/-- The root shell opens its own file on descriptor 2. -/
theorem descriptors_refine_rootShell :
    ∃ trace, observed (OpenFiles.observe shellKernel.fs) DescriptorMap.empty trace 1 2 =
        some { kind := .regular, inode := 0, position := 0 } ∧
      Refines readerKernel
        (observed (OpenFiles.observe shellKernel.fs) DescriptorMap.empty trace) := by
  have run : GuardedRun systemStep userBuffers shellKernel
      [(launchEvent, .process none (.launched (.started 1 0))),
        (openEvent, .call { pid := 1, value := 2, called := none, stores := [] })]
      readerKernel :=
    .cons trivial launchedKernel_step
      (.cons (fun _ _ _ impossible => absurd impossible (Nat.not_lt_zero _)) readerKernel_step
        (.nil readerKernel))
  exact ⟨_, by decide +kernel, (descriptors_refine shellKernel_types run).2.1⟩

/-- The root shell opens its file twice and reads it into its own control block:
eight bytes from the position of descriptor 3 on. -/
def overwriteEvent : SystemEvent :=
  .call (fun _ => 0) (.read 2 0x7FC068 8)

/-- The read clears the flag of descriptor 3, which no call has closed. -/
theorem ownRead_breaks_descriptors :
    ¬ ∀ (fs : Volume) (paging : PonyOS.Paging.PageTables) (screen : Memory)
      (printBuffer argBuf fname : Nat → UInt8) (currentDirReadIndex : Int)
      (trace : List (SystemEvent × SystemReply)) (final : Kernel), KnownTypes fs →
      Run systemStep (Kernel.boot fs paging screen printBuffer argBuf fname currentDirReadIndex)
        trace final →
      Refines final (observed (OpenFiles.observe fs) DescriptorMap.empty trace) := by
  intro all
  have second : systemStep readerKernel openEvent =
      some (.call { pid := 1, value := 3, called := none, stores := [] },
        after readerKernel openEvent) := step_after (by decide +kernel)
  have overwrite : systemStep (after readerKernel openEvent) overwriteEvent =
      some (.call { pid := 1, value := 8, called := some .filesysRead
                    stores := storesAt 0x7FC068 (executableChecking ++ [0, 0, 0, 0]) },
        after (after readerKernel openEvent) overwriteEvent) := step_after (by decide +kernel)
  have refines := all _ _ _ _ _ _ _ _ _ shellKernel_types
    (.cons trivial launchedKernel_step (.cons trivial readerKernel_step
      (.cons trivial second (.cons trivial overwrite (.nil _)))))
  have isRunning : (after (after readerKernel openEvent) overwriteEvent).processStatus 1 = true :=
    by decide +kernel
  have opened := (refines.running 1 isRunning).opened 3
    { kind := .regular, inode := 0, position := 0 } (by decide +kernel)
  have flag : (((after (after readerKernel openEvent) overwriteEvent).pcb 1).fileArray 3).flags =
      0 := by decide +kernel
  rw [opened.2.2] at flag
  contradiction

end PonyOS.Syscall
