import PonyOS.Process.Invariant

/-!
# Which commands start

`execute_with_terminal_num` is meant to start regular files that begin with the
magic number.  It looks at the first bytes of the inode that the entry names,
whatever the type of the entry, ignores how many bytes were read, and takes the
entry point from the same buffer.  What the file does not fill is left over on
the stack.  The load that follows has no room for more than the rest of the user
page.
-/

namespace PonyOS.Process

open PonyOS.FileSystem
open PonyOS.Lib.Word
open PonyOS.Paging
open PonyOS.Terminal

/-- Bytes of the user page from the program's address on. -/
def programRoom : Nat := userPageEnd - userProgramAddr

/-- The directory entry that a command names. -/
def commandEntry (fs : Volume) (command : Option CString) : Option Dentry :=
  command.bind fun text => fs.readDentryByName (programName text)

/-- A regular file that begins with the magic number. -/
structure ExecutableFile (fs : Volume) (dentry : Dentry) : Prop where
  regular : dentry.fileType = Image.regularType
  inode_lt : uint32 dentry.inode < uint32 fs.numInodes
  length_ge : 4 ≤ fs.inodeLength (uint32 dentry.inode)
  magic : fs.fileSlice (uint32 dentry.inode) 0 4 = executableChecking

/-- The little-endian word at bytes `24` to `27` of a file. -/
def fileEntry (fs : Volume) (inode : Nat) : Nat :=
  headerEntry fun k => fs.fileByte inode k

/-- A command started exactly if it names an executable file, at the entry point
that the file holds, and failed with `-1` otherwise. -/
def StartsExactly (fs : Volume) (command : Option CString) :
    Option (ExecuteReply × Kernel) → Prop
  | none => False
  | some (.failed, _) =>
      ∀ dentry, commandEntry fs command = some dentry → ¬ ExecutableFile fs dentry
  | some (.started _ entry, _) =>
      ∃ dentry, commandEntry fs command = some dentry ∧ ExecutableFile fs dentry ∧
        execInfoBytes ≤ fs.inodeLength (uint32 dentry.inode) ∧
        entry = fileEntry fs (uint32 dentry.inode)

/-- Byte `k` of the header buffer: that of the file, or what was on the stack
where the file has ended. -/
def headerByte (fs : Volume) (inode : Nat) (tempBuf : Nat → UInt8) (k : Nat) : UInt8 :=
  if k < fs.inodeLength inode then fs.fileByte inode k else tempBuf k

/-- A command that passes the check without being a program that can be started:
its entry has an inode, the header buffer begins with the magic number, and the
entry is no regular file, the file ends before the entry point, or it is too
long for the user page. -/
def Misjudged (fs : Volume) (tempBuf : Nat → UInt8) (command : Option CString) : Prop :=
  ∃ dentry, commandEntry fs command = some dentry ∧ uint32 dentry.inode < uint32 fs.numInodes ∧
    isExecutable (headerByte fs (uint32 dentry.inode) tempBuf) = true ∧
    (dentry.fileType ≠ Image.regularType ∨
      fs.inodeLength (uint32 dentry.inode) < execInfoBytes ∨
      programRoom < fs.inodeLength (uint32 dentry.inode))

/-! ## Header and load -/

section Found

variable {fs : Volume} {name : CString} {dentry : Dentry}

theorem readCount_start {inode length : Nat} (inodeLt : inode < uint32 fs.numInodes)
    (lengthSmall : length < 2147483648) :
    fs.readCount inode 0 length = min length (fs.inodeLength inode) := by
  have sizeLt : fs.inodeLength inode < 4294967296 := loadWord_lt _ _
  rw [Volume.readCount, if_neg (by omega), Volume.remainingLength, Nat.zero_add,
    Nat.mod_eq_of_lt (by omega)]
  split
  · have small : fs.inodeLength inode < 2147483648 := by omega
    have sized : int32 ((fs.inodeLength inode : Int) - (0 : Nat)) = fs.inodeLength inode := by
      rw [Int.natCast_zero, Int.sub_zero]
      exact int32_of_lt small
    rw [sized]
    omega
  · rw [int32_of_lt lengthSmall]
    omega

theorem readHeader_eq (found : fs.readDentryByName name = some dentry)
    (inodeLt : uint32 dentry.inode < uint32 fs.numInodes) (tempBuf : Nat → UInt8) {k : Nat}
    (inHeader : k < execInfoBytes) :
    readHeader fs name tempBuf k = headerByte fs (uint32 dentry.inode) tempBuf k := by
  unfold execInfoBytes at inHeader
  have stores := (fs.readData_spec (uint32 dentry.inode) 0 0 execInfoBytes).2
  rw [readCount_start inodeLt (by decide)] at stores
  rw [readHeader, Volume.filesysReadByName, found]
  simp only [stores]
  generalize uint32 dentry.inode = inode at *
  have small : k % 4294967296 = k := Nat.mod_eq_of_lt (by omega)
  have inSpace : k < 4294967296 := by omega
  have short : (fs.fileSlice inode 0 (min execInfoBytes (fs.inodeLength inode))).length ≤
      4294967296 := by
    rw [Volume.fileSlice_length]
    unfold execInfoBytes
    omega
  have kept := foldl_storesAt tempBuf 0 _ short inSpace
  rw [Nat.zero_add, small] at kept
  rw [storeAll, kept, headerByte, Volume.fileSlice_length]
  unfold execInfoBytes
  by_cases inFile : k < fs.inodeLength inode
  · have inSlice : k < min 28 (fs.inodeLength inode) := by omega
    rw [if_pos inSlice, if_pos inFile, fs.fileSlice_getD inode 0 inSlice, Nat.zero_add]
  · rw [if_neg (by omega), if_neg inFile]

/-- The header of a program is all in its file. -/
def CompleteHeader (fs : Volume) (dentry : Dentry) : Prop :=
  uint32 dentry.inode < uint32 fs.numInodes ∧ execInfoBytes ≤ fs.inodeLength (uint32 dentry.inode)

/-- Of such a header nothing is left over on the stack. -/
theorem readHeader_complete (found : fs.readDentryByName name = some dentry)
    (complete : CompleteHeader fs dentry) (tempBuf other : Nat → UInt8) {k : Nat}
    (inHeader : k < execInfoBytes) :
    readHeader fs name other k = readHeader fs name tempBuf k := by
  have inFile := Nat.lt_of_lt_of_le inHeader complete.2
  rw [readHeader_eq found complete.1 other inHeader,
    readHeader_eq found complete.1 tempBuf inHeader, headerByte, headerByte, if_pos inFile,
    if_pos inFile]

/-- The stores of a program stay inside the user page if it is short enough. -/
theorem storesAt_program_iff (text : List UInt8) (short : text.length < 2147483648) :
    ((storesAt userProgramAddr text).all fun store =>
        userPageStart ≤ store.address ∧ store.address < userPageEnd) = true ↔
      text.length ≤ programRoom := by
  simp only [List.all_eq_true, decide_eq_true_eq]
  unfold programRoom userPageStart userPageEnd userProgramAddr
  constructor
  · intro inside
    by_contra long
    have crosses : ∃ store ∈ storesAt 0x8048000 text, store.address = 0x8400000 :=
      mem_storesAt_address.mpr ⟨0x3B8000, by omega, rfl⟩
    obtain ⟨store, member, address⟩ := crosses
    have bounds := inside store member
    omega
  · intro fits store member
    obtain ⟨i, inText, address⟩ := mem_storesAt_address.mp ⟨store, member, rfl⟩
    omega

/-- The load succeeds if the file fits the page. -/
theorem loadExecutable_eq (found : fs.readDentryByName name = some dentry)
    (inodeLt : uint32 dentry.inode < uint32 fs.numInodes) :
    loadExecutable fs name userProgramAddr =
      if fs.inodeLength (uint32 dentry.inode) ≤ programRoom then some 0 else none := by
  obtain ⟨value, stores⟩ :=
    fs.readData_spec (uint32 dentry.inode) 0 userProgramAddr maxInt
  rw [readCount_start inodeLt (by decide)] at value stores
  rw [if_neg (by omega)] at value
  rw [loadExecutable, Volume.filesysReadByName, found]
  simp only [stores, value]
  have fits := storesAt_program_iff (fs.fileSlice (uint32 dentry.inode) 0
      (min maxInt (fs.inodeLength (uint32 dentry.inode))))
    (by rw [Volume.fileSlice_length]; unfold maxInt; omega)
  rw [Volume.fileSlice_length] at fits
  have notFailed : ((min maxInt (fs.inodeLength (uint32 dentry.inode)) : Nat) : Int) ≠ -1 := by
    omega
  by_cases short : fs.inodeLength (uint32 dentry.inode) ≤ programRoom
  · rw [if_pos (fits.mpr (by omega)), if_pos short, if_pos notFailed]
  · rw [if_neg (fun inside => short ?_), if_neg short]
    have bounded := fits.mp inside
    unfold programRoom userPageEnd userProgramAddr maxInt at *
    omega

/-- The check looks at four bytes. -/
theorem isExecutable_congr {first second : Nat → UInt8}
    (same : ∀ k, k < 4 → first k = second k) : isExecutable first = isExecutable second := by
  have bytes : (List.range 4).map first = (List.range 4).map second :=
    List.map_congr_left fun k inRange => same k (List.mem_range.mp inRange)
  rw [isExecutable, bytes, isExecutable]

/-- The entry point is made of four bytes. -/
theorem headerEntry_congr {first second : Nat → UInt8}
    (same : ∀ k, k < execInfoBytes → first k = second k) :
    headerEntry first = headerEntry second := by
  rw [headerEntry, same 24 (by decide), same 25 (by decide), same 26 (by decide),
    same 27 (by decide), headerEntry]

/-- On a file of four bytes or more the check sees the magic number or its
absence. -/
theorem isExecutable_headerByte {inode : Nat} (tempBuf : Nat → UInt8)
    (long : 4 ≤ fs.inodeLength inode) :
    isExecutable (headerByte fs inode tempBuf) = true ↔
      fs.fileSlice inode 0 4 = executableChecking := by
  have same : isExecutable (headerByte fs inode tempBuf) =
      isExecutable fun k => fs.fileByte inode k := by
    apply isExecutable_congr
    intro k inRange
    rw [headerByte, if_pos (by omega)]
  have slice : fs.fileSlice inode 0 4 = (List.range 4).map fun k => fs.fileByte inode k := by
    simp only [Volume.fileSlice, Nat.zero_add]
  rw [same, isExecutable, slice, decide_eq_true_eq]

/-- What an execution of a found entry with an inode comes to. -/
theorem executeWithTerminalNum_found {kernel : Kernel} {text : CString} {pid : Nat}
    (found : kernel.fs.readDentryByName (programName text) = some dentry)
    (inodeLt : uint32 dentry.inode < uint32 kernel.fs.numInodes)
    (free : kernel.getEmptyPid = some pid) (registers : Registers) (tempBuf : Nat → UInt8)
    (terminalNum : Nat) (isTerminal : Int) :
    let outcome := executeWithTerminalNum kernel registers tempBuf (some text) terminalNum
      isTerminal
    (isExecutable (headerByte kernel.fs (uint32 dentry.inode) tempBuf) = false ∧
        ∃ target, outcome = some (.failed, target)) ∨
      (isExecutable (headerByte kernel.fs (uint32 dentry.inode) tempBuf) = true ∧
        ((programRoom < kernel.fs.inodeLength (uint32 dentry.inode) ∧ outcome = none) ∨
          (kernel.fs.inodeLength (uint32 dentry.inode) ≤ programRoom ∧ ∃ target, outcome =
            some (.started pid (headerEntry
              (headerByte kernel.fs (uint32 dentry.inode) tempBuf)), target)))) := by
  have header : ∀ k, k < execInfoBytes → readHeader kernel.fs (programName text) tempBuf k =
      headerByte kernel.fs (uint32 dentry.inode) tempBuf k :=
    fun k inHeader => readHeader_eq found inodeLt tempBuf inHeader
  have check := isExecutable_congr fun k inRange =>
    header k (Nat.lt_trans inRange (by decide))
  have entry := headerEntry_congr header
  have present : kernel.fs.readDentryByName (programName text) ≠ none := by simp [found]
  have load := loadExecutable_eq found inodeLt
  simp only [executeWithTerminalNum, present, if_false, check, free, load, entry]
  cases passes : isExecutable (headerByte kernel.fs (uint32 dentry.inode) tempBuf) with
  | false => exact .inl ⟨rfl, _, rfl⟩
  | true =>
      refine .inr ⟨rfl, ?_⟩
      by_cases fits : kernel.fs.inodeLength (uint32 dentry.inode) ≤ programRoom
      · simp only [fits, if_true]
        exact .inr ⟨trivial, _, rfl⟩
      · simp only [fits, if_false]
        exact .inl ⟨Nat.lt_of_not_le fits, rfl⟩

/-- What the stack held makes no difference to a command whose file has the whole
header. -/
theorem executeWithTerminalNum_complete {kernel : Kernel} {command : Option CString}
    (complete : ∀ dentry, commandEntry kernel.fs command = some dentry →
      CompleteHeader kernel.fs dentry)
    (registers : Registers) (tempBuf other : Nat → UInt8) (terminalNum : Nat)
    (isTerminal : Int) :
    executeWithTerminalNum kernel registers other command terminalNum isTerminal =
      executeWithTerminalNum kernel registers tempBuf command terminalNum isTerminal := by
  cases command with
  | none => rfl
  | some text =>
      cases found : kernel.fs.readDentryByName (programName text) with
      | none => simp only [executeWithTerminalNum, found, if_true]
      | some dentry =>
          have header : ∀ k, k < execInfoBytes → readHeader kernel.fs (programName text) other k =
              readHeader kernel.fs (programName text) tempBuf k :=
            fun k inHeader => readHeader_complete found (complete dentry found) _ _ inHeader
          have check := isExecutable_congr fun k inRange =>
            header k (Nat.lt_trans inRange (by decide))
          have entry := headerEntry_congr header
          simp only [executeWithTerminalNum, check, entry]

theorem startsExactly_found_iff {kernel : Kernel} {text : CString} {pid : Nat}
    (found : kernel.fs.readDentryByName (programName text) = some dentry)
    (inodeLt : uint32 dentry.inode < uint32 kernel.fs.numInodes)
    (free : kernel.getEmptyPid = some pid) (registers : Registers) (tempBuf : Nat → UInt8)
    (terminalNum : Nat) (isTerminal : Int) :
    StartsExactly kernel.fs (some text)
        (executeWithTerminalNum kernel registers tempBuf (some text) terminalNum isTerminal) ↔
      ¬ (isExecutable (headerByte kernel.fs (uint32 dentry.inode) tempBuf) = true ∧
        (dentry.fileType ≠ Image.regularType ∨
          kernel.fs.inodeLength (uint32 dentry.inode) < execInfoBytes ∨
          programRoom < kernel.fs.inodeLength (uint32 dentry.inode))) := by
  rcases executeWithTerminalNum_found found inodeLt free registers tempBuf terminalNum
      isTerminal with
    ⟨fails, target, outcome⟩ | ⟨passes, ⟨tooLong, outcome⟩ | ⟨fits, target, outcome⟩⟩
  · rw [outcome]
    constructor
    · rintro - ⟨passes, -⟩
      rw [fails] at passes
      contradiction
    · rintro - other named executable
      cases found.symm.trans named
      have passes := (isExecutable_headerByte tempBuf executable.length_ge).mpr executable.magic
      rw [fails] at passes
      contradiction
  · rw [outcome]
    constructor
    · intro impossible
      exact impossible.elim
    · intro judged
      exact absurd ⟨passes, .inr (.inr tooLong)⟩ judged
  · rw [outcome]
    constructor
    · rintro ⟨other, named, executable, complete, -⟩ ⟨-, wrong⟩
      cases found.symm.trans named
      rcases wrong with notRegular | short | tooLong
      · exact notRegular executable.regular
      · exact Nat.not_lt.mpr complete short
      · exact Nat.not_lt.mpr fits tooLong
    · intro judged
      have regular : dentry.fileType = Image.regularType := by
        by_contra other
        exact judged ⟨passes, .inl other⟩
      have complete : execInfoBytes ≤ kernel.fs.inodeLength (uint32 dentry.inode) := by
        by_contra short
        exact judged ⟨passes, .inr (.inl (Nat.lt_of_not_le short))⟩
      have long : 4 ≤ kernel.fs.inodeLength (uint32 dentry.inode) :=
        Nat.le_trans (by decide) complete
      refine ⟨dentry, found, ⟨regular, inodeLt, long, ?_⟩, complete, ?_⟩
      · exact (isExecutable_headerByte tempBuf long).mp passes
      · apply headerEntry_congr
        intro k inHeader
        rw [headerByte, if_pos (Nat.lt_of_lt_of_le inHeader complete)]

/-- An entry without an inode always fails: at the check, or at the load. -/
theorem executeWithTerminalNum_dangling {kernel : Kernel} {text : CString}
    (dangling : DanglingEntry kernel.fs (programName text)) (registers : Registers)
    (tempBuf : Nat → UInt8) (terminalNum : Nat) (isTerminal : Int) :
    ∃ target, executeWithTerminalNum kernel registers tempBuf (some text) terminalNum
      isTerminal = some (.failed, target) := by
  have present : kernel.fs.readDentryByName (programName text) ≠ none := by
    obtain ⟨dentry, found, -⟩ := dangling
    simp [found]
  simp only [executeWithTerminalNum, present, if_false, dangling.readHeader,
    dangling.loadExecutable]
  split
  · exact ⟨_, rfl⟩
  · split
    · exact ⟨_, rfl⟩
    · exact ⟨_, rfl⟩

end Found

/-- With a free slot, `execute` starts exactly the executables unless the command
is misjudged. -/
theorem execute_startsExactly_iff (kernel : Kernel) (registers : Registers)
    (tempBuf : Nat → UInt8) (command : Option CString) (terminalNum : Nat) (isTerminal : Int)
    (free : kernel.getEmptyPid ≠ none) :
    StartsExactly kernel.fs command
        (executeWithTerminalNum kernel registers tempBuf command terminalNum isTerminal) ↔
      ¬ Misjudged kernel.fs tempBuf command := by
  obtain ⟨pid, freeEq⟩ := Option.ne_none_iff_exists'.mp free
  cases command with
  | none =>
      constructor
      · rintro - ⟨dentry, impossible, -⟩
        contradiction
      · rintro - dentry impossible
        contradiction
  | some text =>
      have entryEq : commandEntry kernel.fs (some text) =
          kernel.fs.readDentryByName (programName text) :=
        rfl
      simp only [Misjudged, entryEq]
      cases found : kernel.fs.readDentryByName (programName text) with
      | none =>
          have fails : executeWithTerminalNum kernel registers tempBuf (some text) terminalNum
              isTerminal = some (.failed, kernel.setName (programName text)) := by
            simp only [executeWithTerminalNum, found, if_true]
          rw [fails]
          simp [StartsExactly, entryEq, found]
      | some dentry =>
          simp only [Option.some.injEq, exists_eq_left']
          by_cases inodeLt : uint32 dentry.inode < uint32 kernel.fs.numInodes
          · rw [and_iff_right inodeLt]
            exact startsExactly_found_iff found inodeLt freeEq registers tempBuf terminalNum
              isTerminal
          · obtain ⟨target, fails⟩ := executeWithTerminalNum_dangling
              ⟨dentry, found, Nat.le_of_not_lt inodeLt⟩ registers tempBuf terminalNum isTerminal
            rw [fails]
            constructor
            · rintro - ⟨inside, -⟩
              exact inodeLt inside
            · rintro - other named executable
              cases found.symm.trans named
              exact inodeLt executable.inode_lt

/-- The nonzero bytes of an image with one program, `"x"`, of `28` bytes. -/
def programBytes : List (Nat × UInt8) :=
  [(0, 1), (4, 1), (8, 1), (64, 120), (96, 2), (4096, 28), (8192, 0x7f), (8193, 0x45),
    (8194, 0x4c), (8195, 0x46), (8216, 0xe8), (8217, 0x82), (8218, 0x04), (8219, 0x08)]

/-- The kernel that mounted it. -/
def programKernel : Kernel :=
  Kernel.boot (filesysInit (fun k => (programBytes.lookup k).getD 0) 0) zeroTables (fun _ => 0)
    (fun _ => 0) (fun _ => 0) (fun _ => 0) 0

/-- The program `"x"` starts at its entry point. -/
theorem execute_startsExactly_program : ∃ target,
    executeWithTerminalNum programKernel { esp := 0, ebp := 0 } (fun _ => 0)
        (some danglingCommand) 0 1 = some (.started 1 0x080482e8, target) ∧
      StartsExactly programKernel.fs (some danglingCommand)
        (some (.started 1 0x080482e8, target)) := by
  have entry : commandEntry programKernel.fs (some danglingCommand) =
      some (programKernel.fs.dentryAt 0) := by decide +kernel
  have judged : ¬ Misjudged programKernel.fs (fun _ => 0) (some danglingCommand) := by
    rintro ⟨dentry, named, -, -, wrong⟩
    cases entry.symm.trans named
    exact absurd wrong (by decide +kernel)
  have exactly := (execute_startsExactly_iff programKernel { esp := 0, ebp := 0 } (fun _ => 0)
    (some danglingCommand) 0 1 (by decide +kernel)).mpr judged
  exact ⟨_, rfl, exactly⟩

theorem dot_noNul : (0 : UInt8) ∉ [46] := by
  decide

/-- The command `"."`. -/
def dotCommand : CString :=
  { chars := [46], noNul := dot_noNul }

/-- The root shell executes the directory: its inode number is that of the
shell, so it starts. -/
theorem directory_starts : ∃ launched target,
    processStep shellKernel (.bootLaunch { esp := 0, ebp := 0 } fun _ => 0) =
        some (.launched (.started 1 0), launched) ∧
      launched.userProcess = some 1 ∧ launched.getEmptyPid = some 2 ∧
      execute launched { esp := 64, ebp := 96 } (fun _ => 0) (some dotCommand) =
        some (.started 2 0, target) ∧
      ¬ StartsExactly launched.fs (some dotCommand)
        (execute launched { esp := 64, ebp := 96 } (fun _ => 0) (some dotCommand)) := by
  refine ⟨_, _, rfl, rfl, rfl, rfl, ?_⟩
  rintro ⟨dentry, named, executable, -⟩
  have entry : commandEntry shellKernel.fs (some dotCommand) =
      some (shellKernel.fs.dentryAt 0) := by decide +kernel
  cases entry.symm.trans named
  exact absurd executable.regular (by decide +kernel)

end PonyOS.Process
