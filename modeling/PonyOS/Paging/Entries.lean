import PonyOS.Lib.Bitfield
import PonyOS.Paging.Tables

/-!
# The tables in memory

The directory and the two page tables are words of physical memory, and the kernel
assigns the fields of their entries one by one.  The words are compared with the
tables up to the two bits that the processor sets in the entries that it uses: the
kernel never reads these.

What the updates assign leaves words that hold the updated tables, from any words
that held the tables before.
-/

namespace PonyOS.Paging

open PonyOS.Lib.Bitfield
open PonyOS.Lib.Loop

/-! ## Entries as words -/

namespace DirField

/-! The fields of `page_directory_t`. -/

def present : Field := ⟨0, 1⟩
def readWrite : Field := ⟨1, 1⟩
def userSupervisor : Field := ⟨2, 1⟩
def writeThrough : Field := ⟨3, 1⟩
def cacheDisabled : Field := ⟨4, 1⟩
def accessed : Field := ⟨5, 1⟩
def reserved : Field := ⟨6, 1⟩
def size : Field := ⟨7, 1⟩
def zero : Field := ⟨8, 1⟩
def avail : Field := ⟨9, 3⟩
def alignedAddress : Field := ⟨12, 20⟩

/-- All of them. -/
def all : List Field :=
  [present, readWrite, userSupervisor, writeThrough, cacheDisabled, accessed, reserved, size, zero,
    avail, alignedAddress]

theorem layout : Layout 32 all := by
  decide

end DirField

namespace TableField

/-! The fields of `page_table_t`. -/

def present : Field := ⟨0, 1⟩
def readWrite : Field := ⟨1, 1⟩
def userSupervisor : Field := ⟨2, 1⟩
def writeThrough : Field := ⟨3, 1⟩
def cacheDisabled : Field := ⟨4, 1⟩
def accessed : Field := ⟨5, 1⟩
def dirty : Field := ⟨6, 1⟩
def zero : Field := ⟨7, 1⟩
def global : Field := ⟨8, 1⟩
def avail : Field := ⟨9, 3⟩
def pageAddress : Field := ⟨12, 20⟩

/-- All of them. -/
def all : List Field :=
  [present, readWrite, userSupervisor, writeThrough, cacheDisabled, accessed, dirty, zero, global,
    avail, pageAddress]

theorem layout : Layout 32 all := by
  decide

end TableField

/-- The bits of an entry that the processor sets. -/
def usedBits : Field :=
  ⟨5, 2⟩

/-- The fields of a directory entry that the processor leaves alone. -/
def PageDirEntry.contents (entry : PageDirEntry) : List (Field × Nat) :=
  [(DirField.present, entry.present.toNat), (DirField.readWrite, entry.readWrite.toNat),
    (DirField.userSupervisor, entry.userSupervisor.toNat),
    (DirField.writeThrough, entry.writeThrough.toNat),
    (DirField.cacheDisabled, entry.cacheDisabled.toNat), (DirField.size, entry.size.toNat),
    (DirField.zero, entry.zero.toNat), (DirField.avail, entry.avail),
    (DirField.alignedAddress, entry.alignedAddress)]

/-- The fields of a page-table entry that the processor leaves alone. -/
def PageTableEntry.contents (entry : PageTableEntry) : List (Field × Nat) :=
  [(TableField.present, entry.present.toNat), (TableField.readWrite, entry.readWrite.toNat),
    (TableField.userSupervisor, entry.userSupervisor.toNat),
    (TableField.writeThrough, entry.writeThrough.toNat),
    (TableField.cacheDisabled, entry.cacheDisabled.toNat), (TableField.zero, entry.zero.toNat),
    (TableField.global, entry.global.toNat), (TableField.avail, entry.avail),
    (TableField.pageAddress, entry.pageAddress)]

theorem PageDirEntry.contents_listed (entry : PageDirEntry) :
    Assigns DirField.all entry.contents := by
  simp [Assigns, contents, DirField.all]

theorem PageTableEntry.contents_listed (entry : PageTableEntry) :
    Assigns TableField.all entry.contents := by
  simp [Assigns, contents, TableField.all]

theorem PageDirEntry.contents_apart (entry : PageDirEntry) :
    ∀ content ∈ entry.contents, content.1.Apart usedBits := by
  simp only [contents, List.forall_mem_cons]
  decide

theorem PageTableEntry.contents_apart (entry : PageTableEntry) :
    ∀ content ∈ entry.contents, content.1.Apart usedBits := by
  simp only [contents, List.forall_mem_cons]
  decide

/-- A word of the directory as an entry. -/
def dirEntry (word : BitVec 32) : PageDirEntry :=
  { present := word.getLsbD 0
    readWrite := word.getLsbD 1
    userSupervisor := word.getLsbD 2
    writeThrough := word.getLsbD 3
    cacheDisabled := word.getLsbD 4
    accessed := word.getLsbD 5
    reserved := word.getLsbD 6
    size := word.getLsbD 7
    zero := word.getLsbD 8
    avail := DirField.avail.get word
    alignedAddress := DirField.alignedAddress.get word }

/-- A word of a page table as an entry. -/
def tableEntry (word : BitVec 32) : PageTableEntry :=
  { present := word.getLsbD 0
    readWrite := word.getLsbD 1
    userSupervisor := word.getLsbD 2
    writeThrough := word.getLsbD 3
    cacheDisabled := word.getLsbD 4
    accessed := word.getLsbD 5
    dirty := word.getLsbD 6
    zero := word.getLsbD 7
    global := word.getLsbD 8
    avail := TableField.avail.get word
    pageAddress := TableField.pageAddress.get word }

theorem holds_dirEntry (word : BitVec 32) : Holds word (dirEntry word).contents := by
  simp only [Holds, PageDirEntry.contents, dirEntry, List.forall_mem_cons]
  exact ⟨Field.get_bit 0 word, Field.get_bit 1 word, Field.get_bit 2 word, Field.get_bit 3 word,
    Field.get_bit 4 word, Field.get_bit 7 word, Field.get_bit 8 word, trivial, trivial,
    List.forall_mem_nil _⟩

theorem holds_tableEntry (word : BitVec 32) : Holds word (tableEntry word).contents := by
  simp only [Holds, PageTableEntry.contents, tableEntry, List.forall_mem_cons]
  exact ⟨Field.get_bit 0 word, Field.get_bit 1 word, Field.get_bit 2 word, Field.get_bit 3 word,
    Field.get_bit 4 word, Field.get_bit 7 word, Field.get_bit 8 word, trivial, trivial,
    List.forall_mem_nil _⟩

/-! ## The updates, field by field -/

/-- Where the linker placed the directory and the two page tables in the kernel
page. -/
structure TableFrames where
  pageDir : Nat
  pageTable : Nat
  userVideoPageTable : Nat
  dir_ne_table : pageDir ≠ pageTable
  dir_ne_userVideo : pageDir ≠ userVideoPageTable
  table_ne_userVideo : pageTable ≠ userVideoPageTable
  dir_kernel : pageDir / 1024 = 1
  table_kernel : pageTable / 1024 = 1
  userVideo_kernel : userVideoPageTable / 1024 = 1

/-- Physical memory by words. -/
abbrev Words := Nat → BitVec 32

/-- An assignment to a field of the word at an index. -/
structure FieldWrite where
  index : Nat
  field : Field
  value : Nat
  deriving DecidableEq

/-- One assignment. -/
def FieldWrite.apply (words : Words) (write : FieldWrite) : Words :=
  Function.update words write.index (write.field.set write.value (words write.index))

/-- Assignments to the fields of one word. -/
def entryWrites (index : Nat) (assignments : List (Field × Nat)) : List FieldWrite :=
  assignments.map fun assignment => ⟨index, assignment.1, assignment.2⟩

/-- The assignments of `page_directory_init`. -/
def pageDirectoryInit : List (Field × Nat) :=
  [(DirField.present, 0), (DirField.readWrite, 1), (DirField.userSupervisor, 0),
    (DirField.writeThrough, 0), (DirField.cacheDisabled, 0), (DirField.accessed, 0),
    (DirField.reserved, 0), (DirField.size, 0), (DirField.zero, 0), (DirField.avail, 0),
    (DirField.alignedAddress, 0)]

/-- The assignments of `page_table_init` and `user_video_page_table_init`. -/
def pageTableInit : List (Field × Nat) :=
  [(TableField.present, 0), (TableField.readWrite, 0), (TableField.userSupervisor, 0),
    (TableField.writeThrough, 0), (TableField.cacheDisabled, 0), (TableField.accessed, 0),
    (TableField.dirty, 0), (TableField.zero, 0), (TableField.global, 0), (TableField.avail, 0),
    (TableField.pageAddress, 0)]

namespace TableFrames

/-- The assignments of `setup_task_page`. -/
def setupTaskPage (frames : TableFrames) (ind : Nat) : List FieldWrite :=
  entryWrites (frames.pageDir * 1024 + userSpaceStart)
    (pageDirectoryInit ++ [(DirField.present, 1), (DirField.userSupervisor, 1), (DirField.size, 1),
      (DirField.alignedAddress, ind * 1024 + 2 * 1024)])

/-- The assignments of `set_active_terminal_paging`. -/
def setActiveTerminalPaging (frames : TableFrames) (terminalId : Nat) (display : Bool) :
    List FieldWrite :=
  if display then
    [⟨frames.pageTable * 1024 + videoInd, TableField.pageAddress, videoInd⟩,
      ⟨frames.userVideoPageTable * 1024 + videoInd, TableField.pageAddress, videoInd⟩]
  else
    [⟨frames.pageTable * 1024 + videoInd, TableField.pageAddress, videoInd + terminalId + 1⟩,
      ⟨frames.userVideoPageTable * 1024 + videoInd, TableField.pageAddress,
        videoInd + terminalId + 1⟩]

/-- The assignments of `setupt_video_user_level` to entry `i` of its loop. -/
def userVideoWrites (frames : TableFrames) (i : Nat) : List FieldWrite :=
  entryWrites (frames.userVideoPageTable * 1024 + i)
    (pageTableInit ++ (if i ≠ 0 then [(TableField.present, 1)] else []) ++
      [(TableField.userSupervisor, 1), (TableField.readWrite, 1), (TableField.pageAddress, i)])

/-- `setupt_video_user_level`. -/
def setuptVideoUserLevel (frames : TableFrames) (words : Words) : Words :=
  let words := forUpTo 1024 (fun i words =>
    (frames.userVideoWrites i).foldl FieldWrite.apply words) words
  (entryWrites (frames.pageDir * 1024 + userVideoStart)
    (pageDirectoryInit ++ [(DirField.present, 1), (DirField.userSupervisor, 1), (DirField.size, 0),
      (DirField.alignedAddress, frames.userVideoPageTable)])).foldl FieldWrite.apply words

/-- The assignments of `paging_init` to the unused entry `i` of the directory. -/
def unusedWrites (frames : TableFrames) (i : Nat) : List FieldWrite :=
  entryWrites (frames.pageDir * 1024 + i)
    (pageDirectoryInit ++ [(DirField.readWrite, 1), (DirField.alignedAddress, i * 1024),
      (DirField.size, 1)])

/-- The assignments of `paging_init` to entry `i` of the page table. -/
def pageTableWrites (frames : TableFrames) (i : Nat) : List FieldWrite :=
  entryWrites (frames.pageTable * 1024 + i)
    (pageTableInit ++ (if i ≠ 0 then [(TableField.present, 1)] else []) ++
      [(TableField.readWrite, 1), (TableField.pageAddress, i)])

/-- `paging_init`, up to its write of `cr3`. -/
def pagingInit (frames : TableFrames) (words : Words) : Words :=
  let words := forUpTo 1022 (fun k words =>
    (frames.unusedWrites (k + 2)).foldl FieldWrite.apply words) words
  let words := forUpTo 1024 (fun i words =>
    (frames.pageTableWrites i).foldl FieldWrite.apply words) words
  let words := FieldWrite.apply words
    ⟨frames.pageTable * 1024 + staticVideoInd, TableField.pageAddress, videoInd⟩
  let words := (entryWrites (frames.pageDir * 1024 + 0)
    (pageDirectoryInit ++ [(DirField.alignedAddress, frames.pageTable),
      (DirField.present, 1)])).foldl FieldWrite.apply words
  let words := (entryWrites (frames.pageDir * 1024 + 1)
    (pageDirectoryInit ++ [(DirField.present, 1), (DirField.alignedAddress, 1024),
      (DirField.size, 1), (DirField.userSupervisor, 0)])).foldl FieldWrite.apply words
  (frames.setActiveTerminalPaging 0 true).foldl FieldWrite.apply
    (frames.setuptVideoUserLevel words)

/-- A frame of one of the tables. -/
def Holds (frames : TableFrames) (frame : Nat) : Prop :=
  frame = frames.pageDir ∨ frame = frames.pageTable ∨ frame = frames.userVideoPageTable

instance (frames : TableFrames) (frame : Nat) : Decidable (frames.Holds frame) :=
  inferInstanceAs (Decidable (_ ∨ _ ∨ _))

theorem Holds.kernel {frames : TableFrames} {frame : Nat} (holds : frames.Holds frame) :
    frame / 1024 = 1 := by
  rcases holds with rfl | rfl | rfl
  · exact frames.dir_kernel
  · exact frames.table_kernel
  · exact frames.userVideo_kernel

/-- The tables that the words hold. -/
def tables (frames : TableFrames) (words : Words) : PageTables :=
  { pageDir := fun i => dirEntry (words (frames.pageDir * 1024 + i))
    pageTable := fun i => tableEntry (words (frames.pageTable * 1024 + i))
    userVideoPageTable := fun i => tableEntry (words (frames.userVideoPageTable * 1024 + i))
    pageTableFrame := frames.pageTable
    userVideoFrame := frames.userVideoPageTable
    frames_ne := frames.table_ne_userVideo }

end TableFrames

/-! ## Words that hold the tables -/

/-- The words hold the tables, up to the bits that the processor sets. -/
structure Represents (frames : TableFrames) (words : Words) (paging : PageTables) : Prop where
  tableFrame : paging.pageTableFrame = frames.pageTable
  userVideoFrame : paging.userVideoFrame = frames.userVideoPageTable
  dir : ∀ i, i < 1024 → Holds (words (frames.pageDir * 1024 + i)) (paging.pageDir i).contents
  table : ∀ i, i < 1024 →
    Holds (words (frames.pageTable * 1024 + i)) (paging.pageTable i).contents
  userTable : ∀ i, i < 1024 →
    Holds (words (frames.userVideoPageTable * 1024 + i)) (paging.userVideoPageTable i).contents

theorem represents_tables (frames : TableFrames) (words : Words) :
    Represents frames words (frames.tables words) where
  tableFrame := rfl
  userVideoFrame := rfl
  dir _ _ := holds_dirEntry _
  table _ _ := holds_tableEntry _
  userTable _ _ := holds_tableEntry _

/-- The words agree on the tables, up to the bits that the processor sets. -/
def SameTables (frames : TableFrames) (words others : Words) : Prop :=
  ∀ index, frames.Holds (index / 1024) → SameOutside usedBits (words index) (others index)

theorem index_div {frame i : Nat} (inFrame : i < 1024) : (frame * 1024 + i) / 1024 = frame := by
  omega

theorem Represents.congr {frames : TableFrames} {words others : Words} {paging : PageTables}
    (held : Represents frames others paging) (same : SameTables frames words others) :
    Represents frames words paging where
  tableFrame := held.tableFrame
  userVideoFrame := held.userVideoFrame
  dir i inFrame := by
    have inTable : frames.Holds ((frames.pageDir * 1024 + i) / 1024) := by
      rw [index_div inFrame]
      exact Or.inl rfl
    exact (same _ inTable).holds (PageDirEntry.contents_apart _) (held.dir i inFrame)
  table i inFrame := by
    have inTable : frames.Holds ((frames.pageTable * 1024 + i) / 1024) := by
      rw [index_div inFrame]
      exact Or.inr (Or.inl rfl)
    exact (same _ inTable).holds (PageTableEntry.contents_apart _) (held.table i inFrame)
  userTable i inFrame := by
    have inTable : frames.Holds ((frames.userVideoPageTable * 1024 + i) / 1024) := by
      rw [index_div inFrame]
      exact Or.inr (Or.inr rfl)
    exact (same _ inTable).holds (PageTableEntry.contents_apart _) (held.userTable i inFrame)

/-! ## The updates hold the updated tables -/

theorem foldl_entryWrites (index : Nat) (assignments : List (Field × Nat)) (words : Words) :
    (entryWrites index assignments).foldl FieldWrite.apply words =
      Function.update words index (assign assignments (words index)) := by
  induction assignments generalizing words with
  | nil => exact (Function.update_eq_self index words).symm
  | cons assignment rest ih =>
      change (entryWrites index rest).foldl FieldWrite.apply
        (FieldWrite.apply words ⟨index, assignment.1, assignment.2⟩) = _
      rw [ih, FieldWrite.apply, Function.update_idem, Function.update_self]
      rfl

namespace Represents

variable {frames : TableFrames} {words : Words} {paging : PageTables}

theorem setDir (held : Represents frames words paging) {i : Nat} (inFrame : i < 1024)
    {assignments : List (Field × Nat)} {entry : PageDirEntry}
    (assigns : Assigns DirField.all assignments)
    (last : ∀ content ∈ entry.contents, lastAssigned content.1 assignments
      (content.1.get (words (frames.pageDir * 1024 + i))) = content.2) :
    Represents frames
      ((entryWrites (frames.pageDir * 1024 + i) assignments).foldl FieldWrite.apply words)
      (paging.setDir i entry) := by
  have distinctTable := frames.dir_ne_table
  have distinctUser := frames.dir_ne_userVideo
  rw [foldl_entryWrites]
  refine ⟨held.tableFrame, held.userVideoFrame, fun j inside => ?_, fun j inside => ?_,
    fun j inside => ?_⟩
  · by_cases same : j = i
    · subst same
      simp only [PageTables.setDir, Function.update_self]
      exact DirField.layout.holds_assign assigns entry.contents_listed last
    · simp only [PageTables.setDir]
      rw [Function.update_of_ne (by omega), Function.update_of_ne same]
      exact held.dir j inside
  · rw [Function.update_of_ne (by omega)]
    exact held.table j inside
  · rw [Function.update_of_ne (by omega)]
    exact held.userTable j inside

theorem setTable (held : Represents frames words paging) {i : Nat} (inFrame : i < 1024)
    {assignments : List (Field × Nat)} {entry : PageTableEntry}
    (assigns : Assigns TableField.all assignments)
    (last : ∀ content ∈ entry.contents, lastAssigned content.1 assignments
      (content.1.get (words (frames.pageTable * 1024 + i))) = content.2) :
    Represents frames
      ((entryWrites (frames.pageTable * 1024 + i) assignments).foldl FieldWrite.apply words)
      (paging.setTable i entry) := by
  have distinctDir := frames.dir_ne_table
  have distinctUser := frames.table_ne_userVideo
  rw [foldl_entryWrites]
  refine ⟨held.tableFrame, held.userVideoFrame, fun j inside => ?_, fun j inside => ?_,
    fun j inside => ?_⟩
  · rw [Function.update_of_ne (by omega)]
    exact held.dir j inside
  · by_cases same : j = i
    · subst same
      simp only [PageTables.setTable, Function.update_self]
      exact TableField.layout.holds_assign assigns entry.contents_listed last
    · simp only [PageTables.setTable]
      rw [Function.update_of_ne (by omega), Function.update_of_ne same]
      exact held.table j inside
  · rw [Function.update_of_ne (by omega)]
    exact held.userTable j inside

theorem setUserTable (held : Represents frames words paging) {i : Nat} (inFrame : i < 1024)
    {assignments : List (Field × Nat)} {entry : PageTableEntry}
    (assigns : Assigns TableField.all assignments)
    (last : ∀ content ∈ entry.contents, lastAssigned content.1 assignments
      (content.1.get (words (frames.userVideoPageTable * 1024 + i))) = content.2) :
    Represents frames
      ((entryWrites (frames.userVideoPageTable * 1024 + i) assignments).foldl
        FieldWrite.apply words)
      (paging.setUserTable i entry) := by
  have distinctDir := frames.dir_ne_userVideo
  have distinctTable := frames.table_ne_userVideo
  rw [foldl_entryWrites]
  refine ⟨held.tableFrame, held.userVideoFrame, fun j inside => ?_, fun j inside => ?_,
    fun j inside => ?_⟩
  · rw [Function.update_of_ne (by omega)]
    exact held.dir j inside
  · rw [Function.update_of_ne (by omega)]
    exact held.table j inside
  · by_cases same : j = i
    · subst same
      simp only [PageTables.setUserTable, Function.update_self]
      exact TableField.layout.holds_assign assigns entry.contents_listed last
    · simp only [PageTables.setUserTable]
      rw [Function.update_of_ne (by omega), Function.update_of_ne same]
      exact held.userTable j inside

theorem setupTaskPage (held : Represents frames words paging) (ind : Nat) :
    Represents frames ((frames.setupTaskPage ind).foldl FieldWrite.apply words)
      (paging.setupTaskPage ind) := by
  apply held.setDir (by decide)
  · simp [Assigns, pageDirectoryInit, DirField.all]
  · simp only [PageDirEntry.contents, List.forall_mem_cons]
    exact ⟨rfl, rfl, rfl, rfl, rfl, rfl, rfl, rfl, rfl, List.forall_mem_nil _⟩

/-- Only the address of a page-table entry is assigned. -/
theorem lastAssigned_page {word : BitVec 32} {entry : PageTableEntry}
    (held : Holds word entry.contents) (value : Nat) :
    ∀ content ∈ ({ entry with pageAddress := frameBits value } : PageTableEntry).contents,
      lastAssigned content.1 [(TableField.pageAddress, value)] (content.1.get word) =
        content.2 := by
  simp only [Holds, PageTableEntry.contents, List.forall_mem_cons] at held ⊢
  rcases held with ⟨present, readWrite, user, through, disabled, zero, isGlobal, avail, -⟩
  exact ⟨present, readWrite, user, through, disabled, zero, isGlobal, avail, rfl,
    List.forall_mem_nil _⟩

theorem page_assigns (value : Nat) :
    Assigns TableField.all [(TableField.pageAddress, value)] := by
  simp [Assigns, TableField.all]

theorem setTablePage (held : Represents frames words paging) {i : Nat} (inFrame : i < 1024)
    (value : Nat) :
    Represents frames
      (FieldWrite.apply words ⟨frames.pageTable * 1024 + i, TableField.pageAddress, value⟩)
      (paging.setTable i { paging.pageTable i with pageAddress := frameBits value }) :=
  held.setTable inFrame (page_assigns value) (lastAssigned_page (held.table i inFrame) value)

theorem setUserTablePage (held : Represents frames words paging) {i : Nat} (inFrame : i < 1024)
    (value : Nat) :
    Represents frames
      (FieldWrite.apply words
        ⟨frames.userVideoPageTable * 1024 + i, TableField.pageAddress, value⟩)
      (paging.setUserTable i
        { paging.userVideoPageTable i with pageAddress := frameBits value }) :=
  held.setUserTable inFrame (page_assigns value)
    (lastAssigned_page (held.userTable i inFrame) value)

theorem setActiveTerminalPaging (held : Represents frames words paging) (terminalId : Nat)
    (display : Bool) :
    Represents frames
      ((frames.setActiveTerminalPaging terminalId display).foldl FieldWrite.apply words)
      (paging.setActiveTerminalPaging terminalId display) := by
  cases display with
  | true => exact (held.setTablePage (by decide) videoInd).setUserTablePage (by decide) videoInd
  | false =>
      exact (held.setTablePage (by decide) (videoInd + terminalId + 1)).setUserTablePage (by decide)
        (videoInd + terminalId + 1)

theorem unused (held : Represents frames words paging) {i : Nat} (inFrame : i < 1024) :
    Represents frames ((frames.unusedWrites i).foldl FieldWrite.apply words)
      (paging.setDir i (unusedDirEntry i)) := by
  apply held.setDir inFrame
  · simp [Assigns, pageDirectoryInit, DirField.all]
  · simp only [PageDirEntry.contents, List.forall_mem_cons]
    exact ⟨rfl, rfl, rfl, rfl, rfl, rfl, rfl, rfl, rfl, List.forall_mem_nil _⟩

theorem kernelTable (held : Represents frames words paging) {i : Nat} (inFrame : i < 1024) :
    Represents frames ((frames.pageTableWrites i).foldl FieldWrite.apply words)
      (paging.setTable i (kernelTableEntry i)) := by
  have small : i % 1048576 = i := Nat.mod_eq_of_lt (by omega)
  by_cases first : i = 0
  · subst first
    apply held.setTable inFrame
    · simp [Assigns, pageTableInit, TableField.all]
    · simp only [PageTableEntry.contents, List.forall_mem_cons]
      exact ⟨rfl, rfl, rfl, rfl, rfl, rfl, rfl, rfl, rfl, List.forall_mem_nil _⟩
  · rw [TableFrames.pageTableWrites, if_pos first]
    apply held.setTable inFrame
    · simp [Assigns, pageTableInit, TableField.all]
    · simp only [PageTableEntry.contents, kernelTableEntry, decide_eq_true first,
        List.forall_mem_cons]
      exact ⟨rfl, rfl, rfl, rfl, rfl, rfl, rfl, rfl, small, List.forall_mem_nil _⟩

theorem userVideoTable (held : Represents frames words paging) {i : Nat} (inFrame : i < 1024) :
    Represents frames ((frames.userVideoWrites i).foldl FieldWrite.apply words)
      (paging.setUserTable i (userTableEntry i)) := by
  have small : i % 1048576 = i := Nat.mod_eq_of_lt (by omega)
  by_cases first : i = 0
  · subst first
    apply held.setUserTable inFrame
    · simp [Assigns, pageTableInit, TableField.all]
    · simp only [PageTableEntry.contents, List.forall_mem_cons]
      exact ⟨rfl, rfl, rfl, rfl, rfl, rfl, rfl, rfl, rfl, List.forall_mem_nil _⟩
  · rw [TableFrames.userVideoWrites, if_pos first]
    apply held.setUserTable inFrame
    · simp [Assigns, pageTableInit, TableField.all]
    · simp only [PageTableEntry.contents, userTableEntry, decide_eq_true first,
        List.forall_mem_cons]
      exact ⟨rfl, rfl, rfl, rfl, rfl, rfl, rfl, rfl, small, List.forall_mem_nil _⟩

theorem setuptVideoUserLevel (held : Represents frames words paging) :
    Represents frames (frames.setuptVideoUserLevel words) paging.setuptVideoUserLevel := by
  have small : frames.userVideoPageTable % 1048576 = frames.userVideoPageTable := by
    have inKernel := frames.userVideo_kernel
    omega
  have filled := forUpTo_related (Represents frames) 1024
    (fun i state other inside (before : Represents frames state other) =>
      before.userVideoTable (i := i) inside) held
  apply filled.setDir (by decide)
  · simp [Assigns, pageDirectoryInit, DirField.all]
  · simp only [PageDirEntry.contents, List.forall_mem_cons]
    refine ⟨rfl, rfl, rfl, rfl, rfl, rfl, rfl, rfl, ?_, List.forall_mem_nil _⟩
    rw [held.userVideoFrame]
    exact small

theorem initialDir (held : Represents frames words paging) {frame : Nat}
    (isTable : frame = frames.pageTable) :
    Represents frames
      ((entryWrites (frames.pageDir * 1024 + 0)
        (pageDirectoryInit ++ [(DirField.alignedAddress, frames.pageTable),
          (DirField.present, 1)])).foldl FieldWrite.apply words)
      (paging.setDir 0
        { clearedDirEntry with alignedAddress := frame, present := true }) := by
  subst isTable
  have small : frames.pageTable % 1048576 = frames.pageTable := by
    have inKernel := frames.table_kernel
    omega
  apply held.setDir (by decide)
  · simp [Assigns, pageDirectoryInit, DirField.all]
  · simp only [PageDirEntry.contents, List.forall_mem_cons]
    exact ⟨rfl, rfl, rfl, rfl, rfl, rfl, rfl, rfl, small, List.forall_mem_nil _⟩

theorem kernelDir (held : Represents frames words paging) :
    Represents frames
      ((entryWrites (frames.pageDir * 1024 + 1)
        (pageDirectoryInit ++ [(DirField.present, 1), (DirField.alignedAddress, 1024),
          (DirField.size, 1), (DirField.userSupervisor, 0)])).foldl FieldWrite.apply words)
      (paging.setDir 1
        { clearedDirEntry with
          present := true, alignedAddress := 1024, size := true, userSupervisor := false }) := by
  apply held.setDir (by decide)
  · simp [Assigns, pageDirectoryInit, DirField.all]
  · simp only [PageDirEntry.contents, List.forall_mem_cons]
    exact ⟨rfl, rfl, rfl, rfl, rfl, rfl, rfl, rfl, rfl, List.forall_mem_nil _⟩

theorem pagingInit (held : Represents frames words paging) :
    Represents frames (frames.pagingInit words) paging.pagingInit := by
  have directory := forUpTo_related (Represents frames) 1022
    (fun k state other inside (before : Represents frames state other) =>
      before.unused (i := k + 2) (by omega)) held
  have filled := forUpTo_related (Represents frames) 1024
    (fun i state other inside (before : Represents frames state other) =>
      before.kernelTable (i := i) inside) directory
  have fixed := filled.setTablePage (i := staticVideoInd) (by decide) videoInd
  have kernel := (fixed.initialDir held.tableFrame).kernelDir
  exact kernel.setuptVideoUserLevel.setActiveTerminalPaging 0 true

end Represents

end PonyOS.Paging
