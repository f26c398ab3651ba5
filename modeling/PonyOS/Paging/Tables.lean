import PonyOS.Lib.Loop
import Mathlib.Logic.Function.Basic

/-!
# Page tables

One page directory, one page table for the first four megabytes and one for
the user video window.  The module models the initialisation loops, the two
later updates, and the two-level translation that the processor performs.
`Shape` is the closed form of every state these operations reach: it is
parametrised only by the frame behind the video pages and by the process whose
frame is mapped.
-/

namespace PonyOS.Paging

open PonyOS.Lib.Loop

/-- `page_directory_t`. -/
structure PageDirEntry where
  present : Bool
  readWrite : Bool
  userSupervisor : Bool
  writeThrough : Bool
  cacheDisabled : Bool
  accessed : Bool
  reserved : Bool
  size : Bool
  zero : Bool
  avail : Nat
  alignedAddress : Nat
  deriving DecidableEq

/-- `page_table_t`. -/
structure PageTableEntry where
  present : Bool
  readWrite : Bool
  userSupervisor : Bool
  writeThrough : Bool
  cacheDisabled : Bool
  accessed : Bool
  dirty : Bool
  zero : Bool
  global : Bool
  avail : Nat
  pageAddress : Nat
  deriving DecidableEq

/-- The three tables, with the frames at which the linker placed the two page
tables. -/
structure PageTables where
  pageDir : Nat → PageDirEntry
  pageTable : Nat → PageTableEntry
  userVideoPageTable : Nat → PageTableEntry
  pageTableFrame : Nat
  userVideoFrame : Nat
  frames_ne : pageTableFrame ≠ userVideoFrame

/-- Truncation to the twenty bits of an address field. -/
def frameBits (value : Nat) : Nat :=
  value % 1048576

theorem frameBits_of_lt {value : Nat} (small : value < 1048576) :
    frameBits value = value :=
  Nat.mod_eq_of_lt small

/-- The entry that `page_table_init` and `user_video_page_table_init` write. -/
def clearedTableEntry : PageTableEntry :=
  { present := false, readWrite := false, userSupervisor := false,
    writeThrough := false, cacheDisabled := false, accessed := false,
    dirty := false, zero := false, global := false, avail := 0, pageAddress := 0 }

/-- The entry that `page_directory_init` writes. -/
def clearedDirEntry : PageDirEntry :=
  { present := false, readWrite := true, userSupervisor := false,
    writeThrough := false, cacheDisabled := false, accessed := false,
    reserved := false, size := false, zero := false, avail := 0, alignedAddress := 0 }

/-- Tables as a zeroed image has them, at two frames of the kernel page. -/
def zeroTables : PageTables :=
  { pageDir := fun _ => clearedDirEntry
    pageTable := fun _ => clearedTableEntry
    userVideoPageTable := fun _ => clearedTableEntry
    pageTableFrame := 0x410
    userVideoFrame := 0x411
    frames_ne := by decide }

/-- `VIDEO_IND`. -/
def videoInd : Nat := 0xB8

/-- `STATIC_VIDEO_IND`. -/
def staticVideoInd : Nat := 0xB8 + 4

/-- `USER_SPACE_START`. -/
def userSpaceStart : Nat := 32

/-- `USER_VIDEO_START`. -/
def userVideoStart : Nat := 40

/-- The page-table entry that the loop of `paging_init` leaves at `i`. -/
def kernelTableEntry (i : Nat) : PageTableEntry :=
  { clearedTableEntry with present := i ≠ 0, readWrite := true, pageAddress := i }

/-- The entry that the loop of `setupt_video_user_level` leaves at `i`. -/
def userTableEntry (i : Nat) : PageTableEntry :=
  { clearedTableEntry with
    present := i ≠ 0, userSupervisor := true, readWrite := true, pageAddress := i }

/-- The directory entry that the loop of `paging_init` leaves at `i`. -/
def unusedDirEntry (i : Nat) : PageDirEntry :=
  { clearedDirEntry with
    readWrite := true, alignedAddress := frameBits (i * 1024), size := true }

namespace PageTables

def setDir (paging : PageTables) (i : Nat) (entry : PageDirEntry) : PageTables :=
  { paging with pageDir := Function.update paging.pageDir i entry }

def setTable (paging : PageTables) (i : Nat) (entry : PageTableEntry) : PageTables :=
  { paging with pageTable := Function.update paging.pageTable i entry }

def setUserTable (paging : PageTables) (i : Nat) (entry : PageTableEntry) : PageTables :=
  { paging with userVideoPageTable := Function.update paging.userVideoPageTable i entry }

/-- `setupt_video_user_level`: the loop visits all 1024 entries. -/
def setuptVideoUserLevel (paging : PageTables) : PageTables :=
  let filled := forUpTo 1024 (fun i state => state.setUserTable i (userTableEntry i)) paging
  filled.setDir userVideoStart
    { clearedDirEntry with
      present := true, userSupervisor := true, size := false
      alignedAddress := paging.userVideoFrame }

/-- `set_active_terminal_paging`. -/
def setActiveTerminalPaging (paging : PageTables) (terminalId : Nat) (display : Bool) :
    PageTables :=
  let page := if display then videoInd else frameBits (videoInd + terminalId + 1)
  (paging.setTable videoInd
      { paging.pageTable videoInd with pageAddress := page }).setUserTable videoInd
    { paging.userVideoPageTable videoInd with pageAddress := page }

/-- `paging_init`. -/
def pagingInit (paging : PageTables) : PageTables :=
  let unused := forUpTo 1022
    (fun k state => state.setDir (k + 2) (unusedDirEntry (k + 2))) paging
  let table := forUpTo 1024 (fun i state => state.setTable i (kernelTableEntry i)) unused
  let fixed := table.setTable staticVideoInd
    { table.pageTable staticVideoInd with pageAddress := videoInd }
  let first := fixed.setDir 0
    { clearedDirEntry with alignedAddress := paging.pageTableFrame, present := true }
  let kernel := first.setDir 1
    { clearedDirEntry with
      present := true, alignedAddress := 1024, size := true, userSupervisor := false }
  kernel.setuptVideoUserLevel.setActiveTerminalPaging 0 true

/-- `setup_task_page`. -/
def setupTaskPage (paging : PageTables) (ind : Nat) : PageTables :=
  paging.setDir userSpaceStart
    { clearedDirEntry with
      present := true, userSupervisor := true, size := true
      alignedAddress := frameBits (ind * 1024 + 2 * 1024) }

/-- The page table at a frame, if it is one of the two. -/
def tableAt (paging : PageTables) (frame : Nat) : Option (Nat → PageTableEntry) :=
  if frame = paging.pageTableFrame then some paging.pageTable
  else if frame = paging.userVideoFrame then some paging.userVideoPageTable
  else none

/-- Two-level translation for one access; `user` is the privilege of the
access. -/
def translate (paging : PageTables) (user : Bool) (address : Nat) : Option Nat :=
  let dir := paging.pageDir (address / 4194304)
  if dir.present = false ∨ (user = true ∧ dir.userSupervisor = false) then none
  else if dir.size then
    some (dir.alignedAddress / 1024 * 4194304 + address % 4194304)
  else
    match paging.tableAt dir.alignedAddress with
    | none => none
    | some table =>
        let entry := table (address / 4096 % 1024)
        if entry.present = false ∨ (user = true ∧ entry.userSupervisor = false) then none
        else some (entry.pageAddress * 4096 + address % 4096)

end PageTables

/-! ## Closed form of the reachable tables -/

/-- The directory entry for the mapped process. -/
def taskDirEntry (ind : Nat) : PageDirEntry :=
  { clearedDirEntry with
    present := true, userSupervisor := true, size := true
    alignedAddress := frameBits (ind * 1024 + 2 * 1024) }

/-- Directory entries once a process, or none yet, is mapped. -/
def shapeDir (paging : PageTables) (task : Option Nat) (i : Nat) : PageDirEntry :=
  if i = 0 then
    { clearedDirEntry with alignedAddress := paging.pageTableFrame, present := true }
  else if i = 1 then
    { clearedDirEntry with present := true, alignedAddress := 1024, size := true }
  else if i = userVideoStart then
    { clearedDirEntry with
      present := true, userSupervisor := true, alignedAddress := paging.userVideoFrame }
  else if i = userSpaceStart then
    match task with
    | none => unusedDirEntry i
    | some ind => taskDirEntry ind
  else unusedDirEntry i

/-- Entries of the kernel page table when the video page is backed by frame
`video`. -/
def shapeTable (video i : Nat) : PageTableEntry :=
  if i = videoInd then { kernelTableEntry i with pageAddress := video }
  else if i = staticVideoInd then { kernelTableEntry i with pageAddress := videoInd }
  else kernelTableEntry i

/-- Entries of the user video page table when the video page is backed by
frame `video`. -/
def shapeUserTable (video i : Nat) : PageTableEntry :=
  if i = videoInd then { userTableEntry i with pageAddress := video } else userTableEntry i

/-- Closed form of the tables. -/
structure Shape (paging : PageTables) (video : Nat) (task : Option Nat) : Prop where
  dir : ∀ i, i < 1024 → paging.pageDir i = shapeDir paging task i
  table : ∀ i, i < 1024 → paging.pageTable i = shapeTable video i
  userTable : ∀ i, i < 1024 → paging.userVideoPageTable i = shapeUserTable video i

namespace PageTables

/-- A loop that fills the directory writes exactly its range. -/
theorem forUpTo_setDir (paging : PageTables) (entry : Nat → PageDirEntry) (n : Nat) :
    forUpTo n (fun k state => state.setDir (k + 2) (entry (k + 2))) paging =
      { paging with
        pageDir := fun i => if 2 ≤ i ∧ i < n + 2 then entry i else paging.pageDir i } := by
  rw [← forUpTo_update]
  exact forUpTo_hom
    (fun dir : Nat → PageDirEntry => ({ paging with pageDir := dir } : PageTables))
    n (fun _ _ _ => rfl) paging.pageDir

theorem forUpTo_setTable (paging : PageTables) (entry : Nat → PageTableEntry) (n : Nat) :
    forUpTo n (fun i state => state.setTable i (entry i)) paging =
      { paging with
        pageTable := fun i => if 0 ≤ i ∧ i < n + 0 then entry i else paging.pageTable i } := by
  rw [← forUpTo_update]
  exact forUpTo_hom
    (fun table : Nat → PageTableEntry => ({ paging with pageTable := table } : PageTables))
    n (fun _ _ _ => rfl) paging.pageTable

theorem forUpTo_setUserTable (paging : PageTables) (entry : Nat → PageTableEntry) (n : Nat) :
    forUpTo n (fun i state => state.setUserTable i (entry i)) paging =
      { paging with
        userVideoPageTable := fun i =>
          if 0 ≤ i ∧ i < n + 0 then entry i else paging.userVideoPageTable i } := by
  rw [← forUpTo_update]
  exact forUpTo_hom
    (fun table : Nat → PageTableEntry =>
      ({ paging with userVideoPageTable := table } : PageTables))
    n (fun _ _ _ => rfl) paging.userVideoPageTable

end PageTables

namespace PageTables

/-- `paging_init` with its loops replaced by what they write. -/
theorem pagingInit_eq (paging : PageTables) :
    paging.pagingInit =
      { paging with
        pageDir := Function.update (Function.update (Function.update
          (fun i => if 2 ≤ i ∧ i < 1024 then unusedDirEntry i else paging.pageDir i)
          0 { clearedDirEntry with alignedAddress := paging.pageTableFrame, present := true })
          1 { clearedDirEntry with present := true, alignedAddress := 1024, size := true })
          userVideoStart
          { clearedDirEntry with
            present := true, userSupervisor := true
            alignedAddress := paging.userVideoFrame }
        pageTable := Function.update (Function.update
          (fun i => if 0 ≤ i ∧ i < 1024 then kernelTableEntry i else paging.pageTable i)
          staticVideoInd { kernelTableEntry staticVideoInd with pageAddress := videoInd })
          videoInd (kernelTableEntry videoInd)
        userVideoPageTable := Function.update
          (fun i => if 0 ≤ i ∧ i < 1024 then userTableEntry i else paging.userVideoPageTable i)
          videoInd (userTableEntry videoInd) } := by
  simp only [pagingInit, forUpTo_setDir, forUpTo_setTable, setuptVideoUserLevel,
    forUpTo_setUserTable]
  rfl

end PageTables

/-- `paging_init` reaches the closed form with the video page on VGA memory
and no process mapped, whatever the tables held before. -/
theorem pagingInit_shape (paging : PageTables) :
    Shape paging.pagingInit videoInd none := by
  rw [PageTables.pagingInit_eq]
  refine ⟨fun i bound => ?_, fun i bound => ?_, fun i bound => ?_⟩
  · by_cases window : i = userVideoStart
    · subst window
      simp [shapeDir, userVideoStart]
    by_cases kernel : i = 1
    · subst kernel
      simp [shapeDir, userVideoStart]
    by_cases first : i = 0
    · subst first
      simp [shapeDir, userVideoStart]
    · have inRange : 2 ≤ i ∧ i < 1024 := by omega
      simp [shapeDir, window, kernel, first, inRange]
  · by_cases video : i = videoInd
    · subst video
      simp [shapeTable, kernelTableEntry]
    by_cases static : i = staticVideoInd
    · subst static
      simp [shapeTable, staticVideoInd, videoInd]
    · simp [shapeTable, video, static, bound]
  · by_cases video : i = videoInd
    · subst video
      simp [shapeUserTable, userTableEntry]
    · simp [shapeUserTable, video, bound]

namespace Shape

variable {paging : PageTables} {video : Nat} {task : Option Nat}

/-- Mapping a process replaces the process of the closed form. -/
theorem setupTaskPage (shape : Shape paging video task) (ind : Nat) :
    Shape (paging.setupTaskPage ind) video (some ind) := by
  refine ⟨fun i bound => ?_, shape.table, shape.userTable⟩
  simp only [PageTables.setupTaskPage, PageTables.setDir]
  by_cases mapped : i = userSpaceStart
  · subst mapped
    rw [Function.update_self, shapeDir, if_neg (by decide), if_neg (by decide),
      if_neg (by decide), if_pos rfl]
    rfl
  · rw [Function.update_of_ne mapped, shape.dir i bound]
    simp [shapeDir, mapped]

/-- Remapping the video pages replaces the frame of the closed form in both
page tables. -/
theorem setActiveTerminalPaging (shape : Shape paging video task)
    (terminalId : Nat) (display : Bool) :
    Shape (paging.setActiveTerminalPaging terminalId display)
      (if display then videoInd else frameBits (videoInd + terminalId + 1)) task := by
  refine ⟨shape.dir, fun i bound => ?_, fun i bound => ?_⟩
  · simp only [PageTables.setActiveTerminalPaging, PageTables.setTable,
      PageTables.setUserTable, shapeTable]
    by_cases isVideo : i = videoInd
    · subst isVideo
      rw [Function.update_self, if_pos rfl, shape.table videoInd (by decide), shapeTable,
        if_pos rfl]
    · rw [Function.update_of_ne isVideo, if_neg isVideo, shape.table i bound, shapeTable,
        if_neg isVideo]
  · simp only [PageTables.setActiveTerminalPaging, PageTables.setTable,
      PageTables.setUserTable, shapeUserTable]
    by_cases isVideo : i = videoInd
    · subst isVideo
      rw [Function.update_self, if_pos rfl, shape.userTable videoInd (by decide),
        shapeUserTable, if_pos rfl]
    · rw [Function.update_of_ne isVideo, if_neg isVideo, shape.userTable i bound,
        shapeUserTable, if_neg isVideo]

/-- Supervisor accesses to the first four megabytes go through the kernel page
table. -/
theorem translate_low (shape : Shape paging video task) (page : Nat) {offset : Nat}
    (nonNull : page ≠ 0) (low : page < 1024) (inPage : offset < 4096) :
    paging.translate false (page * 4096 + offset) =
      some ((shapeTable video page).pageAddress * 4096 + offset) := by
  have dirIndex : (page * 4096 + offset) / 4194304 = 0 := by omega
  have tableIndex : (page * 4096 + offset) / 4096 % 1024 = page := by omega
  have pageOffset : (page * 4096 + offset) % 4096 = offset := by omega
  have present : (shapeTable video page).present = true := by
    unfold shapeTable
    split
    · simp [kernelTableEntry, nonNull]
    · split <;> simp [kernelTableEntry, nonNull]
  rw [PageTables.translate, dirIndex, shape.dir 0 (by decide)]
  simp [shapeDir, clearedDirEntry, PageTables.tableAt, tableIndex, pageOffset,
    shape.table page low, present]

/-- Accesses to the video window go through the user video page table, at every
page but the first and with either privilege. -/
theorem translate_window (shape : Shape paging video task) (user : Bool) (page : Nat)
    {offset : Nat} (nonNull : page ≠ 0) (low : page < 1024) (inPage : offset < 4096) :
    paging.translate user (userVideoStart * 4194304 + page * 4096 + offset) =
      some ((shapeUserTable video page).pageAddress * 4096 + offset) := by
  have dirIndex : (userVideoStart * 4194304 + page * 4096 + offset) / 4194304 =
      userVideoStart := by
    unfold userVideoStart
    omega
  have tableIndex :
      (userVideoStart * 4194304 + page * 4096 + offset) / 4096 % 1024 = page := by
    unfold userVideoStart
    omega
  have pageOffset : (userVideoStart * 4194304 + page * 4096 + offset) % 4096 = offset := by
    unfold userVideoStart
    omega
  have present : (shapeUserTable video page).present = true := by
    unfold shapeUserTable
    split <;> simp [userTableEntry, nonNull]
  have allowed : (shapeUserTable video page).userSupervisor = true := by
    unfold shapeUserTable
    split <;> rfl
  have dirEq : paging.pageDir userVideoStart =
      { clearedDirEntry with
        present := true, userSupervisor := true, alignedAddress := paging.userVideoFrame } := by
    rw [shape.dir userVideoStart (by decide)]
    rfl
  rw [PageTables.translate, dirIndex, dirEq]
  simp [clearedDirEntry, PageTables.tableAt, tableIndex, pageOffset,
    shape.userTable page low, present, allowed, Ne.symm paging.frames_ne]

end Shape

end PonyOS.Paging
