import PonyOS.Paging.Confinement
import PonyOS.Terminal.Frame
import Mathlib.Data.List.Induction

/-!
# The kernel address map

The supervisor translation of every address in every state of the page tables.
`kernelMap` states the map on its own, region by region, from the frame behind
the video page and the process last mapped; the closed form of the tables
computes exactly that map.
-/

namespace PonyOS.Paging

open PonyOS.Lib.Word
open PonyOS.Terminal

/-- The address map: identity on the first eight megabytes but for the null
page and the two video pages, then the mapped process, then the user video
window. -/
def kernelMap (video : Nat) (task : Option Nat) (address : Nat) : Option Nat :=
  if address < 0x1000 then none
  else if address < 0x800000 then
    if address / 4096 = 0xBC then some (0xB8 * 4096 + address % 4096)
    else if address / 4096 = 0xB8 then some (video * 4096 + address % 4096)
    else some address
  else if 0x8000000 ≤ address ∧ address < 0x8400000 then
    task.map fun p => 0x800000 + 0x400000 * p + (address - 0x8000000)
  else if 0xA001000 ≤ address ∧ address < 0xA400000 then
    if address / 4096 = 0xA0B8 then some (video * 4096 + address % 4096)
    else some (address - 0xA000000)
  else none

/-- The process mapped by a call, if it maps one. -/
def PagingCall.task : PagingCall → Option Nat
  | .setupTaskPage ind => some ind
  | _ => none

/-- The process mapped last by a sequence of calls. -/
def lastTask (calls : List PagingCall) : Option Nat :=
  calls.foldl (fun mapped call => call.task.or mapped) none

/-- The frame behind the video page: VGA memory while the active terminal is
displayed, its backing page otherwise. -/
def activeVideoFrame (console : Console) : Nat :=
  if console.activeTerminal = console.displayTerminal then 0xB8
  else 0xB9 + console.activeTerminal

/-! ## Translation in the closed form -/

namespace PageTables

variable {paging : PageTables} {user : Bool} {address : Nat}

theorem translate_of_absent (absent : (paging.pageDir (address / 4194304)).present = false) :
    paging.translate user address = none := by
  simp [translate, absent]

/-- A present four-megabyte entry maps its whole range. -/
theorem translate_of_large {dir : PageDirEntry}
    (entry : paging.pageDir (address / 4194304) = dir) (present : dir.present = true)
    (large : dir.size = true) :
    paging.translate false address =
      some (dir.alignedAddress / 1024 * 4194304 + address % 4194304) := by
  simp [translate, entry, present, large]

end PageTables

namespace Shape

variable {paging : PageTables} {video : Nat} {task : Option Nat} {address : Nat}

/-- The first four megabytes, page by page. -/
theorem translate_first (shape : Shape paging video task) (low : address < 0x400000) :
    paging.translate false address = kernelMap video task address := by
  unfold kernelMap
  by_cases null : address < 0x1000
  · have dirIndex : address / 4194304 = 0 := by omega
    have tableIndex : address / 4096 % 1024 = 0 := by omega
    rw [if_pos null, PageTables.translate, dirIndex, shape.dir 0 (by decide)]
    simp [shapeDir, clearedDirEntry, PageTables.tableAt, tableIndex, shape.table 0 (by decide),
      shapeTable, videoInd, staticVideoInd, kernelTableEntry]
  · have split : address / 4096 * 4096 + address % 4096 = address := by omega
    have page := shape.translate_low (address / 4096) (by omega) (by omega)
      (by omega : address % 4096 < 4096)
    rw [split] at page
    rw [page, if_neg null, if_pos (by omega), shapeTable]
    unfold videoInd staticVideoInd
    by_cases static : address / 4096 = 0xBC
    · rw [if_pos static, static]
      rfl
    · by_cases isVideo : address / 4096 = 0xB8
      · rw [if_pos isVideo, if_neg static, if_pos isVideo]
      · rw [if_neg isVideo, if_neg static, if_neg static, if_neg isVideo]
        exact congrArg some split

theorem translate_kernel (shape : Shape paging video task) (above : 0x400000 ≤ address)
    (below : address < 0x800000) :
    paging.translate false address = kernelMap video task address := by
  have dirIndex : address / 4194304 = 1 := by omega
  have entry : paging.pageDir (address / 4194304) =
      { clearedDirEntry with present := true, alignedAddress := 1024, size := true } := by
    rw [dirIndex, shape.dir 1 (by decide)]
    rfl
  rw [PageTables.translate_of_large entry rfl rfl, kernelMap, if_neg (by omega), if_pos below,
    if_neg (by omega), if_neg (by omega)]
  have identity : 1024 / 1024 * 4194304 + address % 4194304 = address := by omega
  exact congrArg some identity

theorem translate_task (shape : Shape paging video task) (small : ∀ p ∈ task, p ≤ 7)
    (above : 0x8000000 ≤ address) (below : address < 0x8400000) :
    paging.translate false address = kernelMap video task address := by
  have dirIndex : address / 4194304 = userSpaceStart := by
    unfold userSpaceStart
    omega
  have entry := shape.dir userSpaceStart (by decide)
  rw [← dirIndex] at entry
  rw [kernelMap, if_neg (by omega), if_neg (by omega), if_pos ⟨above, below⟩]
  cases task with
  | none =>
      apply PageTables.translate_of_absent
      rw [entry, dirIndex]
      rfl
  | some p =>
      have bound : p ≤ 7 := small p rfl
      have mapped : paging.pageDir (address / 4194304) = taskDirEntry p := by
        rw [entry, dirIndex]
        rfl
      have frame : (taskDirEntry p).alignedAddress = p * 1024 + 2 * 1024 :=
        frameBits_of_lt (by omega)
      have physical : (p * 1024 + 2 * 1024) / 1024 * 4194304 + address % 4194304 =
          0x800000 + 0x400000 * p + (address - 0x8000000) := by omega
      rw [PageTables.translate_of_large mapped rfl rfl, frame, physical]
      rfl

theorem translate_videoWindow (shape : Shape paging video task) (above : 0xA000000 ≤ address)
    (below : address < 0xA400000) :
    paging.translate false address = kernelMap video task address := by
  rw [kernelMap, if_neg (by omega), if_neg (by omega), if_neg (by omega)]
  by_cases null : address < 0xA001000
  · have dirIndex : address / 4194304 = userVideoStart := by
      unfold userVideoStart
      omega
    have tableIndex : address / 4096 % 1024 = 0 := by omega
    have entry : paging.pageDir userVideoStart =
        { clearedDirEntry with
          present := true, userSupervisor := true, alignedAddress := paging.userVideoFrame } := by
      rw [shape.dir userVideoStart (by decide)]
      rfl
    rw [if_neg (by omega), PageTables.translate, dirIndex, entry]
    simp [clearedDirEntry, PageTables.tableAt, tableIndex, shape.userTable 0 (by decide),
      shapeUserTable, videoInd, userTableEntry, Ne.symm paging.frames_ne]
  · have physical : address / 4096 % 1024 * 4096 + address % 4096 = address - 0xA000000 := by
      omega
    have split : userVideoStart * 4194304 + address / 4096 % 1024 * 4096 + address % 4096 =
        address := by
      clear physical
      unfold userVideoStart
      omega
    have page := shape.translate_window false (address / 4096 % 1024) (by omega) (by omega)
      (by omega : address % 4096 < 4096)
    rw [split] at page
    rw [page, if_pos (by omega), shapeUserTable]
    by_cases isVideo : address / 4096 = 0xA0B8
    · rw [if_pos isVideo, isVideo]
      rfl
    · have other : address / 4096 % 1024 ≠ videoInd := by
        unfold videoInd
        omega
      rw [if_neg isVideo, if_neg other]
      exact congrArg some physical

/-- Every other range is unused. -/
theorem translate_unused (shape : Shape paging video task) (inRange : address < 4294967296)
    (notKernel : 0x800000 ≤ address) (notTask : address < 0x8000000 ∨ 0x8400000 ≤ address)
    (notWindow : address < 0xA000000 ∨ 0xA400000 ≤ address) :
    paging.translate false address = kernelMap video task address := by
  have unused : shapeDir paging task (address / 4194304) =
      unusedDirEntry (address / 4194304) := by
    unfold shapeDir userVideoStart userSpaceStart
    rw [if_neg (by omega), if_neg (by omega), if_neg (by omega), if_neg (by omega)]
  rw [kernelMap, if_neg (by omega), if_neg (by omega), if_neg (by omega), if_neg (by omega)]
  apply PageTables.translate_of_absent
  rw [shape.dir _ (by omega), unused]
  rfl

/-- The closed form translates every supervisor access by the address map. -/
theorem translate_eq_kernelMap (shape : Shape paging video task) (small : ∀ p ∈ task, p ≤ 7)
    (inRange : address < 4294967296) :
    paging.translate false address = kernelMap video task address := by
  by_cases first : address < 0x400000
  · exact shape.translate_first first
  by_cases kernel : address < 0x800000
  · exact shape.translate_kernel (by omega) kernel
  by_cases inTask : 0x8000000 ≤ address ∧ address < 0x8400000
  · exact shape.translate_task small inTask.1 inTask.2
  by_cases inWindow : 0xA000000 ≤ address ∧ address < 0xA400000
  · exact shape.translate_videoWindow inWindow.1 inWindow.2
  · exact shape.translate_unused inRange (by omega) (by omega) (by omega)

end Shape

/-! ## The map along every sequence of calls -/

/-- The tables are in closed form for the terminals and the process last
mapped. -/
structure Mapped (console : Console) (task : Option Nat) : Prop where
  shape : Shape console.paging (console.logicalPage console.activeTerminal) task
  active_lt : console.activeTerminal < 3

/-- A display switch remaps the video pages of the active terminal. -/
theorem Mapped.displayed {console target : Console} {task : Option Nat} {terminalId : Nat}
    (mapped : Mapped console task)
    (control : target.control =
      { paging := console.paging.setActiveTerminalPaging console.activeTerminal
          (console.activeTerminal = terminalId)
        activeTerminal := console.activeTerminal
        displayTerminal := terminalId }) : Mapped target task := by
  have paging := congrArg Control.paging control
  have active : target.activeTerminal = console.activeTerminal :=
    congrArg Control.activeTerminal control
  have display : target.displayTerminal = terminalId := congrArg Control.displayTerminal control
  have remapped := mapped.shape.setActiveTerminalPaging console.activeTerminal
    (decide (console.activeTerminal = target.displayTerminal))
  rw [target.remapped_frame mapped.active_lt, display, ← active] at remapped
  simp only [Console.control, ← active] at paging
  rw [← paging] at remapped
  exact ⟨remapped, by rw [active]; exact mapped.active_lt⟩

/-- One call keeps the closed form and records the process it maps. -/
theorem Mapped.apply {console : Console} {task : Option Nat} (mapped : Mapped console task)
    (call : PagingCall) : Mapped (call.apply console) (call.task.or task) := by
  cases call with
  | setupTaskPage ind =>
      constructor
      · exact mapped.shape.setupTaskPage ind
      · exact mapped.active_lt
  | setActiveTerminal terminalId =>
      constructor
      · have remapped := mapped.shape.setActiveTerminalPaging terminalId
          (decide (terminalId.val = console.displayTerminal))
        rw [console.remapped_frame terminalId.isLt] at remapped
        exact remapped
      · exact terminalId.isLt
  | setDisiplayTerminal terminalId =>
      exact mapped.displayed (console.setDisiplayTerminal_control terminalId)

/-- Every sequence of calls keeps the closed form. -/
theorem Mapped.run {console : Console} {task : Option Nat} (mapped : Mapped console task)
    (calls : List PagingCall) :
    Mapped (calls.foldl PagingCall.apply console)
      (calls.foldl (fun seen call => call.task.or seen) task) := by
  induction calls generalizing console task with
  | nil => exact mapped
  | cons call rest ih => exact ih (mapped.apply call)

theorem mem_of_lastTask {calls : List PagingCall} {p : Nat} (last : lastTask calls = some p) :
    PagingCall.setupTaskPage p ∈ calls := by
  induction calls using List.reverseRecOn with
  | nil => cases last
  | append_singleton rest call ih =>
      unfold lastTask at last ih
      rw [List.foldl_append, List.foldl_cons, List.foldl_nil] at last
      cases call with
      | setupTaskPage ind =>
          obtain rfl : ind = p := Option.some.inj last
          simp
      | setActiveTerminal terminalId => simp [ih last]
      | setDisiplayTerminal terminalId => simp [ih last]

/-- The kernel address map.  After any calls that map processes `1` to `7`,
every supervisor access of the 32-bit address space is translated by the map
for the process mapped last, and the frames of two processes and the kernel's
first eight megabytes are pairwise disjoint. -/
theorem kernel_addressMap (paging : PageTables) (memory : Memory) (calls : List PagingCall)
    (processes : ∀ p, PagingCall.setupTaskPage p ∈ calls → 1 ≤ p ∧ p ≤ 7) :
    let console := calls.foldl PagingCall.apply (Console.boot paging memory)
    (∀ address, address < 4294967296 →
      console.paging.translate false address =
        kernelMap (activeVideoFrame console) (lastTask calls) address) ∧
      ∀ p q physical, 1 ≤ p ∧ p ≤ 7 → 1 ≤ q ∧ q ≤ 7 → p ≠ q → InTaskFrame p physical →
        ¬ InTaskFrame q physical ∧ ¬ physical < 0x800000 := by
  intro console
  have initial : Mapped (Console.boot paging memory) none :=
    ⟨pagingInit_shape paging, by change 0 < 3; decide⟩
  have mapped : Mapped console (lastTask calls) := initial.run calls
  constructor
  · intro address inRange
    exact mapped.shape.translate_eq_kernelMap
      (fun p last => (processes p (mem_of_lastTask last)).2) inRange
  · intro p q physical _ _ distinct inFrame
    unfold InTaskFrame at inFrame ⊢
    omega

/-- The map once the shell of the second terminal runs in the background. -/
theorem kernel_addressMap_background :
    let calls := [PagingCall.setupTaskPage 2, .setActiveTerminal 1]
    let console := calls.foldl PagingCall.apply (Console.boot zeroTables fun _ => 0)
    console.paging.translate false 0x8000000 = some 0x1000000 ∧
      console.paging.translate false 0xB8000 = some 0xBA000 := by
  intro calls console
  have processes : ∀ p, PagingCall.setupTaskPage p ∈ calls → 1 ≤ p ∧ p ≤ 7 := by
    intro p member
    simp only [calls, List.mem_cons, List.not_mem_nil, PagingCall.setupTaskPage.injEq,
      reduceCtorEq, or_false] at member
    subst member
    decide
  have translated := (kernel_addressMap zeroTables (fun _ => 0) calls processes).1
  have frame : activeVideoFrame console = 0xBA := rfl
  constructor
  · rw [translated 0x8000000 (by decide)]
    rfl
  · rw [translated 0xB8000 (by decide), frame]
    rfl

end PonyOS.Paging
