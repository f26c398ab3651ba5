import PonyOS.Lib.Cache
import PonyOS.Lib.Transition
import PonyOS.Paging.Entries

/-!
# The processor on the tables

The processor translates an access by walking the tables in memory.  It keeps what
it has found, may look for any translation and drop any at any time, and sets bits
of the entries that it goes through.  The updates assign the fields of the entries
one by one, so it may even walk through entries that are half written; each update
ends with a write of `cr3`, which drops all that was kept.

In every run an access is translated as the tables say that the updates called
before it should have left, and user accesses, however they store, never reach the
kernel page with the tables.
-/

namespace PonyOS.Paging

open PonyOS.Lib.Bitfield
open PonyOS.Lib.Cache
open PonyOS.Lib.Transition

/-! ## The walk -/

/-- What the processor keeps of a translation. -/
structure Translation where
  frame : Nat
  user : Bool
  write : Bool
  deriving DecidableEq

/-- The words of memory, the frame in `cr3`, the translations that are kept, and what
the kernel has still to assign before its next write of `cr3`. -/
structure Processor where
  words : Words
  cr3 : Nat
  tlb : Kept Nat Translation
  pending : Option (List FieldWrite)

namespace Processor

/-- The word of the directory for a page. -/
def dirIndex (processor : Processor) (page : Nat) : Nat :=
  processor.cr3 * 1024 + page / 1024

/-- The word of the page table for a page. -/
def tableIndex (processor : Processor) (page : Nat) : Nat :=
  (processor.words (processor.dirIndex page)).toNat / 4096 * 1024 + page % 1024

/-- The two levels of the walk: present, writable, user and large are bits 0, 1, 2
and 7. -/
def walk (processor : Processor) (page : Nat) : Option Translation :=
  let dir := processor.words (processor.dirIndex page)
  if dir.getLsbD 0 = false then none
  else if dir.getLsbD 7 then
    some
      { frame := dir.toNat / 4194304 * 1024 + page % 1024
        user := dir.getLsbD 2
        write := dir.getLsbD 1 }
  else
    let entry := processor.words (processor.tableIndex page)
    if entry.getLsbD 0 = false then none
    else
      some
        { frame := entry.toNat / 4096
          user := dir.getLsbD 2 && entry.getLsbD 2
          write := dir.getLsbD 1 && entry.getLsbD 1 }

/-- The bits of an entry that was used: accessed and, in front of a page that is
written, dirty. -/
def mark (index : Nat) (dirty : Bool) (words : Words) : Words :=
  let used := DirField.accessed.set 1 (words index)
  Function.update words index (if dirty then TableField.dirty.set 1 used else used)

/-- The walk marks the entries and its result is kept. -/
def fill (processor : Processor) (page : Nat) (dirty : Bool) (found : Translation) : Processor :=
  let large := (processor.words (processor.dirIndex page)).getLsbD 7
  { processor with
    words :=
      if large then mark (processor.dirIndex page) dirty processor.words
      else mark (processor.tableIndex page) dirty
        (mark (processor.dirIndex page) false processor.words)
    tlb := Function.update processor.tlb page (some found) }

/-- A write of `cr3`. -/
def loadCr3 (processor : Processor) (frame : Nat) : Processor :=
  { processor with cr3 := frame, tlb := flushed }

/-- A store somewhere in a word. -/
def store (processor : Processor) (physical : Nat) (value : BitVec 32) : Processor :=
  { processor with words := Function.update processor.words (physical / 4) value }

end Processor

/-- The physical address of an access, or a page fault.  The kernel does not set the
bit of `cr0` that would keep it from writing. -/
def permitted (user write : Bool) (address : Nat) : Option Translation → Option Nat
  | none => none
  | some found =>
      if user = true ∧ (found.user = false ∨ (write = true ∧ found.write = false)) then none
      else some (found.frame * 4096 + address % 4096)

/-! ## Events -/

/-- What the kernel does with the tables, what the processor does on its own, and
what the programs do. -/
inductive PagingEvent
  | setupTaskPage (ind : Nat)
  | setActiveTerminalPaging (terminalId : Fin 3) (display : Bool)
  /-- The next assignment of the update, or the write of `cr3` behind the last. -/
  | advance
  /-- A translation is looked for. -/
  | fill (page : Nat) (dirty : Bool)
  /-- A translation is dropped. -/
  | evict (page : Nat)
  /-- An access; a store leaves some value in the word. -/
  | access (user : Bool) (address : Nat) (stored : Option (BitVec 32))
  deriving DecidableEq

namespace Processor

/-- An update is called; the callers do not interrupt one with another. -/
def call (processor : Processor) (writes : List FieldWrite) : Option Processor :=
  if processor.pending = none then some { processor with pending := some writes } else none

theorem call_eq_some {processor target : Processor} {writes : List FieldWrite}
    (called : processor.call writes = some target) :
    processor.pending = none ∧ { processor with pending := some writes } = target := by
  unfold call at called
  split at called
  · rename_i idle
    exact ⟨idle, Option.some.inj called⟩
  · cases called

/-- While the tables are updated only the kernel runs, in its own page. -/
def Runs (processor : Processor) (user : Bool) (address : Nat) : Prop :=
  processor.pending = none ∨ (user = false ∧ address / 4194304 = 1)

instance (processor : Processor) (user : Bool) (address : Nat) :
    Decidable (processor.Runs user address) :=
  inferInstanceAs (Decidable (_ ∨ _))

/-- An access.  The kernel stores to the tables in the updates only. -/
def access (frames : TableFrames) (processor : Processor) (user : Bool) (address : Nat)
    (stored : Option (BitVec 32)) : Option (Option Nat × Processor) :=
  let found := through processor.tlb processor.walk (address / 4096)
  match permitted user stored.isSome address found, stored with
  | some physical, some value =>
      if user = false ∧ frames.Holds (physical / 4096) then none
      else some (some physical, processor.store physical value)
  | answer, _ => some (answer, processor)

end Processor

/-- One event; an access is answered by its physical address or by a page fault. -/
def processorStep (frames : TableFrames) : Step Processor PagingEvent (Option (Option Nat))
  | processor, .setupTaskPage ind =>
      if ind < 1022 then
        (processor.call (frames.setupTaskPage ind)).map fun target => (none, target)
      else none
  | processor, .setActiveTerminalPaging terminalId display =>
      (processor.call (frames.setActiveTerminalPaging terminalId display)).map fun target =>
        (none, target)
  | processor, .advance =>
      match processor.pending with
      | none => none
      | some [] => some (none, { processor.loadCr3 frames.pageDir with pending := none })
      | some (write :: rest) =>
          some (none,
            { processor with words := write.apply processor.words, pending := some rest })
  | processor, .fill page dirty =>
      if page < 1048576 then
        (processor.walk page).map fun found => (none, processor.fill page dirty found)
      else none
  | processor, .evict page =>
      some (none, { processor with tlb := Function.update processor.tlb page none })
  | processor, .access user address stored =>
      if address < 4294967296 ∧ processor.Runs user address then
        (processor.access frames user address stored).map fun outcome =>
          (some outcome.1, outcome.2)
      else none

/-- Paging has just been turned on. -/
def TableFrames.boot (frames : TableFrames) (words : Words) : Processor :=
  { words := frames.pagingInit words
    cr3 := frames.pageDir
    tlb := flushed
    pending := none }

/-- The tables that the calls should have left. -/
def observeTables (paging : PageTables) : PagingEvent → Option (Option Nat) → PageTables
  | .setupTaskPage ind, _ => paging.setupTaskPage ind
  | .setActiveTerminalPaging terminalId display, _ =>
      paging.setActiveTerminalPaging terminalId display
  | _, _ => paging

/-- An access is translated by those tables, and no user access reaches the kernel
page. -/
def AccessSpec (paging : PageTables) : PagingEvent → Option (Option Nat) → Prop
  | .access user address _, reply =>
      reply = some (paging.translate user address) ∧
        (user = true → ∀ physical ∈ paging.translate user address, physical / 4194304 ≠ 1)
  | _, _ => True

theorem permitted_user {write : Bool} {address physical : Nat} {looked : Option Translation}
    (answered : physical ∈ permitted true write address looked) :
    ∃ found ∈ looked, found.user = true ∧ physical / 4096 = found.frame := by
  cases looked with
  | none => cases answered
  | some found =>
      by_cases denied : found.user = false
      · simp [permitted, denied] at answered
      · have canUse : found.user = true := by simpa using denied
        simp only [permitted, canUse] at answered
        split at answered
        · cases answered
        · cases answered
          exact ⟨found, rfl, canUse, by omega⟩

/-! ## Looking up the tables -/

namespace PageTables

/-- The walk on the tables. -/
def lookup (paging : PageTables) (page : Nat) : Option Translation :=
  let dir := paging.pageDir (page / 1024)
  if dir.present = false then none
  else if dir.size then
    some
      { frame := dir.alignedAddress / 1024 * 1024 + page % 1024
        user := dir.userSupervisor
        write := dir.readWrite }
  else
    match paging.tableAt dir.alignedAddress with
    | none => none
    | some table =>
        let entry := table (page % 1024)
        if entry.present = false then none
        else
          some
            { frame := entry.pageAddress
              user := dir.userSupervisor && entry.userSupervisor
              write := dir.readWrite && entry.readWrite }

/-- Where all that is mapped is writable, the translation of an access is a permitted
lookup. -/
theorem permitted_lookup {paging : PageTables} {address : Nat} (user write : Bool)
    (writable : ∀ found ∈ paging.lookup (address / 4096), found.write = true) :
    permitted user write address (paging.lookup (address / 4096)) =
      paging.translate user address := by
  have dirIndex : address / 4096 / 1024 = address / 4194304 := by omega
  unfold lookup at writable
  unfold lookup translate
  simp only [dirIndex] at writable ⊢
  generalize paging.pageDir (address / 4194304) = dir at writable ⊢
  by_cases absent : dir.present = false
  · simp [absent, permitted]
  · by_cases large : dir.size = true
    · have physical : (dir.alignedAddress / 1024 * 1024 + address / 4096 % 1024) * 4096 +
          address % 4096 = dir.alignedAddress / 1024 * 4194304 + address % 4194304 := by omega
      have canWrite : dir.readWrite = true := by simpa [absent, large] using writable
      simp [absent, large, permitted, canWrite, physical]
    · cases at_ : paging.tableAt dir.alignedAddress with
      | none => simp [absent, large, permitted]
      | some table =>
          simp only [absent, large, at_] at writable ⊢
          generalize table (address / 4096 % 1024) = entry at writable ⊢
          by_cases missing : entry.present = false
          · simp [missing, permitted]
          · have canWrite : dir.readWrite = true ∧ entry.readWrite = true := by
              simpa [missing] using writable
            simp [missing, permitted, canWrite.1, canWrite.2]
            cases user <;> cases dir.userSupervisor <;> simp

end PageTables

/-- What the closed form of the tables maps. -/
def shapeLookup (video : Nat) (task : Option Nat) (page : Nat) : Option Translation :=
  if page / 1024 = 0 then
    if page = 0 then none
    else some { frame := (shapeTable video page).pageAddress, user := false, write := true }
  else if page / 1024 = 1 then some { frame := page, user := false, write := true }
  else if page / 1024 = userVideoStart then
    if page % 1024 = 0 then none
    else
      some
        { frame := (shapeUserTable video (page % 1024)).pageAddress, user := true, write := true }
  else if page / 1024 = userSpaceStart then
    task.map fun ind =>
      { frame := frameBits (ind * 1024 + 2 * 1024) / 1024 * 1024 + page % 1024
        user := true
        write := true }
  else none

theorem shapeTable_flags (video i : Nat) :
    (shapeTable video i).present = decide (i ≠ 0) ∧ (shapeTable video i).userSupervisor = false ∧
      (shapeTable video i).readWrite = true := by
  unfold shapeTable
  split
  · exact ⟨rfl, rfl, rfl⟩
  · split
    · exact ⟨rfl, rfl, rfl⟩
    · exact ⟨rfl, rfl, rfl⟩

theorem shapeUserTable_flags (video i : Nat) :
    (shapeUserTable video i).present = decide (i ≠ 0) ∧
      (shapeUserTable video i).userSupervisor = true ∧
      (shapeUserTable video i).readWrite = true := by
  unfold shapeUserTable
  split
  · exact ⟨rfl, rfl, rfl⟩
  · exact ⟨rfl, rfl, rfl⟩

namespace Shape

variable {paging : PageTables} {video : Nat} {task : Option Nat}

theorem lookup_eq (shape : Shape paging video task) {page : Nat} (inRange : page < 1048576) :
    paging.lookup page = shapeLookup video task page := by
  unfold PageTables.lookup shapeLookup
  rw [shape.dir (page / 1024) (by omega)]
  unfold shapeDir
  by_cases low : page / 1024 = 0
  · have isPage : page % 1024 = page := by omega
    rcases shapeTable_flags video page with ⟨present, user, write⟩
    simp only [if_pos low, PageTables.tableAt, if_true, isPage,
      shape.table page (by omega), present, user, write]
    by_cases null : page = 0
    · simp [null, clearedDirEntry]
    · simp [null, clearedDirEntry]
  by_cases kernel : page / 1024 = 1
  · have isPage : 1024 / 1024 * 1024 + page % 1024 = page := by omega
    simp [kernel, clearedDirEntry, isPage]
  by_cases window : page / 1024 = userVideoStart
  · rcases shapeUserTable_flags video (page % 1024) with ⟨present, user, write⟩
    simp only [if_neg low, if_neg kernel, if_pos window, PageTables.tableAt,
      if_neg (Ne.symm paging.frames_ne), if_true,
      shape.userTable (page % 1024) (Nat.mod_lt page (by decide)), present, user, write]
    by_cases null : page % 1024 = 0
    · simp [null, clearedDirEntry]
    · simp [null, clearedDirEntry]
  by_cases mapped : page / 1024 = userSpaceStart
  · simp only [if_neg low, if_neg kernel, if_neg window, if_pos mapped]
    cases task with
    | none => rfl
    | some ind => rfl
  · simp [low, kernel, window, mapped, unusedDirEntry, clearedDirEntry]

theorem lookup_writable (shape : Shape paging video task) {page : Nat} (inRange : page < 1048576)
    {found : Translation} (mapped : found ∈ paging.lookup page) : found.write = true := by
  rw [shape.lookup_eq inRange] at mapped
  unfold shapeLookup at mapped
  split at mapped
  · split at mapped
    · cases mapped
    · cases mapped
      rfl
  · split at mapped
    · cases mapped
      rfl
    · split at mapped
      · split at mapped
        · cases mapped
        · cases mapped
          rfl
      · split at mapped
        · cases task with
          | none => cases mapped
          | some ind =>
              cases mapped
              rfl
        · cases mapped

/-- No user page is in the kernel page. -/
theorem lookup_user (shape : Shape paging video task) (videoOutside : video / 1024 ≠ 1)
    (taskOutside : ∀ ind ∈ task, ind < 1022) {page : Nat} (inRange : page < 1048576)
    {found : Translation} (mapped : found ∈ paging.lookup page) (user : found.user = true) :
    found.frame / 1024 ≠ 1 := by
  rw [shape.lookup_eq inRange] at mapped
  unfold shapeLookup at mapped
  split at mapped
  · split at mapped
    · cases mapped
    · cases mapped
      cases user
  · split at mapped
    · cases mapped
      cases user
    · split at mapped
      · split at mapped
        · cases mapped
        · cases mapped
          unfold shapeUserTable
          split
          · exact videoOutside
          · simp only [userTableEntry]
            omega
      · split at mapped
        · cases task with
          | none => cases mapped
          | some ind =>
              have small := taskOutside ind rfl
              have fits : frameBits (ind * 1024 + 2 * 1024) = ind * 1024 + 2 * 1024 :=
                frameBits_of_lt (by omega)
              cases mapped
              simp only [fits]
              omega
        · cases mapped

/-- The kernel page is mapped to itself. -/
theorem lookup_kernel (shape : Shape paging video task) {page : Nat} (kernel : page / 1024 = 1) :
    paging.lookup page = some { frame := page, user := false, write := true } := by
  rw [shape.lookup_eq (by omega), shapeLookup, if_neg (by omega), if_pos kernel]

/-- A directory entry that is not large has one of the two page tables behind it. -/
theorem linked (shape : Shape paging video task) {i : Nat} (inFrame : i < 1024)
    (present : (paging.pageDir i).present = true) (small : (paging.pageDir i).size = false) :
    (paging.pageDir i).alignedAddress = paging.pageTableFrame ∨
      (paging.pageDir i).alignedAddress = paging.userVideoFrame := by
  rw [shape.dir i inFrame] at present small ⊢
  by_cases first : i = 0
  · subst first
    exact Or.inl rfl
  by_cases window : i = userVideoStart
  · subst window
    exact Or.inr rfl
  have large : (shapeDir paging task i).size = true := by
    unfold shapeDir
    rw [if_neg first, if_neg window]
    cases task with
    | none => split <;> simp [unusedDirEntry]
    | some ind => split <;> simp [unusedDirEntry, taskDirEntry, apply_ite]
  rw [small] at large
  cases large

end Shape

/-! ## The walk on words that hold the tables -/

/-- The bits of a directory entry that the walk reads. -/
theorem dirWord_bits {word : BitVec 32} {entry : PageDirEntry} (held : Holds word entry.contents) :
    word.getLsbD 0 = entry.present ∧ word.getLsbD 1 = entry.readWrite ∧
      word.getLsbD 2 = entry.userSupervisor ∧ word.getLsbD 7 = entry.size ∧
      word.toNat / 4096 = entry.alignedAddress := by
  simp only [Holds, PageDirEntry.contents, List.forall_mem_cons] at held
  rcases held with ⟨present, readWrite, user, -, -, size, -, -, address, -⟩
  exact ⟨Field.bit_of_get present,
    Field.bit_of_get readWrite,
    Field.bit_of_get user,
    Field.bit_of_get size,
    (Field.get_top (rfl : DirField.alignedAddress.low + 20 = 32) word).symm.trans address⟩

/-- The bits of a page-table entry that the walk reads. -/
theorem tableWord_bits {word : BitVec 32} {entry : PageTableEntry}
    (held : Holds word entry.contents) :
    word.getLsbD 0 = entry.present ∧ word.getLsbD 1 = entry.readWrite ∧
      word.getLsbD 2 = entry.userSupervisor ∧ word.toNat / 4096 = entry.pageAddress := by
  simp only [Holds, PageTableEntry.contents, List.forall_mem_cons] at held
  rcases held with ⟨present, readWrite, user, -, -, -, -, -, address, -⟩
  exact ⟨Field.bit_of_get present,
    Field.bit_of_get readWrite,
    Field.bit_of_get user,
    (Field.get_top (rfl : TableField.pageAddress.low + 20 = 32) word).symm.trans address⟩

/-- The entry of the kernel page. -/
def kernelDirEntry : PageDirEntry :=
  { clearedDirEntry with present := true, alignedAddress := 1024, size := true }

section Walk

variable {frames : TableFrames} {processor : Processor} {paging : PageTables} {page : Nat}

/-- The walk of words that hold the tables is the walk on the tables. -/
theorem Represents.walk_eq {video : Nat} {task : Option Nat}
    (held : Represents frames processor.words paging) (cr3 : processor.cr3 = frames.pageDir)
    (shape : Shape paging video task) (inRange : page < 1048576) :
    processor.walk page = paging.lookup page := by
  have inFrame : page / 1024 < 1024 := by omega
  rcases dirWord_bits (held.dir (page / 1024) inFrame) with ⟨present, write, user, size, address⟩
  have linked := shape.linked inFrame
  unfold Processor.walk Processor.tableIndex Processor.dirIndex PageTables.lookup
  rw [cr3]
  have large : (processor.words (frames.pageDir * 1024 + page / 1024)).toNat / 4194304 =
      (paging.pageDir (page / 1024)).alignedAddress / 1024 := by
    rw [← address, Nat.div_div_eq_div_mul]
  simp only [present, write, user, size, large, address]
  by_cases absent : (paging.pageDir (page / 1024)).present = false
  · rw [if_pos absent, if_pos absent]
  · rw [if_neg absent, if_neg absent]
    by_cases isLarge : (paging.pageDir (page / 1024)).size = true
    · rw [if_pos isLarge, if_pos isLarge]
    · rw [if_neg isLarge, if_neg isLarge]
      have inside : page % 1024 < 1024 := Nat.mod_lt page (by decide)
      rcases linked (by simpa using absent) (by simpa using isLarge) with isFirst | isUser
      · have entry := tableWord_bits (held.table (page % 1024) inside)
        rw [← held.tableFrame, ← isFirst] at entry
        rw [PageTables.tableAt, if_pos isFirst]
        simp only [entry.1, entry.2.1, entry.2.2.1, entry.2.2.2]
      · have entry := tableWord_bits (held.userTable (page % 1024) inside)
        rw [← held.userVideoFrame, ← isUser] at entry
        have notFirst : (paging.pageDir (page / 1024)).alignedAddress ≠ paging.pageTableFrame := by
          rw [isUser]
          exact Ne.symm paging.frames_ne
        rw [PageTables.tableAt, if_neg notFirst, if_pos isUser]
        simp only [entry.1, entry.2.1, entry.2.2.1, entry.2.2.2]

theorem walk_kernel (held : Holds (processor.words (processor.cr3 * 1024 + 1))
    kernelDirEntry.contents) (kernel : page / 1024 = 1) :
    processor.walk page = some { frame := page, user := false, write := true } := by
  rcases dirWord_bits held with ⟨present, write, user, size, address⟩
  unfold Processor.walk Processor.dirIndex
  rw [kernel]
  generalize processor.words (processor.cr3 * 1024 + 1) = word at *
  have large : word.toNat / 4194304 * 1024 + page % 1024 = page := by
    have aligned : word.toNat / 4096 = 1024 := address
    omega
  simp only [present, write, user, size, large]
  rfl

end Walk

/-! ## What a step preserves -/

/-- Assignments that leave the entry of the kernel page alone. -/
def Spares (frames : TableFrames) (writes : List FieldWrite) : Prop :=
  ∀ write ∈ writes, write.index ≠ frames.pageDir * 1024 + 1 ∧
    write.field.low + write.field.width ≤ 32

/-- The words will hold the tables when the pending update has ended; until then all
but the kernel page is out of use. -/
structure Tracks (frames : TableFrames) (processor : Processor) (paging : PageTables) :
    Prop where
  shape : ∃ video task, Shape paging video task ∧ video / 1024 ≠ 1 ∧ ∀ ind ∈ task, ind < 1022
  represents : Represents frames
    ((processor.pending.getD []).foldl FieldWrite.apply processor.words) paging
  spares : Spares frames (processor.pending.getD [])
  kernel : Holds (processor.words (frames.pageDir * 1024 + 1)) kernelDirEntry.contents
  cr3 : processor.cr3 = frames.pageDir
  coherent : Coherent
    (fun page => page < 1048576 ∧ (processor.pending = none ∨ page / 1024 = 1)) processor.tlb
    paging.lookup

/-- Assignments keep words alike. -/
theorem sameTables_foldl {frames : TableFrames} {writes : List FieldWrite}
    (spares : Spares frames writes) {words others : Words} (same : SameTables frames words others) :
    SameTables frames (writes.foldl FieldWrite.apply words)
      (writes.foldl FieldWrite.apply others) := by
  induction writes generalizing words others with
  | nil => exact same
  | cons write rest ih =>
      apply ih fun later member => spares later (List.mem_cons_of_mem write member)
      intro index inTable
      unfold FieldWrite.apply
      by_cases here : index = write.index
      · subst here
        rw [Function.update_self, Function.update_self]
        exact (same _ inTable).set (spares write List.mem_cons_self).2 write.value
      · rw [Function.update_of_ne here, Function.update_of_ne here]
        exact same index inTable

theorem sameOutside_mark (index : Nat) (dirty : Bool) (words : Words) (other : Nat) :
    SameOutside usedBits (Processor.mark index dirty words other) (words other) := by
  unfold Processor.mark
  by_cases here : other = index
  · subst here
    rw [Function.update_self]
    have accessed : SameOutside usedBits (DirField.accessed.set 1 (words other)) (words other) :=
      SameOutside.of_set (by decide) (by decide) (by decide) 1 _
    cases dirty with
    | true => exact (SameOutside.of_set (by decide) (by decide) (by decide) 1 _).trans accessed
    | false => exact accessed
  · rw [Function.update_of_ne here]
    exact SameOutside.refl _

theorem spares_entryWrites {frames : TableFrames} {index : Nat} {fields : List Field}
    {assignments : List (Field × Nat)} (notKernel : index ≠ frames.pageDir * 1024 + 1)
    (layout : Layout 32 fields) (assigns : Assigns fields assignments) :
    Spares frames (entryWrites index assignments) := by
  intro write member
  rcases List.mem_map.mp member with ⟨assignment, inside, rfl⟩
  exact ⟨notKernel, layout.1 _ (assigns assignment inside)⟩

theorem spares_setupTaskPage (frames : TableFrames) (ind : Nat) :
    Spares frames (frames.setupTaskPage ind) := by
  apply spares_entryWrites _ DirField.layout
  · simp [Assigns, pageDirectoryInit, DirField.all]
  · simp [userSpaceStart]

theorem spares_setActiveTerminalPaging (frames : TableFrames) (terminalId : Nat)
    (display : Bool) : Spares frames (frames.setActiveTerminalPaging terminalId display) := by
  have fits : TableField.pageAddress.low + TableField.pageAddress.width ≤ 32 := by decide
  have video : videoInd = 184 := rfl
  cases display with
  | true =>
      simp only [Spares, TableFrames.setActiveTerminalPaging, if_true, List.forall_mem_cons]
      exact ⟨⟨by omega, fits⟩, ⟨by omega, fits⟩, List.forall_mem_nil _⟩
  | false =>
      simp only [Spares, TableFrames.setActiveTerminalPaging, Bool.false_eq_true, if_false,
        List.forall_mem_cons]
      exact ⟨⟨by omega, fits⟩, ⟨by omega, fits⟩, List.forall_mem_nil _⟩

namespace Tracks

variable {frames : TableFrames} {processor : Processor} {paging : PageTables}

/-- Between updates the words hold the tables. -/
theorem represents_idle (tracks : Tracks frames processor paging)
    (idle : processor.pending = none) : Represents frames processor.words paging := by
  have held := tracks.represents
  rw [idle] at held
  exact held

/-- The pages in use are translated as the tables say. -/
theorem walk_eq (tracks : Tracks frames processor paging) {page : Nat}
    (inRange : page < 1048576) (inUse : processor.pending = none ∨ page / 1024 = 1) :
    processor.walk page = paging.lookup page := by
  rcases tracks.shape with ⟨video, task, shape, -, -⟩
  rcases inUse with idle | kernel
  · exact (tracks.represents_idle idle).walk_eq tracks.cr3 shape inRange
  · have held := tracks.kernel
    rw [← tracks.cr3] at held
    rw [walk_kernel held kernel, shape.lookup_kernel kernel]

theorem called (tracks : Tracks frames processor paging) (idle : processor.pending = none)
    {writes : List FieldWrite} {updated : PageTables} (spares : Spares frames writes)
    (represents : Represents frames (writes.foldl FieldWrite.apply processor.words) updated)
    (shape : ∃ video task, Shape updated video task ∧ video / 1024 ≠ 1 ∧
      ∀ ind ∈ task, ind < 1022) :
    Tracks frames { processor with pending := some writes } updated where
  shape := shape
  represents := represents
  spares := spares
  kernel := tracks.kernel
  cr3 := tracks.cr3
  coherent := by
    rcases tracks.shape with ⟨video, task, before, -, -⟩
    rcases shape with ⟨newVideo, newTask, after, -, -⟩
    have kept := tracks.coherent.mono fun page (inUse : page < 1048576 ∧
      (some writes = none ∨ page / 1024 = 1)) => ⟨inUse.1, Or.inl idle⟩
    · apply kept.congr
      intro page inUse
      rcases inUse.2 with ended | kernel
      · cases ended
      · rw [after.lookup_kernel kernel, before.lookup_kernel kernel]

theorem assigned (tracks : Tracks frames processor paging) {write : FieldWrite}
    {rest : List FieldWrite} (pending : processor.pending = some (write :: rest)) :
    Tracks frames { processor with words := write.apply processor.words, pending := some rest }
      paging where
  shape := tracks.shape
  represents := by
    have held := tracks.represents
    rw [pending] at held
    exact held
  spares := by
    have spares := tracks.spares
    rw [pending] at spares
    exact fun later member => spares later (List.mem_cons_of_mem write member)
  kernel := by
    have spares := tracks.spares
    rw [pending] at spares
    dsimp only [FieldWrite.apply]
    rw [Function.update_of_ne (Ne.symm (spares write List.mem_cons_self).1)]
    exact tracks.kernel
  cr3 := tracks.cr3
  coherent := by
    apply tracks.coherent.mono
    intro page inUse
    rcases inUse.2 with ended | kernel
    · cases ended
    · exact ⟨inUse.1, Or.inr kernel⟩

theorem loaded (tracks : Tracks frames processor paging) (pending : processor.pending = some []) :
    Tracks frames { processor.loadCr3 frames.pageDir with pending := none } paging where
  shape := tracks.shape
  represents := by
    have held := tracks.represents
    rw [pending] at held
    exact held
  spares := fun write member => absurd member List.not_mem_nil
  kernel := tracks.kernel
  cr3 := rfl
  coherent := coherent_flushed

/-- The words change where no table is, or in the bits that the processor sets. -/
theorem words (tracks : Tracks frames processor paging) {words : Words}
    (same : SameTables frames words processor.words) :
    Tracks frames { processor with words := words } paging where
  shape := tracks.shape
  represents := tracks.represents.congr (sameTables_foldl tracks.spares same)
  spares := tracks.spares
  kernel := by
    have inTable : frames.Holds ((frames.pageDir * 1024 + 1) / 1024) := by
      rw [index_div (by decide)]
      exact Or.inl rfl
    exact (same _ inTable).holds (PageDirEntry.contents_apart _) tracks.kernel
  cr3 := tracks.cr3
  coherent := tracks.coherent

theorem tlb (tracks : Tracks frames processor paging) {tlb : Kept Nat Translation}
    (coherent : Coherent
      (fun page => page < 1048576 ∧ (processor.pending = none ∨ page / 1024 = 1)) tlb
      paging.lookup) : Tracks frames { processor with tlb := tlb } paging where
  shape := tracks.shape
  represents := tracks.represents
  spares := tracks.spares
  kernel := tracks.kernel
  cr3 := tracks.cr3
  coherent := coherent

/-- The processor looks for a translation, perhaps through entries that are half
written. -/
theorem fill (tracks : Tracks frames processor paging) {page : Nat} {found : Translation}
    (dirty : Bool) (walked : processor.walk page = some found) :
    Tracks frames (processor.fill page dirty found) paging := by
  have filled : Tracks frames
      { processor with tlb := Function.update processor.tlb page (some found) } paging := by
    apply tracks.tlb
    apply tracks.coherent.fill
    intro inUse
    rw [← tracks.walk_eq inUse.1 inUse.2]
    exact walked
  apply filled.words
  intro index inTable
  dsimp only
  split
  · exact sameOutside_mark _ _ _ index
  · exact (sameOutside_mark _ _ _ index).trans (sameOutside_mark _ _ _ index)

theorem store (tracks : Tracks frames processor paging) {physical : Nat}
    (away : ¬ frames.Holds (physical / 4096)) (value : BitVec 32) :
    Tracks frames (processor.store physical value) paging := by
  apply tracks.words
  intro index inTable
  have other : index ≠ physical / 4 := by
    intro same
    apply away
    rw [same, Nat.div_div_eq_div_mul] at inTable
    exact inTable
  rw [Function.update_of_ne other]
  exact SameOutside.refl _

/-- An access in use finds what the tables say. -/
theorem through_eq (tracks : Tracks frames processor paging) {page : Nat}
    (inRange : page < 1048576) (inUse : processor.pending = none ∨ page / 1024 = 1) :
    through processor.tlb processor.walk page = paging.lookup page := by
  rw [← tracks.coherent.through ⟨inRange, inUse⟩]
  unfold through
  rw [tracks.walk_eq inRange inUse]

theorem access (tracks : Tracks frames processor paging) {user : Bool} {address : Nat}
    (inRange : address < 4294967296) (runs : processor.Runs user address)
    {stored : Option (BitVec 32)} {answer : Option Nat} {target : Processor}
    (accessed : processor.access frames user address stored = some (answer, target)) :
    answer = paging.translate user address ∧
      (user = true → ∀ physical ∈ paging.translate user address, physical / 4194304 ≠ 1) ∧
      Tracks frames target paging := by
  rcases tracks.shape with ⟨video, task, shape, videoOutside, taskOutside⟩
  have pageRange : address / 4096 < 1048576 := by omega
  have inUse : processor.pending = none ∨ address / 4096 / 1024 = 1 := by
    rcases runs with idle | kernel
    · exact Or.inl idle
    · exact Or.inr (by omega)
  have translated := PageTables.permitted_lookup user stored.isSome
    fun found mapped => shape.lookup_writable pageRange mapped
  have outside : user = true → ∀ physical ∈ paging.translate user address,
      physical / 4194304 ≠ 1 := by
    intro isUser physical answered
    rw [← translated, isUser] at answered
    rcases permitted_user answered with ⟨found, mapped, canUse, frame⟩
    have frameOutside := shape.lookup_user videoOutside taskOutside pageRange mapped canUse
    omega
  unfold Processor.access at accessed
  rw [tracks.through_eq pageRange inUse] at accessed
  dsimp only at accessed
  rw [translated] at accessed
  split at accessed
  · rename_i physical value answered
    split at accessed
    · cases accessed
    · rename_i allowed
      cases accessed
      refine ⟨answered.symm, outside, tracks.store ?_ value⟩
      intro inTable
      cases user with
      | true =>
          have kernel := inTable.kernel
          have notKernel := outside rfl physical answered
          omega
      | false => exact allowed ⟨rfl, inTable⟩
  · cases accessed
    exact ⟨rfl, outside, tracks⟩

end Tracks

/-! ## Runs -/

theorem videoFrame_outside (terminalId : Fin 3) (display : Bool) :
    (if display then videoInd else frameBits (videoInd + terminalId + 1)) / 1024 ≠ 1 := by
  revert terminalId display
  decide

theorem Tracks.step {frames : TableFrames} {processor target : Processor} {paging : PageTables}
    {event : PagingEvent} {reply : Option (Option Nat)} (tracks : Tracks frames processor paging)
    (step : processorStep frames processor event = some (reply, target)) :
    AccessSpec paging event reply ∧ Tracks frames target (observeTables paging event reply) := by
  cases event with
  | setupTaskPage ind =>
      simp only [processorStep] at step
      split at step
      · rename_i small
        rcases Option.map_eq_some_iff.mp step with ⟨next, called, same⟩
        rcases Processor.call_eq_some called with ⟨idle, rfl⟩
        cases same
        rcases tracks.shape with ⟨video, task, shape, videoOutside, -⟩
        refine ⟨trivial, tracks.called idle (spares_setupTaskPage frames ind)
          ((tracks.represents_idle idle).setupTaskPage ind)
          ⟨video, some ind, shape.setupTaskPage ind, videoOutside, ?_⟩⟩
        intro mapped same
        cases same
        exact small
      · cases step
  | setActiveTerminalPaging terminalId display =>
      simp only [processorStep] at step
      rcases Option.map_eq_some_iff.mp step with ⟨next, called, same⟩
      rcases Processor.call_eq_some called with ⟨idle, rfl⟩
      cases same
      rcases tracks.shape with ⟨video, task, shape, -, taskOutside⟩
      exact ⟨trivial, tracks.called idle (spares_setActiveTerminalPaging frames _ display)
        ((tracks.represents_idle idle).setActiveTerminalPaging _ display)
        ⟨_, task, shape.setActiveTerminalPaging terminalId display,
          videoFrame_outside terminalId display, taskOutside⟩⟩
  | advance =>
      simp only [processorStep] at step
      split at step
      · cases step
      · rename_i pending
        cases step
        exact ⟨trivial, tracks.loaded pending⟩
      · rename_i write rest pending
        cases step
        exact ⟨trivial, tracks.assigned pending⟩
  | fill page dirty =>
      simp only [processorStep] at step
      split at step
      · rcases Option.map_eq_some_iff.mp step with ⟨found, walked, same⟩
        cases same
        exact ⟨trivial, tracks.fill dirty walked⟩
      · cases step
  | evict page =>
      cases step
      exact ⟨trivial, tracks.tlb (tracks.coherent.evict page)⟩
  | access user address stored =>
      simp only [processorStep] at step
      split at step
      · rename_i inUse
        rcases Option.map_eq_some_iff.mp step with ⟨⟨answer, next⟩, accessed, same⟩
        cases same
        rcases tracks.access inUse.1 inUse.2 accessed with ⟨answered, outside, kept⟩
        exact ⟨⟨congrArg some answered, outside⟩, kept⟩
      · cases step

/-- Nothing is kept and no update is pending. -/
theorem tracks_initial {frames : TableFrames} {words : Words} {paging : PageTables}
    (held : Represents frames words paging) (shape : Shape paging videoInd none) :
    Tracks frames { words := words, cr3 := frames.pageDir, tlb := flushed, pending := none }
      paging where
  shape := ⟨videoInd, none, shape, by decide, fun ind member => nomatch member⟩
  represents := held
  spares := fun write member => absurd member List.not_mem_nil
  kernel := by
    have entry := held.dir 1 (by decide)
    rw [shape.dir 1 (by decide)] at entry
    exact entry
  cr3 := rfl
  coherent := coherent_flushed

theorem tracks_boot (frames : TableFrames) (words : Words) :
    Tracks frames (frames.boot words) (frames.tables words).pagingInit :=
  tracks_initial (represents_tables frames words).pagingInit (pagingInit_shape _)

/-- In every run of the kernel's updates, of what the processor looks up, drops and
marks meanwhile, and of loads and stores of the kernel and of user programs, each
access is translated as the tables say that the calls before it leave, and no user
access reaches the kernel page. -/
theorem accesses_follow_tables (frames : TableFrames) (words : Words) {target : Processor}
    {trace : List (PagingEvent × Option (Option Nat))}
    (run : Run (processorStep frames) (frames.boot words) trace target) :
    Follows observeTables AccessSpec (frames.tables words).pagingInit trace :=
  (run.simulation AccessSpec (Tracks frames) (fun tracks _ _ step => tracks.step step)
    (follows_any observeTables _ trace) (tracks_boot frames words)).1

/-- A directory and two page tables in the kernel page. -/
def kernelFrames : TableFrames :=
  { pageDir := 0x40C
    pageTable := 0x40D
    userVideoPageTable := 0x40E
    dir_ne_table := Nat.ne_of_lt (by decide)
    dir_ne_userVideo := Nat.ne_of_lt (by decide)
    table_ne_userVideo := Nat.ne_of_lt (by decide)
    dir_kernel := rfl
    table_kernel := rfl
    userVideo_kernel := rfl }

/-- While process 3 is mapped the processor walks through the half-written entry, and
keeps what it finds in the first frame of memory; then the process stores to its
page. -/
def mapTask : List PagingEvent :=
  .setupTaskPage 3 :: List.replicate 13 .advance ++ .fill 0x8000 true ::
    List.replicate 3 .advance ++ [.access true 0x8000000 (some 1)]

/-- The store goes to the page of the process. -/
theorem accesses_follow_tables_mapTask : ∃ replies target,
    Run (processorStep kernelFrames) (kernelFrames.boot fun _ => 7) (mapTask.zip replies) target ∧
      replies = List.replicate 18 none ++ [some (some 0x1400000)] ∧
      Follows observeTables AccessSpec (kernelFrames.tables fun _ => 7).pagingInit
        (mapTask.zip replies) := by
  have performed : (perform (processorStep kernelFrames) (kernelFrames.boot fun _ => 7)
      mapTask).map Prod.fst = some (List.replicate 18 none ++ [some (some 0x1400000)]) := by
    decide +kernel
  rcases Option.map_eq_some_iff.mp performed with ⟨⟨replies, target⟩, found, same⟩
  have run := run_of_perform found
  exact ⟨replies, target, run, same, accesses_follow_tables kernelFrames (fun _ => 7) run⟩

end PonyOS.Paging
