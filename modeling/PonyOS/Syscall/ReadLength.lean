import PonyOS.Syscall.Buffers
import PonyOS.Syscall.Directory

/-!
# Reads and their length

The four drivers behind `read` have four notions of length.  The clock stores
nothing.  A directory stores 33 bytes whatever it is asked for.  A terminal
stores as many bytes as it is asked for, but answers with the length of the
string that it finds in the buffer, and a string may go on after the buffer.  A
file clamps the count by a difference of unsigned words, which wraps for a
position far behind the end.

For each driver the section below says exactly when a read stays inside its
buffer and answers within its length.
-/

namespace PonyOS.Syscall

open PonyOS.FileSystem
open PonyOS.Lib.Transition
open PonyOS.Lib.Word
open PonyOS.Process
open PonyOS.Terminal

/-- A read stores inside its buffer only, and answers `-1` or a length inside
it. -/
structure RespectsLength (buf : Nat) (nbytes : Int) (tried : Attempt) : Prop where
  stores : ∀ store ∈ tried.stores,
    ∃ i : Nat, (i : Int) < nbytes ∧ store.address = (buf + i) % 4294967296
  value : tried.value = -1 ∨ (0 ≤ tried.value ∧ tried.value ≤ nbytes)

/-- A result that may be a length or a failure. -/
def ValueWithin (value nbytes : Int) : Prop :=
  value = -1 ∨ (0 ≤ value ∧ value ≤ nbytes)

/-- Consecutive stores stay inside a buffer exactly if they are not more than
its bytes. -/
theorem storesAt_inside_iff (buf : Nat) (bytes : List UInt8) {nbytes : Int}
    (nonneg : 0 ≤ nbytes) (small : nbytes < 2147483648) :
    (∀ store ∈ storesAt buf bytes,
        ∃ i : Nat, (i : Int) < nbytes ∧ store.address = (buf + i) % 4294967296) ↔
      bytes.length ≤ nbytes := by
  constructor
  · intro inside
    by_contra long
    obtain ⟨store, member, addressEq⟩ := mem_storesAt_address.mpr
      ⟨nbytes.toNat, (by omega : nbytes.toNat < bytes.length), rfl⟩
    obtain ⟨i, within, sameAddress⟩ := inside store member
    rw [addressEq] at sameAddress
    omega
  · intro short store member
    obtain ⟨i, within, addressEq⟩ := mem_storesAt_address.mp ⟨store, member, rfl⟩
    exact ⟨i, by omega, addressEq.symm⟩

/-- What is left to say of a driver: how many bytes it stores, and its result. -/
theorem callRead_respectsLength_iff {kernel : Kernel} {memory : Memory} {desc : FileDesc}
    {buf : Nat} {nbytes : Int} {tried : Attempt} (nonneg : 0 ≤ nbytes)
    (small : nbytes < 2147483648)
    (attempted : callRead kernel memory desc buf (uint32 nbytes) = some tried) :
    RespectsLength buf nbytes tried ↔
      readFill kernel desc nbytes ≤ nbytes ∧ ValueWithin tried.value nbytes := by
  obtain ⟨bytes, storesEq, length⟩ := callRead_stores attempted
  have inside := storesAt_inside_iff buf bytes nonneg small
  rw [length, ← storesEq] at inside
  constructor
  · intro respects
    exact ⟨inside.mp respects.stores, respects.value⟩
  · rintro ⟨short, value⟩
    exact ⟨inside.mpr short, value⟩

/-! ## Directories -/

/-- A directory has an entry left to read. -/
def EntryLeft (kernel : Kernel) : Prop :=
  kernel.currentDirReadIndex < kernel.fs.numDirEntry ∧
    uint32 kernel.currentDirReadIndex < uint32 kernel.fs.numDirEntry

/-- A directory stores a whole name field and its terminator. -/
theorem readFill_directory {kernel : Kernel} {desc : FileDesc} (nbytes : Int)
    (isDirectory : desc.read = .dirReadWrapper) :
    (EntryLeft kernel ∧ readFill kernel desc nbytes = 33) ∨
      (¬ EntryLeft kernel ∧ readFill kernel desc nbytes = 0) := by
  simp only [readFill, isDirectory, EntryLeft]
  split
  · next ended => exact .inr ⟨by omega, rfl⟩
  · next left => exact .inl ⟨by omega, rfl⟩

/-- It answers with the length of the name. -/
theorem dirRead_value (kernel : Kernel) (memory : Memory) (buf : Nat) :
    ValueWithin (dirRead kernel memory buf).value 32 ∧
      (¬ EntryLeft kernel → (dirRead kernel memory buf).value = 0 ∨
        (dirRead kernel memory buf).value = -1) := by
  unfold dirRead
  by_cases ended : kernel.currentDirReadIndex ≥ kernel.fs.numDirEntry
  · rw [if_pos ended]
    exact ⟨.inr ⟨Int.le_refl 0, Int.zero_le_ofNat 32⟩, fun _ => .inl rfl⟩
  · rw [if_neg ended, Volume.readDentryByIndex]
    by_cases outside : uint32 kernel.currentDirReadIndex ≥ uint32 kernel.fs.numDirEntry
    · rw [if_pos outside]
      exact ⟨.inl rfl, fun _ => .inr rfl⟩
    · rw [if_neg outside]
      simp only
      have length : (kernel.fs.dentryAt (uint32 kernel.currentDirReadIndex)).fileName.length = 32 :=
        bytesAt_length ..
      generalize (kernel.fs.dentryAt (uint32 kernel.currentDirReadIndex)).fileName = name at length
      have value := strlenAt_name memory buf name (Nat.le_of_eq length)
      have shorter := (List.takeWhile_prefix (l := name) (· ≠ 0)).length_le
      constructor
      · right
        omega
      · intro noneLeft
        exact absurd ⟨Int.not_le.mp ended, Nat.not_le.mp outside⟩ noneLeft

/-! ## Terminals -/

/-- What the buffer of a terminal read holds before its last byte and after:
the pending line, then whatever was there. -/
def lineThenMemory (terminals : Terminals) (memory : Memory) (buf count : Nat) (k : Nat) :
    UInt8 :=
  if k < count then
    terminals.keyboard.printBuffer (printRow terminals.console.activeTerminal + k)
  else load memory (buf + k)

/-- The string in the buffer ends inside it or right after it, or nowhere in
the address space. -/
def LineEnds (terminals : Terminals) (memory : Memory) (buf count : Nat) : Prop :=
  (∃ k, k ≤ count ∧ lineThenMemory terminals memory buf count k = 0) ∨
    ∀ k, k < 4294967295 → lineThenMemory terminals memory buf count k ≠ 0

theorem strlenAt_line (terminals : Terminals) (memory : Memory) (buf : Nat) {count : Nat}
    (small : count < 2147483648) :
    strlenAt (memoryAfter memory (storesAt buf (terminals.readLine count))) buf =
      int32 (strlen (lineThenMemory terminals memory buf count) addressSpace) := by
  have length : (terminals.readLine count).length = count := by
    simp [Terminals.readLine]
  have same : strlen (fun i => load (memoryAfter memory
      (storesAt buf (terminals.readLine count))) (buf + i)) addressSpace =
      strlen (lineThenMemory terminals memory buf count) addressSpace := by
    apply strlen_ext
    intro k inside
    unfold addressSpace at inside
    unfold lineThenMemory
    by_cases inLine : k < count
    · rw [if_pos inLine, load_memoryAfter _ _ _ (by omega) (by omega)]
      simp [Terminals.readLine, inLine]
    · rw [if_neg inLine, load_memoryAfter_beyond _ _ _ (by omega) inside]
  rw [strlenAt, same]

/-- A terminal read answers within its length exactly if the string ends. -/
theorem strlenAt_line_within_iff (terminals : Terminals) (memory : Memory) (buf : Nat)
    {count : Nat} (small : count < 2147483648) :
    ValueWithin (strlenAt (memoryAfter memory (storesAt buf (terminals.readLine count))) buf)
        count ↔ LineEnds terminals memory buf count := by
  rw [strlenAt_line terminals memory buf small]
  have atMost := strlen_le (lineThenMemory terminals memory buf count) addressSpace
  have inside : count < addressSpace := by
    unfold addressSpace
    omega
  have inBuffer : strlen (lineThenMemory terminals memory buf count) addressSpace ≤ count ↔ _ :=
    strlen_le_iff inside
  have nowhere : 4294967295 ≤ strlen (lineThenMemory terminals memory buf count) addressSpace ↔
      ∀ k, k < 4294967295 → lineThenMemory terminals memory buf count k ≠ 0 := by
    constructor
    · intro long k isBelow
      exact strlen_ne_zero (Nat.lt_of_lt_of_le isBelow long)
    · intro nonzero
      by_contra short
      have position := Nat.lt_of_not_le short
      have isZero := strlen_zero (Nat.lt_trans position (by decide : 4294967295 < addressSpace))
      exact nonzero _ position isZero
  rw [LineEnds, ← inBuffer, ← nowhere]
  generalize strlen (lineThenMemory terminals memory buf count) addressSpace = length at atMost
  unfold addressSpace at atMost
  unfold ValueWithin int32
  omega

/-! ## Files -/

/-- The position is so far behind the end of the file that the difference wraps,
and the blocks that the loop visits hold more than was asked for. -/
def PositionWraps (fs : Volume) (inode offset count : Nat) : Prop :=
  inode < uint32 fs.numInodes ∧ fs.inodeLength inode + 2147483648 < offset ∧
    offset + count < 4294967296 ∧ offset + count < 4096 * fs.inodeLength inode

theorem readCount_le_iff (fs : Volume) {inode offset count : Nat} (offsetLt : offset < 4294967296)
    (small : count < 2147483648) :
    fs.readCount inode offset count ≤ count ↔ ¬ PositionWraps fs inode offset count := by
  have lengthLt : fs.inodeLength inode < 4294967296 := loadWord_lt ..
  unfold Volume.readCount PositionWraps Volume.remainingLength
  rw [int32_sub lengthLt offsetLt, int32_of_lt small]
  generalize fs.inodeLength inode = length at lengthLt
  by_cases outside : inode ≥ uint32 fs.numInodes
  · rw [if_pos outside]
    exact iff_of_true (Nat.zero_le count) fun wraps => Nat.not_lt.mpr outside wraps.1
  · rw [if_neg outside]
    have inTable : inode < uint32 fs.numInodes := Nat.lt_of_not_le outside
    by_cases far : length + 2147483648 < offset
    · rw [if_pos far]
      by_cases sumWraps : offset + count < 4294967296
      · rw [Nat.mod_eq_of_lt sumWraps, if_pos (by omega)]
        constructor
        · rintro short ⟨-, -, -, many⟩
          omega
        · intro fits
          by_contra long
          exact fits ⟨inTable, far, sumWraps, by omega⟩
      · apply iff_of_true
        · split
          · omega
          · omega
        · rintro ⟨-, -, noWrap, -⟩
          exact sumWraps noWrap
    · apply iff_of_true
      · rw [if_neg far]
        split
        · split
          · omega
          · omega
        · omega
      · rintro ⟨-, isFar, -⟩
        exact far isFar

/-! ## All drivers -/

/-- When a read through a descriptor stays within its length. -/
def ReadFits (kernel : Kernel) (memory : Memory) (desc : FileDesc) (buf : Nat) (nbytes : Int) :
    Prop :=
  match desc.read with
  | .terminalReadWrapper => LineEnds kernel.terminals memory buf nbytes.toNat
  | .filesysRead =>
      ¬ PositionWraps kernel.fs (uint32 desc.inode) (uint32 desc.filePosition) nbytes.toNat
  | .dirReadWrapper => EntryLeft kernel → 33 ≤ nbytes
  | _ => True

theorem callRead_fits_iff {kernel : Kernel} {memory : Memory} {desc : FileDesc} {buf : Nat}
    {nbytes : Int} {tried : Attempt} (nonneg : 0 ≤ nbytes) (small : nbytes < 2147483648)
    (attempted : callRead kernel memory desc buf (uint32 nbytes) = some tried) :
    RespectsLength buf nbytes tried ↔ ReadFits kernel memory desc buf nbytes := by
  rw [callRead_respectsLength_iff nonneg small attempted]
  obtain ⟨count, rfl⟩ : ∃ count : Nat, nbytes = count := ⟨nbytes.toNat, by omega⟩
  have countLt : count < 2147483648 := by omega
  have countEq : uint32 (count : Int) = count := uint32_of_lt (by omega)
  clear small
  rw [countEq] at attempted
  unfold ReadFits
  rw [Int.toNat_natCast]
  cases callRead_cases attempted with
  | terminal handler ready =>
      have filled : readFill kernel desc count = count := by
        simp [readFill, handler, ready, countEq]
      rw [filled, handler]
      exact (and_iff_right (Int.le_refl _)).trans
        (strlenAt_line_within_iff kernel.terminals memory buf countLt)
  | rtc handler ticked =>
      have filled : readFill kernel desc count = 0 := by simp [readFill, handler]
      rw [filled, handler]
      exact iff_of_true ⟨nonneg, .inr ⟨Int.le_refl 0, nonneg⟩⟩ trivial
  | file handler =>
      have filled : readFill kernel desc count = kernel.fs.readCount (uint32 desc.inode)
          (uint32 desc.filePosition) count := by
        simp [readFill, handler, countEq]
      have offsetLt : uint32 desc.filePosition < 4294967296 := by
        unfold uint32
        omega
      have value := (kernel.fs.readData_spec (uint32 desc.inode) (uint32 desc.filePosition) buf
        count).1
      rw [filled, handler, ← readCount_le_iff kernel.fs offsetLt countLt, Int.ofNat_le]
      apply and_iff_left_of_imp
      intro short
      simp only [filesysRead, value]
      split
      · exact .inl rfl
      · exact .inr ⟨Int.natCast_nonneg _, Int.ofNat_le.mpr short⟩
  | directory handler =>
      obtain ⟨value, none⟩ := dirRead_value kernel memory buf
      rcases readFill_directory (count : Int) handler with ⟨left, filled⟩ | ⟨ended, filled⟩
      · rw [filled, handler]
        constructor
        · exact fun respects _ => respects.1
        · intro room
          refine ⟨room left, value.imp id fun length => ⟨length.1, ?_⟩⟩
          have enough := room left
          omega
      · rw [filled, handler]
        refine iff_of_true ⟨nonneg, ?_⟩ fun left => absurd left ended
        rcases none ended with isZero | failed
        · rw [isZero]
          exact .inr ⟨Int.le_refl 0, nonneg⟩
        · exact .inl failed

/-- A read through an open descriptor respects its length exactly in the cases
listed for its driver. -/
theorem read_respectsLength_iff {kernel : Kernel} {pid : Nat} {memory : Memory} {fd : Int}
    {buf : Nat} {nbytes : Int} {tried : Attempt} (lower : 0 ≤ fd) (upper : fd < fdtSize)
    (notStdout : fd ≠ 1) (isOpen : ((kernel.pcb pid).fileArray fd.toNat).flags ≠ 0)
    (nonneg : 0 ≤ nbytes) (small : nbytes < 2147483648)
    (attempted : read kernel pid memory fd buf nbytes = some tried) :
    RespectsLength buf nbytes tried ↔
      ReadFits kernel memory ((kernel.pcb pid).fileArray fd.toNat) buf nbytes := by
  have valid : ¬ (fd ≥ fdtSize ∨ fd < 0 ∨ fd = 1) := by omega
  unfold read at attempted
  rw [if_neg valid] at attempted
  simp only [if_neg isOpen] at attempted
  exact callRead_fits_iff nonneg small attempted

/-- The root shell reads four bytes of its own file. -/
theorem read_respectsLength_iff_rootShell : ∃ tried,
    read readerKernel 1 (fun _ => 0) 2 0x8000000 4 = some tried ∧
      RespectsLength 0x8000000 4 tried := by
  have handler : ((readerKernel.pcb 1).fileArray 2).read = .filesysRead := by decide +kernel
  have position : ((readerKernel.pcb 1).fileArray 2).filePosition = 0 := by decide +kernel
  have isOpen : ((readerKernel.pcb 1).fileArray (2 : Int).toNat).flags ≠ 0 := by decide +kernel
  have returns : (read readerKernel 1 (fun _ => 0) 2 0x8000000 4).isSome = true := by
    decide +kernel
  obtain ⟨tried, attempted⟩ := Option.isSome_iff_exists.mp returns
  refine ⟨tried, attempted, (read_respectsLength_iff (by decide) (by decide) (by decide) isOpen
    (by decide) (by decide) attempted).mpr ?_⟩
  have fileDesc : (readerKernel.pcb 1).fileArray (2 : Int).toNat =
      (readerKernel.pcb 1).fileArray 2 := rfl
  rw [fileDesc, ReadFits, handler, position]
  rintro ⟨-, far, -⟩
  exact absurd far (Nat.not_lt_zero _ ∘ Nat.lt_of_add_left_lt)

/-- The root shell reads one byte of the directory, and gets 33. -/
theorem directoryRead_overruns :
    ¬ ∀ (trace : List (SystemEvent × SystemReply)) (kernel : Kernel) (pid : Nat)
      (memory : Memory) (fd : Int) (buf : Nat) (nbytes : Int) (tried : Attempt),
      Run systemStep shellKernel trace kernel → kernel.userProcess = some pid → 0 ≤ fd →
      fd < fdtSize → fd ≠ 1 → ((kernel.pcb pid).fileArray fd.toNat).flags ≠ 0 →
      0 ≤ nbytes → nbytes < 2147483648 →
      read kernel pid memory fd buf nbytes = some tried → RespectsLength buf nbytes tried := by
  intro respects
  have run : Run systemStep shellKernel [_, _] listingKernel :=
    .cons trivial launchedKernel_step (.cons trivial listingKernel_step (.nil listingKernel))
  have isUser : listingKernel.userProcess = some 1 := by decide +kernel
  have isOpen : ((listingKernel.pcb 1).fileArray 2).flags = 1 := by decide +kernel
  have handler : ((listingKernel.pcb 1).fileArray 2).read = .dirReadWrapper := by decide +kernel
  have left : EntryLeft listingKernel := ⟨by decide +kernel, by decide +kernel⟩
  have attempted : read listingKernel 1 (fun _ => 0) 2 0x8000000 1 =
      some (dirRead listingKernel (fun _ => 0) 0x8000000) :=
    read_directory _ _ _ (by decide) (by decide) isOpen handler
  have called : callRead listingKernel (fun _ => 0) ((listingKernel.pcb 1).fileArray 2) 0x8000000
      (uint32 1) = some (dirRead listingKernel (fun _ => 0) 0x8000000) := by
    simp only [callRead, handler]
  have opened : ((listingKernel.pcb 1).fileArray (2 : Int).toNat).flags ≠ 0 := by decide +kernel
  have inside := respects _ listingKernel 1 (fun _ => 0) 2 0x8000000 1 _ run isUser (by decide)
    (by decide) (by decide) opened (by decide) (by decide) attempted
  rw [callRead_fits_iff (by decide) (by decide) called, ReadFits, handler] at inside
  exact absurd (inside left) (by decide)

end PonyOS.Syscall
