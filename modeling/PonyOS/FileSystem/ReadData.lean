import PonyOS.FileSystem.Lookup

/-!
# Reading file data

`read_data` copies block by block with one `memcpy` for each data block it
touches.  The model keeps the log of those copies: the index into `data[]`,
the destination, the source and the length of each.  The specification says
that the copies together store one contiguous piece of the file.
-/

namespace PonyOS.FileSystem

open PonyOS.Lib.Word

/-- One `memcpy` made by `read_data`. -/
structure BlockCopy where
  index : Nat
  dest : Nat
  src : Nat
  length : Nat
  deriving DecidableEq

/-- Result of `read_data` with the copies it made, in order. -/
structure ReadResult where
  value : Int
  copies : List BlockCopy
  deriving DecidableEq

namespace Volume

/-- `inode_table[inode].length`. -/
def inodeLength (fs : Volume) (inode : Nat) : Nat :=
  loadWord fs.memory (fs.inodeTable + 4096 * inode)

/-- `inode_table[inode].data[i]`. -/
def inodeData (fs : Volume) (inode i : Nat) : Nat :=
  loadWord fs.memory (fs.inodeTable + 4096 * inode + 4 + 4 * i)

/-- Address of a data block. -/
def dataBlock (fs : Volume) (number : Nat) : Nat :=
  fs.dataBlockStart + 4096 * number

/-- Offset inside block `i` at which the loop starts to copy: only the first
block it visits is entered in the middle. -/
def blockStart (blockIndOffset firstBlockOffset i : Nat) : Nat :=
  if i = blockIndOffset then firstBlockOffset else 0

/-- The copy loop of `read_data`, from block `i` on. -/
def readLoop (fs : Volume) (inode blockIndOffset firstBlockOffset : Nat) :
    Nat → Nat → Int → Int → Nat → ReadResult
  | 0, _, _, copiedLengthTotal, _ => { value := copiedLengthTotal, copies := [] }
  | fuel + 1, i, remainingLength, copiedLengthTotal, currentBufAddr =>
      if i < fs.inodeLength inode then
        let skip := blockStart blockIndOffset firstBlockOffset i
        let copiedLength :=
          if remainingLength ≥ (4096 - skip : Int) then (4096 - skip : Int)
          else remainingLength
        let copy : BlockCopy :=
          { index := i
            dest := currentBufAddr
            src := fs.dataBlock (fs.inodeData inode i) + skip
            length := copiedLength.toNat }
        if remainingLength - copiedLength ≤ 0 then
          { value := copiedLengthTotal + copiedLength, copies := [copy] }
        else
          let rest := readLoop fs inode blockIndOffset firstBlockOffset fuel (i + 1)
            (remainingLength - copiedLength) (copiedLengthTotal + copiedLength)
            (currentBufAddr + copiedLength.toNat)
          { value := rest.value, copies := copy :: rest.copies }
      else
        { value := copiedLengthTotal, copies := [] }

/-- The clamp of `read_data`: it adds two `uint32_t` values and stores the
difference in an `int`. -/
def remainingLength (fs : Volume) (inode offset length : Nat) : Int :=
  if (offset + length) % 4294967296 > fs.inodeLength inode then
    int32 ((fs.inodeLength inode : Int) - offset)
  else int32 length

/-- `read_data`.  The loop compares a block index with the length in bytes. -/
def readData (fs : Volume) (inode offset buf length : Nat) : ReadResult :=
  if inode ≥ uint32 fs.numInodes then { value := -1, copies := [] }
  else
    let remaining := fs.remainingLength inode offset length
    if remaining ≤ 0 then { value := 0, copies := [] }
    else
      fs.readLoop inode (offset / 4096) (offset % 4096) (fs.inodeLength inode)
        (offset / 4096) remaining 0 buf

/-- `filesys_read_by_name`. -/
def filesysReadByName (fs : Volume) (name : CString) (buf count : Nat) : ReadResult :=
  match fs.readDentryByName name with
  | none => { value := -1, copies := [] }
  | some f => fs.readData (uint32 f.inode) 0 buf count

/-- The byte stores that one copy makes. -/
def copyStores (fs : Volume) (copy : BlockCopy) : List Store :=
  storesAt copy.dest (bytesAt fs.memory copy.src copy.length)

/-- All byte stores of a read, in order. -/
def readStores (fs : Volume) (result : ReadResult) : List Store :=
  result.copies.flatMap fs.copyStores

/-! ## Specification -/

/-- Byte `k` of a file as the code locates it. -/
def fileByte (fs : Volume) (inode k : Nat) : UInt8 :=
  load fs.memory (fs.dataBlock (fs.inodeData inode (k / 4096)) + k % 4096)

/-- The bytes `from, …, from + count - 1` of a file as the code locates them. -/
def fileSlice (fs : Volume) (inode start count : Nat) : List UInt8 :=
  (List.range count).map fun k => fs.fileByte inode (start + k)

@[simp]
theorem fileSlice_length (fs : Volume) (inode start count : Nat) :
    (fs.fileSlice inode start count).length = count := by
  simp [fileSlice]

theorem fileSlice_getD (fs : Volume) (inode start : Nat) {count k : Nat} (inside : k < count) :
    (fs.fileSlice inode start count).getD k 0 = fs.fileByte inode (start + k) := by
  simp [fileSlice, inside]

theorem fileSlice_append (fs : Volume) (inode start first second : Nat) :
    fs.fileSlice inode start (first + second) =
      fs.fileSlice inode start first ++ fs.fileSlice inode (start + first) second := by
  simp [fileSlice, List.range_add, Nat.add_assoc]

/-- A copy that stays inside one block copies the bytes of the file at that
place. -/
theorem bytesAt_dataBlock (fs : Volume) (inode i skip count : Nat)
    (inside : skip + count ≤ 4096) :
    bytesAt fs.memory (fs.dataBlock (fs.inodeData inode i) + skip) count =
      fs.fileSlice inode (4096 * i + skip) count := by
  apply List.map_congr_left
  intro k member
  have bound : k < count := by simpa using member
  have quotient : (4096 * i + skip + k) / 4096 = i := by omega
  have remainder : (4096 * i + skip + k) % 4096 = skip + k := by omega
  rw [fileByte, quotient, remainder, Nat.add_assoc]

/-- A copy that takes bytes of a stretch of the file out of the block that its
index selects. -/
structure CopyInside (fs : Volume) (inode position count : Nat) (copy : BlockCopy) : Prop where
  nonempty : 0 < copy.length ∧ copy.length ≤ count
  inBlock : fs.dataBlock (fs.inodeData inode copy.index) ≤ copy.src ∧
    copy.src + copy.length ≤ fs.dataBlock (fs.inodeData inode copy.index) + 4096
  notBefore : position < 4096 * copy.index + 4096
  notAfter : 4096 * copy.index < position + count

theorem CopyInside.widen {fs : Volume} {inode position first rest : Nat} {copy : BlockCopy}
    (inside : CopyInside fs inode (position + first) rest copy) :
    CopyInside fs inode position (first + rest) copy := by
  obtain ⟨nonempty, inBlock, notBefore, notAfter⟩ := inside
  exact ⟨by omega, inBlock, by omega, by omega⟩

/-- The loop copies the remaining bytes from its current position, cut off where
the block index reaches the file length. -/
theorem readLoop_spec (fs : Volume) (inode blockIndOffset firstBlockOffset : Nat)
    (inBlock : firstBlockOffset < 4096) (fuel i remaining total buf position count : Nat)
    (positionEq : position = 4096 * i + blockStart blockIndOffset firstBlockOffset i)
    (countEq : count = min remaining (4096 * fs.inodeLength inode - position))
    (positive : 0 < remaining) (enough : fs.inodeLength inode ≤ fuel + i)
    (started : blockIndOffset ≤ i) :
    let result := fs.readLoop inode blockIndOffset firstBlockOffset fuel i remaining total buf
    result.value = total + count ∧
      fs.readStores result = storesAt buf (fs.fileSlice inode position count) ∧
      ∀ copy ∈ result.copies, CopyInside fs inode position count copy := by
  induction fuel generalizing i remaining total buf position count with
  | zero =>
      have countZero : count = 0 := by omega
      simp [readLoop, readStores, fileSlice, countZero]
  | succ fuel ih =>
      by_cases entered : i < fs.inodeLength inode
      · have skipLt : blockStart blockIndOffset firstBlockOffset i < 4096 := by
          unfold blockStart
          split <;> omega
        -- Past the first block the loop always starts at the block boundary.
        have nextSkip : blockStart blockIndOffset firstBlockOffset (i + 1) = 0 := by
          unfold blockStart
          rw [if_neg (by omega)]
        simp only [readLoop, if_pos entered]
        generalize blockStart blockIndOffset firstBlockOffset i = skip at *
        subst positionEq
        have first : ∀ dest length, 0 < length → length ≤ 4096 - skip → length ≤ count →
            CopyInside fs inode (4096 * i + skip) count
              { index := i
                dest := dest
                src := fs.dataBlock (fs.inodeData inode i) + skip
                length := length } := by
          intro dest length nonempty inside counted
          exact ⟨⟨nonempty, counted⟩, ⟨Nat.le_add_right _ _, by simp only; omega⟩,
            by simp only; omega, by simp only; omega⟩
        by_cases full : (remaining : Int) ≥ 4096 - skip
        · rw [if_pos full]
          have copied : ((4096 : Int) - skip).toNat = 4096 - skip := by omega
          have copyEq := fs.bytesAt_dataBlock inode i skip (4096 - skip) (by omega)
          by_cases done : (remaining : Int) - (4096 - skip) ≤ 0
          · rw [if_pos done]
            have exactly : 4096 - skip = count := by omega
            refine ⟨by simp only; omega, ?_, ?_⟩
            · rw [exactly] at copyEq
              simp only [readStores, List.flatMap_cons, List.flatMap_nil, List.append_nil,
                copyStores, copied, exactly, copyEq]
            · intro copy member
              rw [List.mem_singleton.mp member, copied]
              exact first buf _ (by omega) le_rfl (by omega)
          · rw [if_neg done]
            obtain ⟨rest, restEq⟩ : ∃ rest, count = (4096 - skip) + rest :=
              ⟨count - (4096 - skip), by omega⟩
            obtain ⟨value, stores, inside⟩ := ih (i + 1) (remaining - (4096 - skip))
              (total + (4096 - skip)) (buf + (4096 - skip)) (4096 * i + skip + (4096 - skip)) rest
              (by rw [nextSkip]; omega) (by omega) (by omega) (by omega) (by omega)
            have remainingEq : (remaining : Int) - (4096 - skip) =
                (remaining - (4096 - skip) : Nat) := by omega
            have totalEq : (total : Int) + (4096 - skip) = (total + (4096 - skip) : Nat) := by
              omega
            rw [remainingEq, totalEq, copied]
            refine ⟨by rw [value]; omega, ?_, ?_⟩
            · simp only [readStores, List.flatMap_cons] at stores ⊢
              rw [stores, restEq, fileSlice_append, storesAt_append, fileSlice_length]
              simp only [copyStores, copyEq]
            · intro copy member
              rcases List.mem_cons.mp member with rfl | later
              · exact first buf _ (by omega) le_rfl (by omega)
              · rw [restEq]
                exact (inside copy later).widen
        · rw [if_neg full, if_pos (by omega)]
          have exactly : count = remaining := by omega
          have copyEq := fs.bytesAt_dataBlock inode i skip remaining (by omega)
          refine ⟨by rw [exactly], ?_, ?_⟩
          · rw [exactly]
            simp only [readStores, List.flatMap_cons, List.flatMap_nil, List.append_nil,
              copyStores, Int.toNat_natCast, copyEq]
          · intro copy member
            rw [List.mem_singleton.mp member, Int.toNat_natCast]
            exact first buf _ positive (by omega) (by omega)
      · have countZero : count = 0 := by omega
        simp [readLoop, entered, readStores, fileSlice, countZero]

/-- Number of bytes that `read_data` copies. -/
def readCount (fs : Volume) (inode offset length : Nat) : Nat :=
  if inode ≥ uint32 fs.numInodes then 0
  else min (fs.remainingLength inode offset length).toNat (4096 * fs.inodeLength inode - offset)

/-- What `read_data` returns, stores and copies, for every inode, offset and
length. -/
theorem readData_copies (fs : Volume) (inode offset buf length : Nat) :
    (fs.readData inode offset buf length).value =
        (if inode ≥ uint32 fs.numInodes then -1 else (fs.readCount inode offset length : Int)) ∧
      fs.readStores (fs.readData inode offset buf length) =
        storesAt buf (fs.fileSlice inode offset (fs.readCount inode offset length)) ∧
      ∀ copy ∈ (fs.readData inode offset buf length).copies,
        CopyInside fs inode offset (fs.readCount inode offset length) copy := by
  unfold readData readCount
  by_cases outside : inode ≥ uint32 fs.numInodes
  · simp [outside, readStores, fileSlice]
  · simp only [outside, if_false]
    by_cases ended : fs.remainingLength inode offset length ≤ 0
    · have none : (fs.remainingLength inode offset length).toNat = 0 := by omega
      simp [ended, none, readStores, fileSlice]
    · obtain ⟨remaining, remainingEq⟩ : ∃ remaining : Nat,
          fs.remainingLength inode offset length = remaining :=
        ⟨(fs.remainingLength inode offset length).toNat, by omega⟩
      rw [remainingEq] at ended ⊢
      have start : offset = 4096 * (offset / 4096) +
          blockStart (offset / 4096) (offset % 4096) (offset / 4096) := by
        unfold blockStart
        rw [if_pos rfl]
        exact (Nat.div_add_mod offset 4096).symm
      have loop := fs.readLoop_spec inode (offset / 4096) (offset % 4096)
        (Nat.mod_lt _ (by decide)) (fs.inodeLength inode) (offset / 4096) remaining 0 buf offset
        (min remaining (4096 * fs.inodeLength inode - offset)) start rfl (by omega) (by omega)
        (Nat.le_refl _)
      simp only [ended, if_false, Int.toNat_natCast]
      exact ⟨by simpa using loop.1, loop.2⟩

/-- What `read_data` returns and stores. -/
theorem readData_spec (fs : Volume) (inode offset buf length : Nat) :
    (fs.readData inode offset buf length).value =
        (if inode ≥ uint32 fs.numInodes then -1 else (fs.readCount inode offset length : Int)) ∧
      fs.readStores (fs.readData inode offset buf length) =
        storesAt buf (fs.fileSlice inode offset (fs.readCount inode offset length)) := by
  obtain ⟨value, stores, -⟩ := fs.readData_copies inode offset buf length
  exact ⟨value, stores⟩

/-- `read_data` fails for an inode outside the table only. -/
theorem readData_value_eq (fs : Volume) (inode offset buf length : Nat) :
    (fs.readData inode offset buf length).value = -1 ↔ uint32 fs.numInodes ≤ inode := by
  rw [(fs.readData_spec inode offset buf length).1]
  by_cases outside : inode ≥ uint32 fs.numInodes
  · simp [outside]
  · rw [if_neg outside]
    omega

/-- On an existing inode, for offsets and lengths below `2 ^ 31`, as many bytes
are copied as were asked for and are left. -/
theorem readCount_eq (fs : Volume) {inode offset length : Nat}
    (inodeLt : inode < uint32 fs.numInodes)
    (offsetSmall : offset < 2147483648) (lengthSmall : length < 2147483648)
    (sizeSmall : fs.inodeLength inode < 2147483648) :
    fs.readCount inode offset length = min length (fs.inodeLength inode - offset) := by
  have noWrap : (offset + length) % 4294967296 = offset + length := by omega
  have clamp : fs.remainingLength inode offset length =
      min (length : Int) (fs.inodeLength inode - offset) := by
    rw [remainingLength, noWrap]
    unfold int32
    split <;> omega
  rw [readCount, if_neg (by omega), clamp]
  omega

end Volume

namespace Loaded

variable {memory : Memory} {start : Nat} {image : Image}

theorem inodeLength_eq (loaded : Loaded memory start image) {inode : Nat}
    (bound : inode < image.numInodes) :
    (filesysInit memory start).inodeLength inode = image.fileLength inode := by
  have word := loaded.word_eq (4096 * (1 + inode)) (by unfold Image.size; omega)
  rw [Image.fileLength, ← word]
  change loadWord memory (start + 4096 + 4096 * inode) = _
  congr 1
  omega

theorem inodeData_eq (loaded : Loaded memory start image) {inode j : Nat}
    (bound : inode < image.numInodes) (inside : j < 1023) :
    (filesysInit memory start).inodeData inode j = image.blockNumber inode j := by
  have word := loaded.word_eq (4096 * (1 + inode) + 4 + 4 * j) (by unfold Image.size; omega)
  rw [Image.blockNumber, ← word]
  change loadWord memory (start + 4096 + 4096 * inode + 4 + 4 * j) = _
  congr 1
  omega

/-- On a well-formed image the pieces that `read_data` delivers are pieces of
the file contents. -/
theorem fileSlice_eq (loaded : Loaded memory start image)
    {inode offset count : Nat} (bound : inode < image.numInodes)
    (lengthLe : image.fileLength inode ≤ 1023 * 4096)
    (blockLt : ∀ j, j < image.blockCount inode →
      image.blockNumber inode j < image.numDataBlocks)
    (inside : offset + count ≤ image.fileLength inode) :
    (filesysInit memory start).fileSlice inode offset count =
      ((image.fileBytes inode).drop offset).take count := by
  apply List.ext_getElem?
  intro k
  by_cases below : k < count
  · have position : offset + k < image.fileLength inode := by omega
    have quotient : (offset + k) / 4096 < image.blockCount inode := by
      unfold Image.blockCount
      omega
    have numberLt := blockLt _ quotient
    have dataEq := loaded.inodeData_eq bound (j := (offset + k) / 4096) (by omega)
    have remainder : (offset + k) % 4096 < 4096 := Nat.mod_lt _ (by decide)
    have byteEq := loaded.same
      (4096 * (1 + image.numInodes + image.blockNumber inode ((offset + k) / 4096)) +
        (offset + k) % 4096) (by unfold Image.size; omega)
    have address : (filesysInit memory start).dataBlock
        ((filesysInit memory start).inodeData inode ((offset + k) / 4096)) +
          (offset + k) % 4096 =
        start + (4096 * (1 + image.numInodes +
          image.blockNumber inode ((offset + k) / 4096)) + (offset + k) % 4096) := by
      rw [Volume.dataBlock, loaded.dataBlockStart_eq, dataEq]
      omega
    rw [List.getElem?_take_of_lt below, List.getElem?_drop,
      image.fileBytes_getElem? inode _ position, ← byteEq, ← address]
    simp [Volume.fileSlice, Volume.fileByte, below, filesysInit]
  · rw [List.getElem?_eq_none (by simp; omega), List.getElem?_eq_none]
    simp only [List.length_take]
    omega

end Loaded

end PonyOS.FileSystem
