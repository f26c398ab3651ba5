import PonyOS.FileSystem.ReadData

/-!
# What a read delivers

On an inode of a loaded image `read_data` is compared with the contents of the
file.  Below `2 ^ 31` it delivers exactly the bytes asked for that are left.
Above, the clamp to the end of the file adds two `uint32_t` values and stores
the difference in an `int`: the sum can wrap below the file length, and the
difference can become positive although the offset lies beyond the end.
-/

namespace PonyOS.FileSystem

open PonyOS.Lib.Word

/-- An inode of the table whose length is admissible and whose data blocks
exist. -/
structure Image.WellFormedInode (image : Image) (inode : Nat) : Prop where
  inode_lt : inode < image.numInodes
  length_le : image.fileLength inode ≤ 1023 * 4096
  block_lt : ∀ j, j < image.blockCount inode →
    image.blockNumber inode j < image.numDataBlocks

/-- A read delivered `count` bytes of a file from an offset on, and nothing
else. -/
structure Delivers (fs : Volume) (image : Image) (inode offset buf count : Nat)
    (result : ReadResult) : Prop where
  value : result.value = count
  stores : fs.readStores result = storesAt buf (((image.fileBytes inode).drop offset).take count)
  untouched : ∀ j, count ≤ j → j < 4294967296 →
    ∀ store ∈ fs.readStores result, store.address ≠ (buf + j) % 4294967296

/-- Every copy of a read takes its bytes from a data block of the file. -/
structure CopiesFrom (image : Image) (start inode : Nat) (copy : BlockCopy) : Prop where
  index_lt : copy.index < image.blockCount inode
  inBlock : start + 4096 * (1 + image.numInodes + image.blockNumber inode copy.index) ≤ copy.src ∧
    copy.src + copy.length ≤
      start + 4096 * (1 + image.numInodes + image.blockNumber inode copy.index) + 4096

/-- Consecutive stores miss the addresses behind them. -/
theorem storesAt_address_ne {dest count : Nat} {bytes : List UInt8}
    (lengthLe : bytes.length ≤ count) {j : Nat} (behind : count ≤ j) (bound : j < 4294967296)
    {store : Store} (member : store ∈ storesAt dest bytes) :
    store.address ≠ (dest + j) % 4294967296 := by
  intro same
  obtain ⟨i, inside, address⟩ := mem_storesAt_address.mp ⟨store, member, same⟩
  omega

namespace Loaded

variable {memory : Memory} {start : Nat} {image : Image} {inode : Nat}

/-- The inode test of `read_data` compares with the count of the image. -/
theorem uint32_numInodes (loaded : Loaded memory start image) :
    uint32 (filesysInit memory start).numInodes = image.numInodes := by
  have fits := loaded.fits
  unfold Image.size at fits
  rw [loaded.numInodes_eq]
  exact uint32_of_lt (by omega)

/-- A read whose count stays inside the file delivers that piece of it. -/
theorem readData_delivers (loaded : Loaded memory start image)
    (wellFormed : image.WellFormedInode inode) (offset buf length : Nat)
    (inside : (filesysInit memory start).readCount inode offset length ≤
      image.fileLength inode - offset) :
    Delivers (filesysInit memory start) image inode offset buf
        ((filesysInit memory start).readCount inode offset length)
        ((filesysInit memory start).readData inode offset buf length) ∧
      ∀ copy ∈ ((filesysInit memory start).readData inode offset buf length).copies,
        CopiesFrom image start inode copy := by
  obtain ⟨value, stores, copies⟩ :=
    (filesysInit memory start).readData_copies inode offset buf length
  have inodeLt := wellFormed.inode_lt
  have lengthLe := wellFormed.length_le
  rw [if_neg (by rw [loaded.uint32_numInodes]; omega)] at value
  generalize (filesysInit memory start).readCount inode offset length = count at *
  have slice : (filesysInit memory start).fileSlice inode offset count =
      ((image.fileBytes inode).drop offset).take count := by
    rcases Nat.eq_zero_or_pos count with rfl | positive
    · simp [Volume.fileSlice]
    · exact loaded.fileSlice_eq inodeLt lengthLe wellFormed.block_lt (by omega)
  constructor
  · refine ⟨value, by rw [stores, slice], ?_⟩
    intro j behind bound store member
    rw [stores] at member
    exact storesAt_address_ne (by simp) behind bound member
  · intro copy member
    obtain ⟨nonempty, inBlock, notBefore, notAfter⟩ := copies copy member
    have indexLt : copy.index < image.blockCount inode := by
      unfold Image.blockCount
      omega
    refine ⟨indexLt, ?_⟩
    rw [Volume.dataBlock, loaded.dataBlockStart_eq,
      loaded.inodeData_eq inodeLt (by unfold Image.blockCount at indexLt; omega)] at inBlock
    rw [Nat.mul_add 4096 (1 + image.numInodes), ← Nat.add_assoc]
    exact inBlock

/-- `read_data` is exact for offsets and lengths below `2 ^ 31`, and fails
without a copy for an inode outside the table. -/
theorem readData_exact (loaded : Loaded memory start image) (offset buf length : Nat)
    (offsetSmall : offset < 2147483648) (lengthSmall : length < 2147483648) :
    (image.WellFormedInode inode →
      Delivers (filesysInit memory start) image inode offset buf
          (if offset < image.fileLength inode then min length (image.fileLength inode - offset)
            else 0)
          ((filesysInit memory start).readData inode offset buf length) ∧
        ∀ copy ∈ ((filesysInit memory start).readData inode offset buf length).copies,
          CopiesFrom image start inode copy) ∧
    (image.numInodes ≤ inode →
      (filesysInit memory start).readData inode offset buf length =
        { value := -1, copies := [] }) := by
  constructor
  · intro wellFormed
    have lengthEq := loaded.inodeLength_eq wellFormed.inode_lt
    have lengthLe := wellFormed.length_le
    have inodeLt := wellFormed.inode_lt
    rw [← loaded.uint32_numInodes] at inodeLt
    have count := (filesysInit memory start).readCount_eq inodeLt offsetSmall lengthSmall
      (by omega)
    rw [lengthEq] at count
    have expected : (if offset < image.fileLength inode then
        min length (image.fileLength inode - offset) else 0) =
          (filesysInit memory start).readCount inode offset length := by
      split <;> omega
    rw [expected]
    exact loaded.readData_delivers wellFormed offset buf length (by omega)
  · intro outside
    rw [Volume.readData, if_pos (by rw [loaded.uint32_numInodes]; exact outside)]

end Loaded

/-- An image with one inode, whose file holds the bytes `abc`. -/
def abcImage : Image :=
  { byte := fun k =>
      ([(4, 1), (8, 1), (4096, 3), (8192, 97), (8193, 98), (8194, 99)].lookup k).getD 0 }

theorem abcImage_loaded : Loaded abcImage.byte 0 abcImage := by
  constructor
  · decide
  · intro k bound
    have size : abcImage.size = 12288 := by decide
    rw [load, Nat.zero_add, Nat.mod_eq_of_lt (by omega)]

theorem abcImage_wellFormedInode : abcImage.WellFormedInode 0 := by
  constructor
  · decide
  · decide
  · decide

theorem readData_exact_abc :
    Delivers (filesysInit abcImage.byte 0) abcImage 0 1 4096 2
        ((filesysInit abcImage.byte 0).readData 0 1 4096 7) ∧
      (filesysInit abcImage.byte 0).readData 1 1 4096 7 = { value := -1, copies := [] } := by
  have inside := ((abcImage_loaded.readData_exact 1 4096 7 (by decide) (by decide)).1
    abcImage_wellFormedInode).1
  have outside := (abcImage_loaded.readData_exact 1 4096 7 (by decide) (by decide)).2
    (Nat.le_refl abcImage.numInodes)
  exact ⟨inside, outside⟩

/-! ## The clamp -/

/-- The reads for which the clamp to the end of the file goes wrong, by the
size of the file, the offset and the length: an offset inside the file whose
sum with the length wraps, and an offset of `2 ^ 31` or more that the block
index of the loop still admits and whose distance to the end of the file, or
whose unclamped length, is taken for a positive `int`. -/
def ClampFails (size offset length : Nat) : Prop :=
  (offset < size ∧ 4294967296 ≤ offset + length) ∨
    (2147483648 ≤ offset ∧ offset < 4096 * size ∧
      (size + 2147483648 < offset ∨
        (length < 2147483648 ∧ 4294967296 ≤ offset + length ∧
          offset + length - 4294967296 ≤ size)))

instance (size offset length : Nat) : Decidable (ClampFails size offset length) :=
  inferInstanceAs (Decidable (_ ∨ _))

/-- A read delivered the rest of the file from an offset on, and no copy used
an index outside `data[]`. -/
structure DeliversRest (fs : Volume) (image : Image) (inode offset buf : Nat)
    (result : ReadResult) : Prop where
  delivers : Delivers fs image inode offset buf
    (if offset < image.fileLength inode then image.fileLength inode - offset else 0) result
  index_lt : ∀ copy ∈ result.copies, copy.index < 1023

/-- With an offset or a length of `2 ^ 31` or more, or a sum that wraps, the
rest of the file is counted unless the clamp fails. -/
theorem Volume.readCount_rest_iff (fs : Volume) {inode offset length : Nat}
    (inodeLt : inode < uint32 fs.numInodes) (sizeLe : fs.inodeLength inode ≤ 1023 * 4096)
    (offsetLt : offset < 4294967296) (lengthLt : length < 4294967296)
    (large : 2147483648 ≤ offset ∨ 2147483648 ≤ length ∨ 4294967296 ≤ offset + length) :
    fs.readCount inode offset length = fs.inodeLength inode - offset ↔
      ¬ ClampFails (fs.inodeLength inode) offset length := by
  rw [readCount, if_neg (by omega), remainingLength]
  generalize fs.inodeLength inode = size at *
  have difference := int32_sub (a := size) (b := offset) (by omega) offsetLt
  unfold ClampFails
  by_cases beyond : (offset + length) % 4294967296 > size
  · rw [if_pos beyond, difference]
    split
    · omega
    · split <;> omega
  · rw [if_neg beyond]
    by_cases lengthSmall : length < 2147483648
    · -- The sum wraps to a value inside the file, so the length stays unclamped.
      have wraps : 4294967296 ≤ offset + length := by omega
      have inside : offset + length - 4294967296 ≤ size := by omega
      have behind : size ≤ offset := by omega
      rw [int32_of_lt lengthSmall, Int.toNat_natCast]
      clear beyond difference large
      omega
    · have negative : (int32 length).toNat = 0 := by
        unfold int32
        omega
      rw [negative]
      omega

namespace Loaded

variable {memory : Memory} {start : Nat} {image : Image} {inode : Nat}

/-- `read_data` survives wrap-around unless the clamp fails. -/
theorem readData_rest_iff (loaded : Loaded memory start image)
    (wellFormed : image.WellFormedInode inode) (offset buf length : Nat)
    (offsetLt : offset < 4294967296) (lengthLt : length < 4294967296)
    (large : 2147483648 ≤ offset ∨ 2147483648 ≤ length ∨ 4294967296 ≤ offset + length) :
    DeliversRest (filesysInit memory start) image inode offset buf
        ((filesysInit memory start).readData inode offset buf length) ↔
      ¬ ClampFails (image.fileLength inode) offset length := by
  have inodeLt := wellFormed.inode_lt
  rw [← loaded.uint32_numInodes] at inodeLt
  have lengthEq := loaded.inodeLength_eq wellFormed.inode_lt
  have sizeLe := wellFormed.length_le
  have count := (filesysInit memory start).readCount_rest_iff inodeLt (by omega) offsetLt lengthLt
    large
  rw [lengthEq] at count
  rw [← count]
  have rest : (if offset < image.fileLength inode then image.fileLength inode - offset else 0) =
      image.fileLength inode - offset := by
    split <;> omega
  constructor
  · rintro ⟨delivers, -⟩
    have value := delivers.value
    rw [((filesysInit memory start).readData_copies inode offset buf length).1,
      if_neg (by omega), rest] at value
    omega
  · intro exactly
    obtain ⟨delivers, copies⟩ := loaded.readData_delivers wellFormed offset buf length
      (Nat.le_of_eq exactly)
    constructor
    · rw [rest, ← exactly]
      exact delivers
    · intro copy member
      have inFile := (copies copy member).index_lt
      unfold Image.blockCount at inFile
      omega

end Loaded

/-- Reading with length `-1` at the start of the file delivers all of it. -/
theorem readData_rest_abc :
    DeliversRest (filesysInit abcImage.byte 0) abcImage 0 0 4096
      ((filesysInit abcImage.byte 0).readData 0 0 4096 4294967295) :=
  (abcImage_loaded.readData_rest_iff abcImage_wellFormedInode 0 4096 4294967295 (by decide)
    (by decide) (by decide)).mpr (by decide)

/-- Reading with length `-1` after the first byte delivers nothing. -/
theorem readData_rest_lost :
    Loaded abcImage.byte 0 abcImage ∧ abcImage.WellFormedInode 0 ∧ abcImage.fileLength 0 = 3 ∧
      ((filesysInit abcImage.byte 0).readData 0 1 4096 4294967295).value = 0 ∧
      ¬ DeliversRest (filesysInit abcImage.byte 0) abcImage 0 1 4096
        ((filesysInit abcImage.byte 0).readData 0 1 4096 4294967295) := by
  have nothing : ((filesysInit abcImage.byte 0).readData 0 1 4096 4294967295).value = 0 := by
    decide
  refine ⟨abcImage_loaded, abcImage_wellFormedInode, by decide, nothing, ?_⟩
  rintro ⟨delivers, -⟩
  have value := delivers.value
  rw [nothing] at value
  exact absurd value (by decide)

end PonyOS.FileSystem
