import PonyOS.Lib.Block
import PonyOS.Lib.Word

/-!
# File-system images

An image is a boot block, one block for each inode, and the data blocks, all
of `4096` bytes.  The boot block holds the three counts and then the directory
entries, `64` bytes each.  This module says what the image format means,
independently of the code that reads it: the kernel's pointers and loops are
compared with these definitions later.
-/

namespace PonyOS.FileSystem

open PonyOS.Lib.Word

/-- The bytes of an image, by offset from its first byte. -/
structure Image where
  byte : Memory

namespace Image

/-- The little-endian word at an offset of the image. -/
def word (image : Image) (offset : Nat) : Nat :=
  (image.byte offset).toNat + 256 * (image.byte (offset + 1)).toNat +
    65536 * (image.byte (offset + 2)).toNat +
    16777216 * (image.byte (offset + 3)).toNat

/-- Number of directory entries. -/
def numDirEntry (image : Image) : Nat :=
  image.word 0

/-- Number of inodes. -/
def numInodes (image : Image) : Nat :=
  image.word 4

/-- Number of data blocks. -/
def numDataBlocks (image : Image) : Nat :=
  image.word 8

/-- Size in bytes of the whole image. -/
def size (image : Image) : Nat :=
  4096 * (1 + image.numInodes + image.numDataBlocks)

/-- Offset of a directory entry. -/
def entryOffset (index : Nat) : Nat :=
  64 + 64 * index

/-- File type recorded in a directory entry. -/
def entryType (image : Image) (index : Nat) : Nat :=
  image.word (entryOffset index + 32)

/-- Inode number recorded in a directory entry. -/
def entryInode (image : Image) (index : Nat) : Nat :=
  image.word (entryOffset index + 36)

/-- Length in bytes of the file of an inode. -/
def fileLength (image : Image) (inode : Nat) : Nat :=
  image.word (4096 * (1 + inode))

/-- The `j`-th data block number of an inode. -/
def blockNumber (image : Image) (inode j : Nat) : Nat :=
  image.word (4096 * (1 + inode) + 4 + 4 * j)

/-- Contents of a data block. -/
def block (image : Image) (number : Nat) : List UInt8 :=
  (List.range 4096).map fun k =>
    image.byte (4096 * (1 + image.numInodes + number) + k)

/-- Number of data blocks that the file of an inode uses. -/
def blockCount (image : Image) (inode : Nat) : Nat :=
  (image.fileLength inode + 4095) / 4096

/-- Contents of the file of an inode: as many bytes as its length says, from
the concatenation of its data blocks. -/
def fileBytes (image : Image) (inode : Nat) : List UInt8 :=
  ((List.range (image.blockCount inode)).flatMap fun j =>
    image.block (image.blockNumber inode j)).take (image.fileLength inode)

/-- File type of regular files. -/
def regularType : Nat := 2

/-- A well-formed image: the directory fits the boot block, every entry names
an inode, and the file of every regular entry has an admissible length and
uses existing data blocks only. -/
structure WellFormed (image : Image) : Prop where
  entries_fit : entryOffset image.numDirEntry ≤ 4096
  inode_lt : ∀ index, index < image.numDirEntry →
    image.entryInode index < image.numInodes
  length_le : ∀ index, index < image.numDirEntry →
    image.entryType index = regularType →
      image.fileLength (image.entryInode index) ≤ 1023 * 4096
  block_lt : ∀ index, index < image.numDirEntry →
    image.entryType index = regularType →
      ∀ j, j < image.blockCount (image.entryInode index) →
        image.blockNumber (image.entryInode index) j < image.numDataBlocks

@[simp]
theorem block_length (image : Image) (number : Nat) :
    (image.block number).length = 4096 := by
  simp [block]

theorem fileBytes_length (image : Image) (inode : Nat) :
    (image.fileBytes inode).length = image.fileLength inode := by
  rw [fileBytes, List.length_take,
    PonyOS.Lib.Block.length_flatMap_range _ 4096 _ (fun j _ => block_length image _)]
  unfold blockCount
  omega

/-- Each byte of a file lies in the block its position selects. -/
theorem fileBytes_getElem? (image : Image) (inode k : Nat)
    (bound : k < image.fileLength inode) :
    (image.fileBytes inode)[k]? =
      some (image.byte (4096 * (1 + image.numInodes +
        image.blockNumber inode (k / 4096)) + k % 4096)) := by
  have inBlocks : k < image.blockCount inode * 4096 := by
    unfold blockCount
    omega
  rw [fileBytes, List.getElem?_take_of_lt bound,
    PonyOS.Lib.Block.getElem?_flatMap_range _ 4096 _ k
      (fun j _ => block_length image _) inBlocks]
  have inBlock : k % 4096 < 4096 := Nat.mod_lt _ (by decide)
  simp [block, inBlock]

end Image

/-- An image occupies memory from a start address on. -/
structure Loaded (memory : Memory) (start : Nat) (image : Image) : Prop where
  fits : start + image.size < 4294967296
  same : ∀ k, k < image.size → load memory (start + k) = image.byte k

namespace Loaded

variable {memory : Memory} {start : Nat} {image : Image}

/-- A word inside the image is the word in memory. -/
theorem word_eq (loaded : Loaded memory start image) (offset : Nat)
    (inside : offset + 4 ≤ image.size) :
    loadWord memory (start + offset) = image.word offset := by
  have first := loaded.same offset (by omega)
  have second := loaded.same (offset + 1) (by omega)
  have third := loaded.same (offset + 2) (by omega)
  have fourth := loaded.same (offset + 3) (by omega)
  simp only [← Nat.add_assoc] at second third fourth
  rw [loadWord, Image.word, first, second, third, fourth]

/-- The boot block is always part of the image. -/
theorem bootBlock_le_size (image : Image) : 4096 ≤ image.size := by
  unfold Image.size
  omega

end Loaded

end PonyOS.FileSystem
