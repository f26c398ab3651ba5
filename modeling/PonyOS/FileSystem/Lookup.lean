import PonyOS.FileSystem.Image

/-!
# The mounted file system and name lookup

`filesys_init` records the three counts and the three pointers into the image;
every later access goes through them.  Lookup by name compares clamped string
lengths first and characters second, and returns the first entry that passes.
-/

namespace PonyOS.FileSystem

open PonyOS.Lib.Word

/-- A C string by its characters before the terminator. -/
structure CString where
  chars : List UInt8
  noNul : (0 : UInt8) ∉ chars
  deriving DecidableEq

namespace CString

/-- Character `i` of the string, with the terminator and beyond as zero. -/
def charAt (string : CString) (i : Nat) : UInt8 :=
  string.chars.getD i 0

end CString

/-- `strlen`: the number of characters before the first zero, looking at
`bound` characters at most. -/
def strlen (chars : Nat → UInt8) : Nat → Nat
  | 0 => 0
  | bound + 1 =>
      if chars 0 = 0 then 0 else strlen (fun i => chars (i + 1)) bound + 1

/-- No character of a string is zero. -/
theorem strlen_ne_zero {chars : Nat → UInt8} {bound i : Nat} (inside : i < strlen chars bound) :
    chars i ≠ 0 := by
  induction bound generalizing chars i with
  | zero => simp [strlen] at inside
  | succ bound ih =>
      rw [strlen] at inside
      split at inside
      · contradiction
      · next notNul =>
          cases i with
          | zero => exact notNul
          | succ i =>
              have later := ih (Nat.lt_of_succ_lt_succ inside)
              exact later

theorem strlen_le (chars : Nat → UInt8) (bound : Nat) : strlen chars bound ≤ bound := by
  induction bound generalizing chars with
  | zero => exact le_rfl
  | succ bound ih =>
      rw [strlen]
      split
      · exact Nat.zero_le _
      · exact Nat.succ_le_succ (ih _)

/-- A string that ends before the bound ends at a zero. -/
theorem strlen_zero {chars : Nat → UInt8} {bound : Nat} (ends : strlen chars bound < bound) :
    chars (strlen chars bound) = 0 := by
  induction bound generalizing chars with
  | zero => exact absurd ends (Nat.not_lt_zero _)
  | succ bound ih =>
      rw [strlen] at ends ⊢
      by_cases atOnce : chars 0 = 0
      · rw [if_pos atOnce]
        exact atOnce
      · rw [if_neg atOnce] at ends ⊢
        exact ih (Nat.lt_of_succ_lt_succ ends)

/-- A string is at most as long as the position of any zero. -/
theorem strlen_le_iff {chars : Nat → UInt8} {bound k : Nat} (inside : k < bound) :
    strlen chars bound ≤ k ↔ ∃ i, i ≤ k ∧ chars i = 0 := by
  constructor
  · intro short
    exact ⟨_, short, strlen_zero (Nat.lt_of_le_of_lt short inside)⟩
  · rintro ⟨i, isBelow, isZero⟩
    by_contra long
    exact strlen_ne_zero (Nat.lt_of_le_of_lt isBelow (Nat.lt_of_not_le long)) isZero

theorem strlen_ext {first second : Nat → UInt8} {bound : Nat}
    (same : ∀ k, k < bound → first k = second k) : strlen first bound = strlen second bound := by
  induction bound generalizing first second with
  | zero => rfl
  | succ bound ih =>
      have tail : strlen (fun i => first (i + 1)) bound = strlen (fun i => second (i + 1)) bound :=
        ih fun k inside => same (k + 1) (Nat.succ_lt_succ inside)
      rw [strlen, strlen, same 0 (Nat.zero_lt_succ bound), tail]

/-- A string ends where its first zero is, whatever follows. -/
theorem strlen_congr {first second : Nat → UInt8} {size : Nat} (bound : Nat)
    (same : ∀ k, k < size → first k = second k) (ends : ∃ k, k < size ∧ first k = 0) :
    strlen first bound = strlen second bound ∧ (strlen first bound < size ∨ bound = 0) := by
  induction bound generalizing first second size with
  | zero => exact ⟨rfl, .inr rfl⟩
  | succ bound ih =>
      obtain ⟨k, inside, isZero⟩ := ends
      rw [strlen, strlen, ← same 0 (Nat.zero_lt_of_lt inside)]
      by_cases atOnce : first 0 = 0
      · rw [if_pos atOnce, if_pos atOnce]
        exact ⟨rfl, .inl (Nat.zero_lt_of_lt inside)⟩
      · rw [if_neg atOnce, if_neg atOnce]
        have later : 0 < k := by
          rcases Nat.eq_zero_or_pos k with rfl | positive
          · exact absurd isZero atOnce
          · exact positive
        have tailSame : ∀ i, i < size - 1 →
            (fun i => first (i + 1)) i = (fun i => second (i + 1)) i := by
          intro i inTail
          exact same (i + 1) (by omega)
        have tailEnds : ∃ i, i < size - 1 ∧ (fun i => first (i + 1)) i = 0 := by
          refine ⟨k - 1, by omega, ?_⟩
          simp only [Nat.sub_add_cancel later]
          exact isZero
        obtain ⟨lengths, short⟩ := ih tailSame tailEnds
        refine ⟨by rw [lengths], .inl ?_⟩
        rcases short with fits | rfl
        · omega
        · simp only [strlen]
          omega

/-- Addresses that a string scan can visit. -/
def addressSpace : Nat := 4294967296

/-- A byte read as `int8_t`. -/
def signedByte (byte : UInt8) : Int :=
  if byte.toNat < 128 then byte.toNat else byte.toNat - 256

/-- `strncmp`: difference of the first characters that differ, or that end
both strings, among the first `n`. -/
def strncmp (first second : Nat → UInt8) : Nat → Int
  | 0 => 0
  | n + 1 =>
      if first 0 ≠ second 0 ∨ first 0 = 0 then
        signedByte (first 0) - signedByte (second 0)
      else
        strncmp (fun i => first (i + 1)) (fun i => second (i + 1)) n

/-- Globals of the file system after `filesys_init`, together with the memory
that its pointers range over. -/
structure Volume where
  memory : Memory
  numDirEntry : Int
  numInodes : Int
  numDataBlocks : Int
  dirTable : Nat
  inodeTable : Nat
  dataBlockStart : Nat

/-- `filesys_init` for an image that starts at `fileStart`. -/
def filesysInit (memory : Memory) (fileStart : Nat) : Volume :=
  let numInodes := int32 (loadWord memory (fileStart + 4))
  { memory := memory
    numDirEntry := int32 (loadWord memory fileStart)
    numInodes := numInodes
    numDataBlocks := int32 (loadWord memory (fileStart + 8))
    dirTable := fileStart + 64
    inodeTable := fileStart + 4096
    dataBlockStart := fileStart + uint32 (4096 * (numInodes + 1)) }

/-- A directory entry as `dentry_t` holds it. -/
structure Dentry where
  fileName : List UInt8
  fileType : Int
  inode : Int
  reserved : List UInt8
  deriving DecidableEq

namespace Volume

/-- Address of `dir_table[index]`. -/
def dentryAddress (fs : Volume) (index : Nat) : Nat :=
  fs.dirTable + 64 * index

/-- The characters from `dir_table[index].fileName` on; a name of 32
characters has no terminator of its own and runs into the next field. -/
def entryChars (fs : Volume) (index : Nat) : Nat → UInt8 :=
  fun i => load fs.memory (fs.dentryAddress index + i)

/-- All fields of `dir_table[index]`. -/
def dentryAt (fs : Volume) (index : Nat) : Dentry :=
  { fileName := bytesAt fs.memory (fs.dentryAddress index) 32
    fileType := int32 (loadWord fs.memory (fs.dentryAddress index + 32))
    inode := int32 (loadWord fs.memory (fs.dentryAddress index + 36))
    reserved := bytesAt fs.memory (fs.dentryAddress index + 40) 24 }

/-- The test that `read_dentry_by_name` makes for one entry. -/
def nameMatches (fs : Volume) (name : CString) (index : Nat) : Bool :=
  let l1 := min name.chars.length 32
  let l2 := min (strlen (fs.entryChars index) addressSpace) 32
  l1 = l2 && strncmp name.charAt (fs.entryChars index) l1 = 0

/-- `read_dentry_by_name`: `none` is the result `-1`, with the caller's dentry
untouched. -/
def readDentryByName (fs : Volume) (name : CString) : Option Dentry :=
  ((List.range fs.numDirEntry.toNat).find? (fs.nameMatches name)).map fs.dentryAt

/-- `read_dentry_by_index`; the comparison with the count is unsigned. -/
def readDentryByIndex (fs : Volume) (index : Nat) : Option Dentry :=
  if index ≥ uint32 fs.numDirEntry then none else some (fs.dentryAt index)

/-- A found entry is one of the table, at an index below the count. -/
theorem readDentryByName_eq_some {fs : Volume} {name : CString} {dentry : Dentry}
    (found : fs.readDentryByName name = some dentry) :
    ∃ index, index < fs.numDirEntry.toNat ∧ fs.nameMatches name index ∧
      dentry = fs.dentryAt index := by
  obtain ⟨index, search, rfl⟩ := Option.map_eq_some_iff.mp found
  refine ⟨index, ?_, List.find?_some search, rfl⟩
  simpa using List.mem_of_find?_eq_some search

end Volume

namespace Loaded

variable {memory : Memory} {start : Nat} {image : Image}

/-- The counts that `filesys_init` records are those of the image, once the
image fits the address space. -/
theorem numInodes_eq (loaded : Loaded memory start image) :
    (filesysInit memory start).numInodes = image.numInodes := by
  have word := loaded.word_eq 4 (by have := bootBlock_le_size image; omega)
  have small : image.numInodes < 2147483648 := by
    have fits := loaded.fits
    unfold Image.size at fits
    omega
  change int32 (loadWord memory (start + 4) : Nat) = _
  rw [word]
  exact int32_of_lt small

theorem numDirEntry_eq (loaded : Loaded memory start image)
    (wellFormed : image.WellFormed) :
    (filesysInit memory start).numDirEntry = image.numDirEntry := by
  have word := loaded.word_eq 0 (by have := bootBlock_le_size image; omega)
  have small : image.numDirEntry < 2147483648 := by
    have fits := wellFormed.entries_fit
    unfold Image.entryOffset at fits
    omega
  change int32 (loadWord memory start : Nat) = _
  rw [Nat.add_zero] at word
  rw [word]
  exact int32_of_lt small

theorem dataBlockStart_eq (loaded : Loaded memory start image) :
    (filesysInit memory start).dataBlockStart =
      start + 4096 * (1 + image.numInodes) := by
  have count := loaded.numInodes_eq
  have fits := loaded.fits
  unfold Image.size at fits
  change start + uint32 (4096 * ((filesysInit memory start).numInodes + 1)) = _
  rw [count]
  unfold uint32
  omega

theorem dentryAt_inode (loaded : Loaded memory start image)
    (wellFormed : image.WellFormed) {index : Nat} (bound : index < image.numDirEntry) :
    ((filesysInit memory start).dentryAt index).inode = int32 (image.entryInode index) ∧
      ((filesysInit memory start).dentryAt index).fileType =
        int32 (image.entryType index) := by
  have fits := wellFormed.entries_fit
  have boot := bootBlock_le_size image
  unfold Image.entryOffset at fits
  have typeWord := loaded.word_eq (Image.entryOffset index + 32)
    (by unfold Image.entryOffset; omega)
  have inodeWord := loaded.word_eq (Image.entryOffset index + 36)
    (by unfold Image.entryOffset; omega)
  have address : (filesysInit memory start).dentryAddress index =
      start + Image.entryOffset index := by
    simp only [Volume.dentryAddress, filesysInit, Image.entryOffset]
    omega
  constructor
  · rw [Image.entryInode, ← inodeWord, ← Nat.add_assoc, ← address]
    rfl
  · rw [Image.entryType, ← typeWord, ← Nat.add_assoc, ← address]
    rfl

end Loaded

end PonyOS.FileSystem
