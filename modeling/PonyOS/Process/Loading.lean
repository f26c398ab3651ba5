import PonyOS.FileSystem.Exact
import PonyOS.Process.Executables
import PonyOS.Syscall.Files

/-!
# Loading a program

`load_executable` asks `read_data` for `max_int` bytes, so what it copies is the
whole file, whatever its length.  An inode holds up to 1023 blocks; from the
program's address to the end of the user page there is room for 952.
-/

namespace PonyOS.Process

open PonyOS.FileSystem
open PonyOS.Lib.Word
open PonyOS.Syscall

/-- The copies that `load_executable` asks for. -/
def programRead (fs : Volume) (fname : CString) : ReadResult :=
  fs.filesysReadByName fname userProgramAddr maxInt

/-- The load copied the whole file of an entry, and no byte outside the page. -/
structure CopiesWhole (fs : Volume) (image : Image) (fname : CString) (dentry : Dentry) :
    Prop where
  returned : loadExecutable fs fname userProgramAddr = some 0
  stores : fs.readStores (programRead fs fname) =
    storesAt userProgramAddr
      (fs.fileSlice (uint32 dentry.inode) 0 (image.fileLength (uint32 dentry.inode)))
  contents : dentry.fileType = regType →
    fs.fileSlice (uint32 dentry.inode) 0 (image.fileLength (uint32 dentry.inode)) =
      image.fileBytes (uint32 dentry.inode)
  inside : ∀ store ∈ fs.readStores (programRead fs fname),
    userProgramAddr ≤ store.address ∧ store.address < userPageEnd

/-- The load failed before any copy. -/
structure FailsClean (fs : Volume) (fname : CString) : Prop where
  returned : loadExecutable fs fname userProgramAddr = some (-1)
  copies : (programRead fs fname).copies = []

/-- One or the other. -/
def LoadsInside (fs : Volume) (image : Image) (fname : CString) : Prop :=
  (∃ dentry, fs.readDentryByName fname = some dentry ∧ CopiesWhole fs image fname dentry) ∨
    FailsClean fs fname

/-- The file that a name stands for, if there is one, fits behind the program's
address. -/
def FitsPage (fs : Volume) (image : Image) (fname : CString) : Prop :=
  ∀ dentry, fs.readDentryByName fname = some dentry →
    image.fileLength (uint32 dentry.inode) ≤ programRoom

theorem failsClean_of_absent {fs : Volume} {fname : CString}
    (absent : fs.readDentryByName fname = none) : FailsClean fs fname := by
  have nothing : fs.filesysReadByName fname userProgramAddr maxInt =
      { value := -1, copies := [] } := by
    rw [Volume.filesysReadByName, absent]
  constructor
  · rw [loadExecutable, nothing]
    rfl
  · rw [programRead, nothing]

section Load

variable {memory : Memory} {start : Nat} {image : Image} {fname : CString} {dentry : Dentry}

/-- The entries of a well-formed image have their inodes. -/
theorem inode_lt_of_found (loaded : Loaded memory start image) (wellFormed : image.WellFormed)
    (found : (filesysInit memory start).readDentryByName fname = some dentry) :
    uint32 dentry.inode < uint32 (filesysInit memory start).numInodes := by
  by_contra outside
  exact entriesHaveInodes_of_wellFormed loaded wellFormed fname
    ⟨dentry, found, Nat.le_of_not_lt outside⟩

/-- The length that the load goes by is that of the image. -/
theorem inodeLength_of_found (loaded : Loaded memory start image) (wellFormed : image.WellFormed)
    (found : (filesysInit memory start).readDentryByName fname = some dentry) :
    (filesysInit memory start).inodeLength (uint32 dentry.inode) =
      image.fileLength (uint32 dentry.inode) := by
  have inodeLt := inode_lt_of_found loaded wellFormed found
  rw [loaded.uint32_numInodes] at inodeLt
  exact loaded.inodeLength_eq inodeLt

/-- A file that fits is copied whole. -/
theorem copiesWhole_of_fits (loaded : Loaded memory start image) (wellFormed : image.WellFormed)
    (found : (filesysInit memory start).readDentryByName fname = some dentry)
    (fits : image.fileLength (uint32 dentry.inode) ≤ programRoom) :
    CopiesWhole (filesysInit memory start) image fname dentry := by
  have inodeLt := inode_lt_of_found loaded wellFormed found
  have lengthEq := inodeLength_of_found loaded wellFormed found
  have small : image.fileLength (uint32 dentry.inode) ≤ maxInt :=
    Nat.le_trans fits (by decide)
  have stores :
      (filesysInit memory start).readStores (programRead (filesysInit memory start) fname) =
      storesAt userProgramAddr ((filesysInit memory start).fileSlice (uint32 dentry.inode) 0
        (image.fileLength (uint32 dentry.inode))) := by
    rw [programRead, Volume.filesysReadByName, found]
    have spec := ((filesysInit memory start).readData_spec (uint32 dentry.inode) 0
      userProgramAddr maxInt).2
    rw [readCount_start inodeLt (by decide), lengthEq, Nat.min_eq_right small] at spec
    exact spec
  constructor
  case returned => rw [loadExecutable_eq found inodeLt, lengthEq, if_pos fits]
  case stores => exact stores
  case contents =>
    intro regular
    have file := regularFile_of_loaded loaded wellFormed found regular
    have length := image.fileBytes_length (uint32 dentry.inode)
    rw [file.slice 0 _ (by rw [length, Nat.zero_add]), List.drop_zero, ← length, List.take_length]
  case inside =>
    intro store member
    rw [stores] at member
    obtain ⟨i, inText, address⟩ := mem_storesAt_address.mp ⟨store, member, rfl⟩
    rw [Volume.fileSlice_length] at inText
    unfold programRoom userPageEnd userProgramAddr at *
    omega

/-- Nothing else than a file that fits stays inside. -/
theorem fitsPage_of_loadsInside (loaded : Loaded memory start image)
    (wellFormed : image.WellFormed) (inside : LoadsInside (filesysInit memory start) image fname) :
    FitsPage (filesysInit memory start) image fname := by
  intro dentry found
  have load := loadExecutable_eq found (inode_lt_of_found loaded wellFormed found)
  rw [inodeLength_of_found loaded wellFormed found] at load
  by_contra long
  rw [if_neg long] at load
  obtain ⟨other, -, whole⟩ | fails := inside
  · exact nomatch load.symm.trans whole.returned
  · exact nomatch load.symm.trans fails.returned

/-- A load stays inside the user page exactly if its file fits. -/
theorem loadExecutable_loadsInside_iff (loaded : Loaded memory start image)
    (wellFormed : image.WellFormed) (fname : CString) :
    LoadsInside (filesysInit memory start) image fname ↔
      FitsPage (filesysInit memory start) image fname := by
  constructor
  · exact fitsPage_of_loadsInside loaded wellFormed
  · intro fits
    cases found : (filesysInit memory start).readDentryByName fname with
    | some dentry =>
        exact Or.inl ⟨dentry, found,
          copiesWhole_of_fits loaded wellFormed found (fits dentry found)⟩
    | none => exact Or.inr (failsClean_of_absent found)

end Load

/-- The shell fits. -/
theorem loadExecutable_loadsInside_shell :
    LoadsInside (filesysInit shellMemory 0x420000) shellImage shellCommand := by
  apply (loadExecutable_loadsInside_iff shellMemory_loaded shellImage_wellFormed shellCommand).mpr
  intro dentry found
  have inodeLt := inode_lt_of_found shellMemory_loaded shellImage_wellFormed found
  have one : shellImage.numInodes = 1 := by decide
  rw [shellMemory_loaded.uint32_numInodes, one, Nat.lt_one_iff] at inodeLt
  rw [inodeLt]
  decide

/-- The nonzero bytes of an image with one program, `"x"`, of 1023 blocks, all of
them the one data block of the image. -/
def longBytes : List (Nat × UInt8) :=
  [(0, 1), (4, 1), (8, 1), (64, 120), (96, 2), (4097, 0xF0), (4098, 0x3F), (8192, 0x7f),
    (8193, 0x45), (8194, 0x4c), (8195, 0x46)]

/-- That image. -/
def longImage : Image :=
  { byte := fun k => (longBytes.lookup k).getD 0 }

/-- Every block of the file is the first. -/
theorem longImage_blockNumber {j : Nat} (inInode : j < 1023) : longImage.blockNumber 0 j = 0 := by
  have zero : ∀ k, 4099 ≤ k → k < 8192 → longImage.byte k = 0 := by
    intro k low high
    have absent : longBytes.lookup k = none := by
      rw [List.lookup_eq_none_iff]
      intro entry member
      have places : entry.1 < 4099 ∨ 8192 ≤ entry.1 := by
        revert entry
        decide
      rw [bne_iff_ne]
      omega
    have byte : longImage.byte k = (longBytes.lookup k).getD 0 := rfl
    rw [byte, absent]
    rfl
  rw [Image.blockNumber, Image.word, zero _ (by omega) (by omega), zero _ (by omega) (by omega),
    zero _ (by omega) (by omega), zero _ (by omega) (by omega)]
  rfl

theorem longImage_wellFormed : longImage.WellFormed := by
  have inode : ∀ index, index < longImage.numDirEntry → longImage.entryInode index = 0 := by decide
  constructor
  case entries_fit => decide
  case inode_lt => decide
  case length_le => decide
  case block_lt =>
    intro index bound _ j inFile
    rw [inode index bound] at inFile ⊢
    have blocks : longImage.blockCount 0 = 1023 := by decide
    rw [longImage_blockNumber (by omega)]
    decide

theorem longImage_loaded : Loaded longImage.byte 0 longImage := by
  constructor
  · decide
  · intro k bound
    have size : longImage.size = 12288 := by decide
    rw [load, Nat.zero_add, Nat.mod_eq_of_lt (by omega)]

/-- A program of the largest size passes the check of `execute` and is copied
beyond the end of the user page. -/
theorem loadExecutable_leaves_page :
    Loaded longImage.byte 0 longImage ∧ longImage.WellFormed ∧
      isExecutable (readHeader (filesysInit longImage.byte 0) danglingCommand fun _ => 0) = true ∧
      ¬ LoadsInside (filesysInit longImage.byte 0) longImage danglingCommand := by
  refine ⟨longImage_loaded, longImage_wellFormed, by decide +kernel, ?_⟩
  intro inside
  have fits := fitsPage_of_loadsInside longImage_loaded longImage_wellFormed inside
    ((filesysInit longImage.byte 0).dentryAt 0) (by decide +kernel)
  exact absurd fits (by decide +kernel)

end PonyOS.Process
