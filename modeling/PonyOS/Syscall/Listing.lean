import PonyOS.FileSystem.Names
import PonyOS.Syscall.Directory

/-!
# Listing and lookup

The names that directory reads deliver are those that lookup accepts.  A name of
`32` bytes leaves `dir_read` with a terminator that the entry does not have, and
goes back into `read_dentry_by_name`, which clamps it.  With distinct names the
entry found is the one that was listed.  The position in the directory is
followed through every event of the system: only opening or reading a directory
moves it, as long as no call is made to store over it.
-/

namespace PonyOS.Syscall

open PonyOS.FileSystem
open PonyOS.Lib.Transition
open PonyOS.Lib.Word
open PonyOS.Process
open PonyOS.Terminal

/-- A table of `count` entries whose names are not empty and tell them apart. -/
structure DistinctNames (fs : Volume) (count : Nat) : Prop where
  nonempty : ∀ i, i < count → (fs.dentryAt i).name ≠ []
  distinct : ∀ i, i < count → ∀ j, j < count →
    (fs.dentryAt i).name = (fs.dentryAt j).name → i = j

/-- What a directory read that comes after `reads` others answers: the length of
the next name, and a string whose lookup yields the entry of that index; or `0`
once all `count` names were returned. -/
def ListedSpec (fs : Volume) (count reads : Nat) (memory : Memory) (buf : Nat) (value : Int)
    (stores : List Store) : Prop :=
  if reads < count then
    0 < value ∧ value = (fs.dentryAt reads).name.length ∧
      fs.readDentryByIndex reads = some (fs.dentryAt reads) ∧
      fs.readDentryByName (stringAt (memoryAfter memory stores) buf) =
        fs.readDentryByIndex reads
  else value = 0 ∧ stores = []

/-- Directory reads since the latest open of a directory, after an event. -/
def sinceOpen (fs : Volume) (since : Option Nat) : SystemEvent → SystemReply → Option Nat
  | .call _ asked, .call reply => Enumeration.sinceAfter fs since asked reply
  | _, _ => since

/-- Every directory read answers by the directory reads since the latest open of
a directory. -/
def ListingSpec (fs : Volume) (count : Nat) (since : Option Nat) :
    SystemEvent → SystemReply → Prop
  | .call memory (.read _ buf _), .call reply =>
      ∀ reads, reply.called = some .dirReadWrapper → since = some reads →
        ListedSpec fs count reads memory buf reply.value reply.stores
  | _, _ => True

/-! ## Names that come back -/

theorem stringAt_stored (memory : Memory) (buf : Nat) (text : List UInt8)
    (short : text.length ≤ 32) :
    (stringAt (memoryAfter memory (storesAt buf (text ++ [0]))) buf).chars =
      text.takeWhile (· ≠ 0) := by
  have length : (text ++ [0]).length = text.length + 1 := by simp
  have bytes : ∀ i, i < text.length + 1 →
      load (memoryAfter memory (storesAt buf (text ++ [0]))) (buf + i) =
        (text ++ [0]).getD i 0 :=
    fun i inside => load_memoryAfter memory buf _ (by omega) (by omega)
  have room : text.length < addressSpace := by
    unfold addressSpace
    omega
  have stored := strlen_of_text room bytes
  have isPrefix : text.takeWhile (· ≠ 0) <+: text := List.takeWhile_prefix _
  have prefixLe := isPrefix.length_le
  have taken : text.takeWhile (· ≠ 0) = text.take (text.takeWhile (· ≠ 0)).length :=
    List.prefix_iff_eq_take.mp isPrefix
  simp only [stringAt, stored]
  generalize (text.takeWhile (· ≠ 0)).length = size at *
  rw [taken]
  apply List.ext_getElem?
  intro i
  by_cases inside : i < size
  · have inText : i < text.length := by omega
    have byte : (text ++ [0]).getD i 0 = text[i] := by
      rw [List.getD_eq_getElem?_getD, List.getElem?_append_left inText,
        List.getElem?_eq_getElem inText, Option.getD_some]
    rw [List.getElem?_take_of_lt inside, List.getElem?_eq_getElem inText, ← byte]
    simp [inside, bytes i (by omega)]
  · rw [List.getElem?_eq_none (by simp; omega), List.getElem?_eq_none (by simp; omega)]

/-- Every listed name finds its entry. -/
theorem DistinctNames.lookup {fs : Volume} {count index : Nat} (names : DistinctNames fs count)
    (counted : fs.numDirEntry = count) (inTable : index < count) {name : CString}
    (chars : name.chars = (fs.dentryAt index).name) :
    fs.readDentryByName name = some (fs.dentryAt index) := by
  have fieldLength : (fs.dentryAt index).fileName.length = 32 := by simp [Volume.dentryAt]
  have short : name.chars.length ≤ 32 := by
    rw [chars, ← fieldLength]
    exact (List.takeWhile_prefix _).length_le
  apply (fs.readDentryByName_eq_some_iff name _).mpr
  refine ⟨index, ⟨by omega, ?_, ?_⟩, rfl⟩
  · rw [List.take_of_length_le short, chars]
  · intro earlier before same
    rw [List.take_of_length_le short, chars] at same
    have equal := names.distinct earlier (by omega) index inTable same
    omega

/-- Entries repeat after `2 ^ 26` of them, so a table with distinct names is
small and its count is not negative. -/
theorem DistinctNames.count_eq {memory : Memory} {start : Nat}
    (names : DistinctNames (filesysInit memory start) (loadWord memory start)) :
    (filesysInit memory start).numDirEntry = loadWord memory start := by
  have small : loadWord memory start ≤ 67108864 := by
    by_contra large
    have same : ((filesysInit memory start).dentryAt 67108864).name =
        ((filesysInit memory start).dentryAt 0).name := by
      have field : ((filesysInit memory start).dentryAt 67108864).fileName =
          ((filesysInit memory start).dentryAt 0).fileName := by
        simp only [Volume.dentryAt, bytesAt, load, Volume.dentryAddress, filesysInit]
        apply List.map_congr_left
        intro i _
        congr 1
        omega
      rw [Dentry.name, field, Dentry.name]
    have equal := names.distinct 67108864 (by omega) 0 (by omega) same
    contradiction
  exact int32_of_lt (by omega)

/-! ## The position in the directory -/

/-- The file system and the position in the directory are the same. -/
structure SameListing (kernel target : Kernel) : Prop where
  fs : target.fs = kernel.fs
  dirIndex : target.currentDirReadIndex = kernel.currentDirReadIndex

namespace SameListing

variable {kernel target : Kernel}

theorem userStore {store : Store} (stored : Syscall.userStore kernel store = some target) :
    SameListing kernel target := by
  unfold Syscall.userStore at stored
  split at stored
  · cases stored
    exact ⟨rfl, rfl⟩
  · split at stored
    · cases stored
      exact ⟨rfl, rfl⟩
    · split at stored
      · contradiction
      · obtain ⟨desc, -, rfl⟩ := Option.map_eq_some_iff.mp stored
        exact ⟨rfl, rfl⟩

theorem userStores {stores : List Store}
    (stored : Syscall.userStores kernel stores = some target) : SameListing kernel target := by
  induction stores generalizing kernel with
  | nil =>
      cases stored
      exact ⟨rfl, rfl⟩
  | cons store rest ih =>
      obtain ⟨middle, first, later⟩ := Option.bind_eq_some_iff.mp stored
      have here := userStore first
      have there := ih later
      exact ⟨there.fs.trans here.fs, there.dirIndex.trans here.dirIndex⟩

theorem finish (kernel : Kernel) (pid : Nat) (call : Call) (tried : Attempt) :
    SameListing kernel (finish kernel pid call tried) := by
  unfold Syscall.finish
  split
  · unfold advance
    split
    · exact ⟨rfl, rfl⟩
    · exact ⟨rfl, rfl⟩
  · exact ⟨rfl, rfl⟩

end SameListing

theorem attempt_listing {kernel : Kernel} {pid : Nat} {memory : Memory} {call : Call}
    {tried : Attempt} (attempted : attempt kernel pid memory call = some tried) :
    tried.kernel.fs = kernel.fs ∧ tried.kernel.currentDirReadIndex =
      dirIndexAfter kernel.fs kernel.currentDirReadIndex call
        { pid := pid, value := tried.value, called := tried.called, stores := tried.stores } := by
  cases call with
  | read fd buf nbytes =>
      obtain ⟨same, dirIndex⟩ := read_same attempted
      exact ⟨same.fs, dirIndex⟩
  | write fd buf nbytes =>
      obtain ⟨same, dirIndex, -⟩ := write_same attempted
      exact ⟨same.fs, dirIndex⟩
  | openFile filename =>
      have triedEq := Option.some.inj attempted
      rcases openFile_cases kernel pid filename with
        ⟨-, opened⟩ | ⟨dentry, i, found, -, opened⟩
      · rw [← triedEq, opened]
        refine ⟨rfl, ?_⟩
        simp only [dirIndexAfter, refused]
        split <;> simp
      · rw [← triedEq, opened]
        have notFailed : (i : Int) ≠ -1 := by omega
        refine ⟨rfl, ?_⟩
        simp [dirIndexAfter, found, notFailed, takeDescriptor]
  | close fd =>
      rw [← Option.some.inj attempted, close]
      split
      · exact ⟨rfl, rfl⟩
      · exact ⟨rfl, rfl⟩
  | getargs buf nbytes =>
      rw [← Option.some.inj attempted, getargs_same]
      exact ⟨rfl, rfl⟩
  | vidmap screenstart =>
      rw [← Option.some.inj attempted, vidmap_same]
      exact ⟨rfl, rfl⟩

/-- A directory read at a known position lists the entry there. -/
theorem dirRead_listed {kernel : Kernel} {count reads : Nat}
    (names : DistinctNames kernel.fs count) (counted : kernel.fs.numDirEntry = count)
    (small : count < 2147483648) (position : AtEntry kernel reads) (memory : Memory) (buf : Nat) :
    ListedSpec kernel.fs count reads memory buf (dirRead kernel memory buf).value
      (dirRead kernel memory buf).stores := by
  unfold ListedSpec
  rcases dirRead_eq memory buf position (by omega) with
    ⟨left, value, stores⟩ | ⟨ended, value, stores⟩
  · have inTable : reads < count := by omega
    have nonempty := List.length_pos_iff.mpr (names.nonempty reads inTable)
    have byIndex : kernel.fs.readDentryByIndex reads = some (kernel.fs.dentryAt reads) := by
      rw [Volume.readDentryByIndex, counted, uint32_of_lt (by omega), if_neg (by omega)]
    have delivered : (stringAt (memoryAfter memory
        (storesAt buf ((kernel.fs.dentryAt reads).fileName ++ [0]))) buf).chars =
          (kernel.fs.dentryAt reads).name :=
      stringAt_stored memory buf _ (by simp [Volume.dentryAt])
    have positive : 0 < (dirRead kernel memory buf).value := by
      rw [value]
      exact Int.natCast_pos.mpr nonempty
    rw [if_pos inTable, stores, byIndex]
    exact ⟨positive, value, rfl, names.lookup counted inTable delivered⟩
  · rw [if_neg (by omega)]
    exact ⟨value, stores⟩

/-- The position is that of the directory reads observed. -/
structure Positioned (fs : Volume) (kernel : Kernel) (since : Option Nat) : Prop where
  volume : kernel.fs = fs
  position : ∀ reads, since = some reads → AtEntry kernel reads

theorem Positioned.of_same {fs : Volume} {kernel target : Kernel} {since : Option Nat}
    (positioned : Positioned fs kernel since) (same : SameListing kernel target) :
    Positioned fs target since := by
  constructor
  · exact same.fs.trans positioned.volume
  · intro reads counted
    rw [AtEntry, same.fs, same.dirIndex]
    exact positioned.position reads counted

/-- Every event of the system lists and keeps the position. -/
theorem Positioned.step {fs : Volume} {count : Nat} {kernel target : Kernel} {since : Option Nat}
    {event : SystemEvent} {reply : SystemReply} (names : DistinctNames fs count)
    (counted : fs.numDirEntry = count) (small : count < 2147483648)
    (positioned : Positioned fs kernel since)
    (stepped : systemStep kernel event = some (reply, target)) :
    ListingSpec fs count since event reply ∧
      Positioned fs target (sinceOpen fs since event reply) := by
  have volume := positioned.volume
  subst volume
  cases systemStep_cases stepped with
  | process event answer moved =>
      obtain ⟨sameFs, sameIndex⟩ := (processStep_moved moved).listing
      exact ⟨trivial, positioned.of_same ⟨sameFs, sameIndex⟩⟩
  | rtc targetEq =>
      subst targetEq
      exact ⟨trivial, positioned.of_same ⟨rfl, rfl⟩⟩
  | call pid memory asked answer isUser called =>
      obtain ⟨tried, stored, attempted, storedEq, answerEq, rfl⟩ := systemCall_eq_some called
      obtain ⟨sameFs, dirIndex⟩ := attempt_listing attempted
      have storing := SameListing.userStores storedEq
      have ending := SameListing.finish stored pid asked tried
      constructor
      · cases asked with
        | read fd buf nbytes =>
            intro reads throughDirectory sinceEq
            rw [answerEq] at throughDirectory ⊢
            rw [read_of_called attempted throughDirectory]
            exact dirRead_listed names counted small (positioned.position reads sinceEq)
              memory buf
        | _ => trivial
      · constructor
        · rw [ending.fs, storing.fs, sameFs]
        · intro reads sinceEq
          apply AtEntry.call (by omega) attempted answerEq _ _ positioned.position reads sinceEq
          · rw [ending.fs, storing.fs, sameFs]
          · rw [ending.dirIndex, storing.dirIndex, dirIndex, answerEq]

/-- Listing and lookup agree: on a table with distinct names, the directory
reads after an open of the directory list the entries in order and then answer
`0`, each name delivered finds the entry of its index, and there are no entries
beyond. -/
theorem listing_agrees {memory : Memory} {start : Nat} {kernel final : Kernel}
    {trace : List (SystemEvent × SystemReply)}
    (names : DistinctNames (filesysInit memory start) (loadWord memory start))
    (mounted : kernel.fs = filesysInit memory start) (run : Run systemStep kernel trace final) :
    Follows (sinceOpen (filesysInit memory start))
        (ListingSpec (filesysInit memory start) (loadWord memory start)) none trace ∧
      (∀ reads userMemory buf,
        observed (sinceOpen (filesysInit memory start)) none trace = some reads →
        ListedSpec (filesysInit memory start) (loadWord memory start) reads userMemory buf
          (dirRead final userMemory buf).value (dirRead final userMemory buf).stores) ∧
      ∀ index, loadWord memory start ≤ index →
        (filesysInit memory start).readDentryByIndex index = none := by
  have counted := names.count_eq
  have small : loadWord memory start < 2147483648 := by
    have bound := int32_lt (loadWord memory start)
    change int32 (loadWord memory start) = _ at counted
    omega
  have initial : Positioned (filesysInit memory start) kernel none := by
    refine ⟨mounted, ?_⟩
    rintro reads ⟨⟩
  obtain ⟨follows, positioned⟩ := run.simulation
    (ListingSpec (filesysInit memory start) (loadWord memory start))
    (Positioned (filesysInit memory start))
    (fun positioned _ _ stepped => positioned.step names counted small stepped)
    (follows_any _ _ _) initial
  refine ⟨follows, ?_, ?_⟩
  · intro reads userMemory buf sinceEq
    have volume := positioned.volume
    rw [← volume] at names counted ⊢
    exact dirRead_listed names counted small (positioned.position reads sinceEq) userMemory buf
  · intro index beyond
    rw [Volume.readDentryByIndex, counted, uint32_of_lt (by omega), if_pos beyond]

/-- The two names of the shell's directory. -/
theorem shellMemory_distinctNames :
    DistinctNames (filesysInit shellMemory 0x420000) (loadWord shellMemory 0x420000) := by
  have count : loadWord shellMemory 0x420000 = 2 := by decide
  rw [count]
  constructor
  · decide +kernel
  · decide +kernel

/-- The root shell lists its directory. -/
theorem listing_agrees_rootShell :
    ListedSpec shellKernel.fs 2 0 (fun _ => 0) 0x8000000
        (dirRead listingKernel (fun _ => 0) 0x8000000).value
        (dirRead listingKernel (fun _ => 0) 0x8000000).stores ∧
      shellKernel.fs.readDentryByIndex 2 = none := by
  have run : Run systemStep shellKernel
      [(launchEvent, .process none (.launched (.started 1 0))), (openDirectory, openedReply 2)]
      listingKernel :=
    .cons trivial launchedKernel_step (.cons trivial listingKernel_step (.nil _))
  obtain ⟨-, listed, beyond⟩ := listing_agrees shellMemory_distinctNames rfl run
  exact ⟨listed 0 _ _ (by decide +kernel), beyond 2 (by decide)⟩

end PonyOS.Syscall
