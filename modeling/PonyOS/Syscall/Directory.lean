import Mathlib.Data.List.Induction
import PonyOS.Syscall.Descriptors
import PonyOS.Syscall.Files

/-!
# Enumeration of the directory

A read through a directory descriptor is meant to return the next name.  The
position lives outside the descriptors, in one variable that every open of a
directory resets and every directory read advances.  An observer counts, from
the trace alone, the reads through each directory descriptor since its open and
the directory reads since the latest open of a directory.  As long as the two
counts agree whenever a directory is read, every descriptor enumerates the
entries in order.
-/

namespace PonyOS.Syscall

open PonyOS.FileSystem
open PonyOS.Lib.Transition
open PonyOS.Lib.Word
open PonyOS.Process
open PonyOS.Terminal

/-- Name of a directory entry. -/
def entryName (fs : Volume) (index : Nat) : List UInt8 :=
  (fs.dentryAt index).fileName.takeWhile (· ≠ 0)

/-- Reads through each directory descriptor since its open, and directory reads
since the latest open of a directory, if there was one. -/
structure Enumeration where
  own : DescriptorMap Nat
  since : Option Nat

namespace Enumeration

/-- Nothing is open. -/
def initial : Enumeration :=
  { own := DescriptorMap.empty, since := none }

/-- The counts of the caller after a call, by its result. -/
def ownAfter (fs : Volume) (own : Nat → Option Nat) (call : Call) (value : Int) :
    Nat → Option Nat :=
  if value = -1 then own
  else
    match call with
    | .openFile filename =>
        match fs.readDentryByName filename with
        | none => own
        | some dentry =>
            Function.update own value.toNat (if dentry.fileType = dirType then some 0 else none)
    | .close fd => Function.update own fd.toNat none
    | .read fd _ _ => Function.update own fd.toNat ((own fd.toNat).map (· + 1))
    | _ => own

/-- The directory reads since the latest open of a directory, after a call. -/
def sinceAfter (fs : Volume) (since : Option Nat) (call : Call) (reply : CallReply) :
    Option Nat :=
  match call with
  | .read _ _ _ => if reply.called = some .dirReadWrapper then since.map (· + 1) else since
  | .openFile filename =>
      match fs.readDentryByName filename with
      | none => since
      | some dentry => if reply.value ≠ -1 ∧ dentry.fileType = dirType then some 0 else since
  | _ => since

/-- The observer. -/
def observe (fs : Volume) (seen : Enumeration) : SystemEvent → SystemReply → Enumeration
  | .call _ asked, .call reply =>
      { own := Function.update seen.own reply.pid
          (ownAfter fs (seen.own reply.pid) asked reply.value)
        since := sinceAfter fs seen.since asked reply }
  | _, .process caller reply => { seen with own := seen.own.afterProcess caller reply }
  | _, _ => seen

end Enumeration

/-- The answer to a directory read after `count` others: the next name, or `0`
once all of them were returned. -/
def EntrySpec (fs : Volume) (count buf : Nat) (reply : CallReply) : Prop :=
  if count < fs.numDirEntry.toNat then
    0 < reply.value ∧ reply.value = (entryName fs count).length ∧
      reply.stores = storesAt buf ((fs.dentryAt count).fileName ++ [0])
  else reply.value = 0 ∧ reply.stores = []

/-- Every read through a directory descriptor answers by the reads through the
same descriptor. -/
def DirectorySpec (fs : Volume) (seen : Enumeration) : SystemEvent → SystemReply → Prop
  | .call _ (.read fd buf _), .call reply =>
      ∀ count, seen.own reply.pid fd.toNat = some count → EntrySpec fs count buf reply
  | _, _ => True

/-- A directory is read only while the directory reads since the latest open of
a directory are as many as those through the same descriptor, or both have
reached the end. -/
def inStep (fs : Volume) (seen : Enumeration) : SystemEvent → SystemReply → Prop
  | .call _ (.read fd _ _), .call reply =>
      ∀ count since, seen.own reply.pid fd.toNat = some count → seen.since = some since →
        min since fs.numDirEntry.toNat = min count fs.numDirEntry.toNat
  | _, _ => True

/-! ## Lengths of names -/

/-- The bytes that consecutive stores leave. -/
theorem load_memoryAfter (memory : Memory) (dest : Nat) (bytes : List UInt8)
    (short : bytes.length ≤ 4294967296) {i : Nat} (inside : i < bytes.length) :
    load (memoryAfter memory (storesAt dest bytes)) (dest + i) = bytes.getD i 0 := by
  rw [load, memoryAfter, foldl_storesAt memory dest bytes short (by omega), if_pos inside]

theorem load_memoryAfter_beyond (memory : Memory) (dest : Nat) (bytes : List UInt8) {i : Nat}
    (beyond : bytes.length ≤ i) (inside : i < 4294967296) :
    load (memoryAfter memory (storesAt dest bytes)) (dest + i) = load memory (dest + i) := by
  rw [load, memoryAfter, foldl_storesAt memory dest bytes (by omega) inside, if_neg (by omega)]
  rfl

/-- A terminated text is as long as its characters before the first zero. -/
theorem strlen_of_text {chars : Nat → UInt8} {text : List UInt8} {bound : Nat}
    (room : text.length < bound)
    (same : ∀ i, i < text.length + 1 → chars i = (text ++ [0]).getD i 0) :
    strlen chars bound = (text.takeWhile (· ≠ 0)).length := by
  induction text generalizing chars bound with
  | nil =>
      obtain ⟨bound, rfl⟩ := Nat.exists_eq_succ_of_ne_zero (Nat.ne_of_gt room)
      have ends : chars 0 = 0 := same 0 Nat.zero_lt_one
      simp [strlen, ends]
  | cons char text ih =>
      obtain ⟨bound, rfl⟩ := Nat.exists_eq_succ_of_ne_zero (Nat.ne_of_gt (Nat.zero_lt_of_lt room))
      have first : chars 0 = char := same 0 (Nat.succ_pos _)
      rw [strlen, first]
      by_cases isNul : char = 0
      · simp [isNul]
      · have tail : strlen (fun i => chars (i + 1)) bound = (text.takeWhile (· ≠ 0)).length :=
          ih (Nat.lt_of_succ_lt_succ room) fun i inside => same (i + 1) (Nat.succ_lt_succ inside)
        rw [if_neg isNul, tail]
        simp [isNul]

/-- `strlen` of a name that was just stored with its terminator. -/
theorem strlenAt_name (memory : Memory) (buf : Nat) (text : List UInt8)
    (short : text.length ≤ 32) :
    strlenAt (memoryAfter memory (storesAt buf (text ++ [0]))) buf =
      ((text.takeWhile (· ≠ 0)).length : Nat) := by
  have length : (text ++ [0]).length = text.length + 1 := by simp
  have stored : strlen (fun i => load (memoryAfter memory (storesAt buf (text ++ [0]))) (buf + i))
      addressSpace = (text.takeWhile (· ≠ 0)).length := by
    apply strlen_of_text
    · unfold addressSpace
      omega
    · intro i inside
      exact load_memoryAfter memory buf _ (by omega) (by omega)
  have prefixLe := (List.takeWhile_prefix (l := text) (· ≠ 0)).length_le
  rw [strlenAt, stored]
  exact int32_of_lt (by omega)

/-! ## One directory read -/

/-- The state in which `reads` directory reads have been made since the latest
open of a directory. -/
def AtEntry (kernel : Kernel) (reads : Nat) : Prop :=
  kernel.currentDirReadIndex = (min reads kernel.fs.numDirEntry.toNat : Nat)

theorem dirRead_eq {kernel : Kernel} {reads : Nat} (memory : Memory) (buf : Nat)
    (position : AtEntry kernel reads) (small : kernel.fs.numDirEntry < 2147483648) :
    (reads < kernel.fs.numDirEntry.toNat ∧
        (dirRead kernel memory buf).value = (entryName kernel.fs reads).length ∧
        (dirRead kernel memory buf).stores =
          storesAt buf ((kernel.fs.dentryAt reads).fileName ++ [0])) ∨
      (kernel.fs.numDirEntry.toNat ≤ reads ∧ (dirRead kernel memory buf).value = 0 ∧
        (dirRead kernel memory buf).stores = []) := by
  unfold AtEntry at position
  by_cases left : reads < kernel.fs.numDirEntry.toNat
  · have index : kernel.currentDirReadIndex = reads := by omega
    have notEnded : ¬ kernel.currentDirReadIndex ≥ kernel.fs.numDirEntry := by omega
    have entry : kernel.fs.readDentryByIndex (uint32 kernel.currentDirReadIndex) =
        some (kernel.fs.dentryAt reads) := by
      rw [index, uint32_of_lt (by omega), Volume.readDentryByIndex, if_neg]
      unfold uint32
      omega
    left
    simp only [dirRead, notEnded, if_false, entry]
    exact ⟨left, strlenAt_name memory buf _ (by simp [Volume.dentryAt]), trivial⟩
  · have ended : kernel.currentDirReadIndex ≥ kernel.fs.numDirEntry := by omega
    right
    simp only [dirRead, ended, if_true]
    exact ⟨by omega, trivial, trivial⟩

theorem read_of_called {kernel : Kernel} {pid : Nat} {memory : Memory} {fd : Int} {buf : Nat}
    {nbytes : Int} {tried : Attempt} (attempted : read kernel pid memory fd buf nbytes = some tried)
    (called : tried.called = some .dirReadWrapper) : tried = dirRead kernel memory buf := by
  rcases read_cases attempted with ⟨-, rfl⟩ | ⟨-, -, through⟩
  · contradiction
  · cases callRead_cases through with
    | terminal isTerminal ready => cases Option.some.inj called
    | rtc isRtc ticked => cases Option.some.inj called
    | file isFile => cases Option.some.inj called
    | directory isDirectory => rfl

/-- A read of an open directory descriptor goes through `dir_read`. -/
theorem read_directory {kernel : Kernel} {pid : Nat} (memory : Memory) {fd : Int} (buf : Nat)
    (nbytes : Int) (lower : 2 ≤ fd.toNat) (upper : fd.toNat < 8)
    (isOpen : ((kernel.pcb pid).fileArray fd.toNat).flags = 1)
    (handler : ((kernel.pcb pid).fileArray fd.toNat).read = .dirReadWrapper) :
    read kernel pid memory fd buf nbytes = some (dirRead kernel memory buf) := by
  have valid : ¬ (fd ≥ fdtSize ∨ fd < 0 ∨ fd = 1) := by
    unfold fdtSize
    omega
  simp [read, valid, isOpen, callRead, handler]

/-! ## Directory descriptors -/

/-- The descriptors that have a count are open directories. -/
structure Listed (fileArray : Nat → FileDesc) (own : Nat → Option Nat) : Prop where
  stdin : (fileArray 0).flags = 1
  stdout : (fileArray 1).flags = 1
  opened : ∀ fd count, own fd = some count →
    2 ≤ fd ∧ fd < 8 ∧ (fileArray fd).flags = 1 ∧ (fileArray fd).read = .dirReadWrapper

theorem pcbInit_listed (pcb : Pcb) (pid : Nat) :
    Listed (pcbInit pcb pid).fileArray fun _ => none := by
  constructor
  · rfl
  · rfl
  · intro fd count impossible
    contradiction

theorem Listed.call {kernel : Kernel} {pid : Nat} {memory : Memory} {call : Call}
    {tried : Attempt} {own : Nat → Option Nat} (listed : Listed (kernel.pcb pid).fileArray own)
    (attempted : attempt kernel pid memory call = some tried) :
    Listed (filesAfter kernel.fs (kernel.pcb pid).fileArray call tried.value)
      (Enumeration.ownAfter kernel.fs own call tried.value) := by
  constructor
  · exact filesAfter_flags attempted (by decide) listed.stdin
  · exact filesAfter_flags attempted (by decide) listed.stdout
  · intro fd count counted
    by_cases failed : tried.value = -1
    · simp only [Enumeration.ownAfter, failed, if_true] at counted
      simp only [filesAfter, failed, if_true]
      exact listed.opened fd count counted
    · cases call with
      | read asked buf nbytes =>
          simp only [Enumeration.ownAfter, filesAfter, failed, if_false] at counted ⊢
          by_cases here : fd = asked.toNat
          · subst here
            rw [Function.update_self] at counted ⊢
            obtain ⟨before, counted, -⟩ := Option.map_eq_some_iff.mp counted
            exact listed.opened _ before counted
          · rw [Function.update_of_ne here] at counted ⊢
            exact listed.opened fd count counted
      | openFile filename =>
          rw [← Option.some.inj attempted] at failed counted ⊢
          obtain ⟨taken, value, upper, clear⟩ := openFile_value failed
          have lower := two_le_of_free listed.stdin listed.stdout clear
          simp only [Enumeration.ownAfter, filesAfter, failed, if_false] at counted ⊢
          cases found : kernel.fs.readDentryByName filename with
          | none =>
              simp only [found] at counted ⊢
              exact listed.opened fd count counted
          | some dentry =>
              simp only [found, value, Int.toNat_natCast] at counted ⊢
              by_cases here : fd = taken
              · rw [here, Function.update_self] at counted ⊢
                split at counted
                · next isDirectory =>
                    refine ⟨lower, upper, ?_⟩
                    simp only [openedDescriptor, isDirectory]
                    exact ⟨rfl, rfl⟩
                · contradiction
              · rw [Function.update_of_ne here] at counted ⊢
                exact listed.opened fd count counted
      | close asked =>
          simp only [Enumeration.ownAfter, filesAfter, failed, if_false] at counted ⊢
          by_cases here : fd = asked.toNat
          · rw [here, Function.update_self] at counted
            contradiction
          · rw [Function.update_of_ne here] at counted ⊢
            exact listed.opened fd count counted
      | _ =>
          simp only [Enumeration.ownAfter, filesAfter, failed, if_false] at counted ⊢
          exact listed.opened fd count counted

/-! ## Whole runs -/

/-- The kernel agrees with the counts. -/
structure Enumerates (fs : Volume) (kernel : Kernel) (seen : Enumeration) : Prop where
  known : PidsKnown kernel
  volume : kernel.fs = fs
  tables : Tabulates Listed kernel seen.own
  position : ∀ reads, seen.since = some reads → AtEntry kernel reads
  begun : ∀ pid fd, seen.own pid fd ≠ none → seen.since ≠ none

/-- The position after a call is that of the count after it. -/
theorem AtEntry.call {kernel target : Kernel} {pid : Nat} {memory : Memory} {call : Call}
    {tried : Attempt} {reply : CallReply} {since : Option Nat}
    (small : kernel.fs.numDirEntry < 2147483648)
    (attempted : attempt kernel pid memory call = some tried)
    (replyEq : reply =
      { pid := pid, value := tried.value, called := tried.called, stores := tried.stores })
    (volume : target.fs = kernel.fs)
    (dirIndex : target.currentDirReadIndex =
      dirIndexAfter kernel.fs kernel.currentDirReadIndex call reply)
    (before : ∀ reads, since = some reads → AtEntry kernel reads) (reads : Nat)
    (counted : Enumeration.sinceAfter kernel.fs since call reply = some reads) :
    AtEntry target reads := by
  unfold AtEntry
  rw [volume, dirIndex]
  cases call with
  | read fd buf nbytes =>
      simp only [Enumeration.sinceAfter, dirIndexAfter] at counted ⊢
      by_cases called : reply.called = some .dirReadWrapper
      · rw [if_pos called] at counted
        obtain ⟨earlier, sinceEq, rfl⟩ := Option.map_eq_some_iff.mp counted
        have position := before earlier sinceEq
        have triedEq : tried = dirRead kernel memory buf :=
          read_of_called attempted (by rw [← called, replyEq])
        have storesEq : reply.stores = (dirRead kernel memory buf).stores := by
          rw [replyEq, triedEq]
        rcases dirRead_eq memory buf position small with ⟨left, -, stores⟩ | ⟨ended, -, stores⟩
        · have nonempty : reply.stores ≠ [] := by
            intro empty
            rw [storesEq, stores] at empty
            have length := congrArg List.length empty
            simp at length
          rw [if_pos ⟨called, nonempty⟩, position]
          omega
        · have nothing : reply.stores = [] := storesEq.trans stores
          rw [if_neg (fun both => both.2 nothing), position]
          omega
      · rw [if_neg called] at counted
        rw [if_neg (fun both => called both.1)]
        exact before reads counted
  | openFile filename =>
      simp only [Enumeration.sinceAfter, dirIndexAfter] at counted ⊢
      cases found : kernel.fs.readDentryByName filename with
      | none =>
          simp only [found] at counted ⊢
          exact before reads counted
      | some dentry =>
          simp only [found] at counted ⊢
          by_cases opensDirectory : reply.value ≠ -1 ∧ dentry.fileType = dirType
          · rw [if_pos opensDirectory] at counted ⊢
            cases counted
            rw [Nat.zero_min]
            rfl
          · rw [if_neg opensDirectory] at counted ⊢
            exact before reads counted
  | write fd buf nbytes => exact before reads counted
  | close fd => exact before reads counted
  | getargs buf nbytes => exact before reads counted
  | vidmap screenstart => exact before reads counted

/-- Once a directory was opened, reads are counted. -/
theorem Enumeration.sinceAfter_ne_none {fs : Volume} {call : Call} {reply : CallReply}
    {since : Option Nat} (started : since ≠ none) : sinceAfter fs since call reply ≠ none := by
  cases call with
  | read asked buf nbytes =>
      simp only [sinceAfter]
      split
      · simpa using started
      · exact started
  | openFile filename =>
      simp only [sinceAfter]
      split
      · exact started
      · split
        · exact Option.some_ne_none 0
        · exact started
  | _ => exact started

/-- A descriptor has a count only after a directory was opened. -/
theorem Enumeration.ownAfter_begun {fs : Volume} {call : Call} {reply : CallReply}
    {since : Option Nat} {own : Nat → Option Nat} (begun : ∀ fd, own fd ≠ none → since ≠ none)
    (fd : Nat) (counted : ownAfter fs own call reply.value fd ≠ none) :
    sinceAfter fs since call reply ≠ none := by
  by_cases wasCounted : own fd ≠ none
  · exact sinceAfter_ne_none (begun fd wasCounted)
  · -- Only the open of a directory makes a count.
    have nothing := not_not.mp wasCounted
    have updated : ∀ other value, Function.update own other value fd ≠ none →
        value ≠ none ∧ fd = other := by
      intro other value changed
      by_cases here : fd = other
      · rw [here, Function.update_self] at changed
        exact ⟨changed, here⟩
      · rw [Function.update_of_ne here] at changed
        exact absurd nothing changed
    unfold ownAfter at counted
    split at counted
    · exact absurd nothing counted
    · next success =>
        cases call with
        | read asked buf nbytes =>
            obtain ⟨counts, here⟩ := updated _ _ counted
            rw [← here, nothing] at counts
            exact absurd rfl counts
        | openFile filename =>
            simp only [sinceAfter] at counted ⊢
            cases found : fs.readDentryByName filename with
            | none =>
                simp only [found] at counted
                exact absurd nothing counted
            | some dentry =>
                simp only [found] at counted ⊢
                obtain ⟨isDirectory, -⟩ := updated _ _ counted
                have both : reply.value ≠ -1 ∧ dentry.fileType = dirType :=
                  ⟨success, by simpa using isDirectory⟩
                rw [if_pos both]
                exact Option.some_ne_none 0
        | close asked => exact absurd rfl (updated _ _ counted).1
        | write asked buf nbytes => exact absurd nothing counted
        | getargs buf nbytes => exact absurd nothing counted
        | vidmap screenstart => exact absurd nothing counted

/-- A read through a directory descriptor that keeps in step returns the next
name. -/
theorem Enumerates.read {fs : Volume} {kernel : Kernel} {seen : Enumeration} {pid : Nat}
    {memory : Memory} {fd : Int} {buf : Nat} {nbytes : Int} {tried : Attempt} {count : Nat}
    (enumerates : Enumerates fs kernel seen) (small : fs.numDirEntry < 2147483648)
    (names : ∀ index, index < fs.numDirEntry.toNat → entryName fs index ≠ [])
    (isRunning : kernel.processStatus pid = true)
    (attempted : read kernel pid memory fd buf nbytes = some tried)
    (counted : seen.own pid fd.toNat = some count)
    (agrees : ∀ since, seen.since = some since →
      min since fs.numDirEntry.toNat = min count fs.numDirEntry.toNat) :
    EntrySpec fs count buf
      { pid := pid, value := tried.value, called := tried.called, stores := tried.stores } := by
  obtain ⟨lower, upper, isOpen, handler⟩ :=
    (enumerates.tables.running pid isRunning).opened fd.toNat count counted
  have started := enumerates.begun pid fd.toNat (by rw [counted]; exact Option.some_ne_none count)
  obtain ⟨since, sinceEq⟩ := Option.ne_none_iff_exists'.mp started
  have volume := enumerates.volume
  subst volume
  have position : AtEntry kernel count := by
    rw [AtEntry, enumerates.position since sinceEq, agrees since sinceEq]
  rw [read_directory memory buf nbytes lower upper isOpen handler] at attempted
  rw [← Option.some.inj attempted]
  unfold EntrySpec
  rcases dirRead_eq memory buf position small with ⟨left, value, stores⟩ | ⟨ended, value, stores⟩
  · rw [if_pos left]
    refine ⟨?_, value, stores⟩
    have nonempty := List.length_pos_iff.mpr (names count left)
    change 0 < (dirRead kernel memory buf).value
    rw [value]
    omega
  · rw [if_neg (Nat.not_lt.mpr ended)]
    exact ⟨value, stores⟩

/-- Every event that keeps in step meets the specification and keeps the
counts. -/
theorem Enumerates.step {fs : Volume} {kernel target : Kernel} {seen : Enumeration}
    {event : SystemEvent} {reply : SystemReply} (enumerates : Enumerates fs kernel seen)
    (small : fs.numDirEntry < 2147483648)
    (names : ∀ index, index < fs.numDirEntry.toNat → entryName fs index ≠ [])
    (agrees : inStep fs seen event reply) (effect : SystemEffect kernel target event reply) :
    DirectorySpec fs seen event reply ∧ Enumerates fs target (seen.observe fs event reply) := by
  have known := effect.known enumerates.known
  have volume := effect.fs.trans enumerates.volume
  cases effect with
  | process event reply effect =>
      have tables := enumerates.tables.process pcbInit_listed effect
      have position : ∀ reads, seen.since = some reads → AtEntry target reads := by
        intro reads counted
        rw [AtEntry, effect.dirIndex, effect.fs]
        exact enumerates.position reads counted
      have begun : ∀ pid fd, seen.own.afterProcess kernel.userProcess reply pid fd ≠ none →
          seen.since ≠ none := by
        intro pid fd counted
        rw [DescriptorMap.afterProcess_apply] at counted
        split at counted
        · exact absurd rfl counted
        · exact enumerates.begun pid fd counted
      cases event <;> exact ⟨trivial, known, volume, tables, position, begun⟩
  | call memory asked pid reply tried isUser attempted replyEq effect =>
      have isRunning := (Kernel.userProcess_eq_some.mp isUser).2
      have caller := effect.caller
      have sameVolume := enumerates.volume
      constructor
      · cases asked with
        | read fd buf nbytes =>
            intro count counted
            rw [caller] at counted
            rw [replyEq]
            apply enumerates.read small names isRunning attempted counted
            intro since sinceEq
            exact agrees count since (by rw [caller, counted]) sinceEq
        | _ => trivial
      · constructor
        · exact known
        · exact volume
        · have listed := (enumerates.tables.running pid isRunning).call attempted
          have value : tried.value = reply.value := by rw [replyEq]
          rw [value] at listed
          have tables := enumerates.tables.call isRunning effect listed
          rw [sameVolume] at tables
          simp only [Enumeration.observe, caller]
          exact tables
        · intro reads counted
          rw [← sameVolume] at small
          apply AtEntry.call small attempted replyEq effect.fs effect.dirIndex enumerates.position
          rw [sameVolume]
          exact counted
        · intro other fd counted
          simp only [Enumeration.observe] at counted ⊢
          by_cases own : other = reply.pid
          · rw [own, Function.update_self] at counted
            exact Enumeration.ownAfter_begun (enumerates.begun reply.pid) fd counted
          · rw [Function.update_of_ne own] at counted
            exact Enumeration.sinceAfter_ne_none (enumerates.begun other fd counted)
  | rtc targetEq =>
      rw [targetEq] at known volume ⊢
      exact ⟨trivial, known, volume, ⟨enumerates.tables.running, enumerates.tables.stopped⟩,
        enumerates.position, enumerates.begun⟩

/-- In every run that keeps in step, every directory descriptor enumerates the
entries of the image in order, each once, and then answers `0`; and its reads
return. -/
theorem directories_enumerate {memory screen : Memory} {start : Nat}
    {paging : PonyOS.Paging.PageTables} {printBuffer argBuf fname : Nat → UInt8}
    {currentDirReadIndex : Int} {trace : List (SystemEvent × SystemReply)} {final : Kernel}
    (names : ∀ index, index < (filesysInit memory start).numDirEntry.toNat →
      entryName (filesysInit memory start) index ≠ [])
    (run : GuardedRun systemStep userBuffers
      (Kernel.boot (filesysInit memory start) paging screen printBuffer argBuf fname
        currentDirReadIndex) trace final)
    (agrees : Follows (Enumeration.observe (filesysInit memory start))
      (inStep (filesysInit memory start)) Enumeration.initial trace) :
    Follows (Enumeration.observe (filesysInit memory start))
        (DirectorySpec (filesysInit memory start)) Enumeration.initial trace ∧
      ∀ pid count userMemory fd buf nbytes, final.userProcess = some pid →
        (observed (Enumeration.observe (filesysInit memory start)) Enumeration.initial
          trace).own pid fd.toNat = some count →
        BufferInUserMemory final (.call userMemory (.read fd buf nbytes)) →
        (systemStep final (.call userMemory (.read fd buf nbytes))).isSome = true := by
  have small : (filesysInit memory start).numDirEntry < 2147483648 := int32_lt _
  have simulated := run.simulation (DirectorySpec (filesysInit memory start))
    (Enumerates (filesysInit memory start)) ?_ agrees ?_
  · refine ⟨simulated.1, fun pid count userMemory fd buf nbytes isUser counted user => ?_⟩
    have isRunning := (Kernel.userProcess_eq_some.mp isUser).2
    obtain ⟨lower, upper, isOpen, handler⟩ :=
      (simulated.2.tables.running pid isRunning).opened fd.toNat count counted
    exact systemStep_isSome isUser user
      (read_directory userMemory buf nbytes lower upper isOpen handler)
  · intro kernel seen event reply target enumerates user inStep stepped
    exact enumerates.step small names inStep
      (systemStep_effect enumerates.known user stepped)
  · exact ⟨PidsKnown.boot .., rfl, Tabulates.boot .., (fun _ counted => nomatch counted),
      fun pid fd counted => absurd rfl counted⟩

/-! ## The shell's directory -/

/-- The root shell opens the directory. -/
def openDirectory : SystemEvent :=
  .call (fun _ => 0) (.openFile { chars := [0x2e], noNul := by decide })

/-- It reads the directory into the user page. -/
def readDirectory (fd : Int) : SystemEvent :=
  .call (fun _ => 0) (.read fd 0x8000000 32)

/-- The answer to an open. -/
def openedReply (fd : Nat) : SystemReply :=
  .call { pid := 1, value := fd, called := none, stores := [] }

/-- The answer with a name. -/
def nameReply (name : List UInt8) : SystemReply :=
  .call { pid := 1, value := name.length, called := some .dirReadWrapper
          stores := storesAt 0x8000000 (name ++ List.replicate (33 - name.length) 0) }

/-- The answer after the last name. -/
def endReply : SystemReply :=
  .call { pid := 1, value := 0, called := some .dirReadWrapper, stores := [] }

theorem shellKernel_names : ∀ index, index < shellKernel.fs.numDirEntry.toNat →
    entryName shellKernel.fs index ≠ [] := by
  decide +kernel

theorem openDirectory_user (kernel : Kernel) (reply : SystemReply) :
    userBuffers kernel openDirectory reply :=
  fun _ _ _ impossible => absurd impossible (Nat.not_lt_zero _)

/-- The kernel in which the root shell has opened the directory. -/
def listingKernel : Kernel :=
  after launchedKernel openDirectory

theorem listingKernel_step : systemStep launchedKernel openDirectory =
    some (openedReply 2, listingKernel) :=
  step_after (by decide +kernel)

theorem readDirectory_user {kernel : Kernel} {fd : Int} (reply : SystemReply)
    (isUser : kernel.userProcess = some 1)
    (fill : fillLength kernel 1 (.read fd 0x8000000 32) ≤ 4096) :
    userBuffers kernel (readDirectory fd) reply :=
  bufferInUserMemory_of_page isUser fill

theorem inStep_of_eq {fs : Volume} {seen : Enumeration} {memory : Memory} {fd : Int} {buf : Nat}
    {nbytes : Int} {reply : CallReply} (count since : Nat)
    (counted : seen.own reply.pid fd.toNat = some count) (sinceEq : seen.since = some since)
    (same : since = count) : inStep fs seen (.call memory (.read fd buf nbytes)) (.call reply) := by
  intro otherCount otherSince otherCounted otherSinceEq
  rw [counted] at otherCounted
  rw [sinceEq] at otherSinceEq
  rw [← Option.some.inj otherCounted, ← Option.some.inj otherSinceEq, same]

/-- The root shell lists the directory: two names and the end. -/
theorem directories_enumerate_rootShell :
    Follows (Enumeration.observe shellKernel.fs) (DirectorySpec shellKernel.fs)
      Enumeration.initial
      [(launchEvent, .process none (.launched (.started 1 0))), (openDirectory, openedReply 2),
        (readDirectory 2, nameReply [0x2e]), (readDirectory 2, nameReply shellCommand.chars),
        (readDirectory 2, endReply)] := by
  have first : systemStep listingKernel (readDirectory 2) =
      some (nameReply [0x2e], after listingKernel (readDirectory 2)) :=
    step_after (by decide +kernel)
  have second : systemStep (after listingKernel (readDirectory 2)) (readDirectory 2) =
      some (nameReply shellCommand.chars,
        after (after listingKernel (readDirectory 2)) (readDirectory 2)) :=
    step_after (by decide +kernel)
  have third : systemStep (after (after listingKernel (readDirectory 2)) (readDirectory 2))
      (readDirectory 2) = some (endReply,
        after (after (after listingKernel (readDirectory 2)) (readDirectory 2))
          (readDirectory 2)) :=
    step_after (by decide +kernel)
  have run : GuardedRun systemStep userBuffers shellKernel _ _ :=
    .cons (launchEvent_user _ _) launchedKernel_step
      (.cons (openDirectory_user _ _) listingKernel_step
        (.cons (readDirectory_user _ (by decide +kernel) (by decide +kernel)) first
          (.cons (readDirectory_user _ (by decide +kernel) (by decide +kernel)) second
            (.cons (readDirectory_user _ (by decide +kernel) (by decide +kernel)) third
              (.nil _)))))
  exact (directories_enumerate shellKernel_names run
    ⟨trivial, trivial, inStep_of_eq 0 0 (by decide +kernel) (by decide +kernel) rfl,
      inStep_of_eq 1 1 (by decide +kernel) (by decide +kernel) rfl,
      inStep_of_eq 2 2 (by decide +kernel) (by decide +kernel) rfl, trivial⟩).1

/-- With the directory open twice, the first read of the second descriptor
returns the second name. -/
theorem secondDirectory_not_first :
    ¬ ∀ (memory screen : Memory) (start : Nat) (paging : PonyOS.Paging.PageTables)
      (printBuffer argBuf fname : Nat → UInt8) (currentDirReadIndex : Int)
      (trace : List (SystemEvent × SystemReply)) (final : Kernel),
      (∀ index, index < (filesysInit memory start).numDirEntry.toNat →
        entryName (filesysInit memory start) index ≠ []) →
      GuardedRun systemStep userBuffers
        (Kernel.boot (filesysInit memory start) paging screen printBuffer argBuf fname
          currentDirReadIndex) trace final →
      Follows (Enumeration.observe (filesysInit memory start))
        (DirectorySpec (filesysInit memory start)) Enumeration.initial trace := by
  intro all
  have again : systemStep listingKernel openDirectory =
      some (openedReply 3, after listingKernel openDirectory) := step_after (by decide +kernel)
  have first : systemStep (after listingKernel openDirectory) (readDirectory 2) =
      some (nameReply [0x2e], after (after listingKernel openDirectory) (readDirectory 2)) :=
    step_after (by decide +kernel)
  have second : systemStep (after (after listingKernel openDirectory) (readDirectory 2))
      (readDirectory 3) = some (nameReply shellCommand.chars,
        after (after (after listingKernel openDirectory) (readDirectory 2)) (readDirectory 3)) :=
    step_after (by decide +kernel)
  have run : GuardedRun systemStep userBuffers shellKernel _ _ :=
    .cons (launchEvent_user _ _) launchedKernel_step
      (.cons (openDirectory_user _ _) listingKernel_step
        (.cons (openDirectory_user _ _) again
          (.cons (readDirectory_user _ (by decide +kernel) (by decide +kernel)) first
            (.cons (readDirectory_user _ (by decide +kernel) (by decide +kernel)) second
              (.nil _)))))
  obtain ⟨-, -, -, -, wrong, -⟩ := all _ _ _ _ _ _ _ _ _ _ shellKernel_names run
  have name := wrong 0 (by decide +kernel)
  rw [EntrySpec, if_pos (by decide +kernel)] at name
  exact absurd name.2.1 (by decide +kernel)

end PonyOS.Syscall
