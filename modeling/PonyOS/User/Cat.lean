import PonyOS.User.Thread

/-!
# `cat`

The program reads its argument, opens the file of that name and copies it to the
terminal in pieces of up to 1024 bytes.  Started on the name of a regular file,
it hands the file to the terminal, byte for byte, however its calls are
interleaved with the rest of the system.
-/

namespace PonyOS.User

open PonyOS.FileSystem
open PonyOS.Lib.Environment
open PonyOS.Lib.Transition
open PonyOS.Lib.Word
open PonyOS.Paging
open PonyOS.Process
open PonyOS.Syscall
open PonyOS.Terminal

/-! ## The program -/

/-- The messages of the program. -/
inductive CatMessage
  | couldNotReadArguments
  | fileNotFound
  | fileReadFailed
  deriving DecidableEq

/-- What `main` returns after a message. -/
def CatMessage.status : CatMessage → Int
  | .couldNotReadArguments => 3
  | .fileNotFound => 2
  | .fileReadFailed => 3

/-- Where `main` stands: before a system call, or returned. -/
inductive CatControl
  | getargs
  | openFile
  | read (fd : Int)
  | write (fd cnt : Int)
  | fdputs (message : CatMessage)
  | returned (status : Int)
  deriving DecidableEq

/-- Where the compiler put the buffer and the texts. -/
structure CatLayout where
  buf : Nat
  text : CatMessage → Nat
  above : userPageStart ≤ buf
  below : buf + 1024 ≤ userPageEnd

/-- `main` of `cat`. -/
def cat (layout : CatLayout) : Program CatControl where
  ask memory
    | .getargs => some (.getargs layout.buf 1024)
    | .openFile => some (.openFile (stringAt memory layout.buf))
    | .read fd => some (.read fd layout.buf 1024)
    | .write _ cnt => some (.write 1 layout.buf cnt)
    | .fdputs message =>
        some (.write 1 (layout.text message) (strlenAt memory (layout.text message)))
    | .returned _ => none
  resume memory control value :=
    match control with
    | .getargs => (memory, if value ≠ 0 then .fdputs .couldNotReadArguments else .openFile)
    | .openFile => (memory, if value = -1 then .fdputs .fileNotFound else .read value)
    | .read fd =>
        (memory, if value = 0 then .returned 0
          else if value = -1 then .fdputs .fileReadFailed
          else .write fd value)
    | .write fd _ => (memory, if value = -1 then .returned 3 else .read fd)
    | .fdputs message => (memory, .returned message.status)
    | .returned status => (memory, .returned status)

/-- The program at its start. -/
def catStart (memory : Memory) : Thread CatControl :=
  { memory := memory, control := .getargs, written := [] }

/-! ## What holds at each call -/

/-- A process that was started to copy a regular file. -/
structure CatTask where
  fs : Volume
  pid : Nat
  command : CString
  name : CString
  dentry : Dentry
  contents : List UInt8
  layout : CatLayout
  argument : argumentText command = name.chars
  nonempty : name.chars ≠ []
  room : name.chars.length < 1024
  found : fs.readDentryByName name = some dentry
  regular : dentry.fileType = regType
  file : RegularFile fs (uint32 dentry.inode) contents

namespace CatTask

/-- The descriptors above the terminal's are free. -/
def NoneOpen (task : CatTask) (kernel : Kernel) : Prop :=
  ∀ slot, 2 ≤ slot → slot < 8 → ((kernel.pcb task.pid).fileArray slot).flags = 0

/-- The file is open on a descriptor, with so much of it read. -/
def OpenAt (task : CatTask) (kernel : Kernel) (fd : Int) (position : Nat) : Prop :=
  ∃ slot : Nat, fd = slot ∧ 2 ≤ slot ∧ slot < 8 ∧
    Tracks task.fs task.pid slot task.dentry.inode task.contents.length kernel position

/-- What holds of the kernel and the thread before each call of the program. -/
def Point (task : CatTask) (kernel : Kernel) (thread : Thread CatControl) : Prop :=
  match thread.control with
  | .getargs => ArgumentKept kernel task.pid task.command ∧ task.NoneOpen kernel ∧
      thread.written = []
  | .openFile => stringAt thread.memory task.layout.buf = task.name ∧ task.NoneOpen kernel ∧
      thread.written = []
  | .read fd => ∃ position, task.OpenAt kernel fd position ∧
      thread.written = task.contents.take position
  | .write fd cnt => ∃ position count : Nat, task.OpenAt kernel fd (position + count) ∧
      cnt = count ∧ 0 < count ∧ count ≤ 1024 ∧ thread.written = task.contents.take position ∧
      bytesAt thread.memory task.layout.buf count = (task.contents.drop position).take count
  | .returned status => status = 0 ∧ thread.written = task.contents
  | .fdputs _ => False

/-- The kernel hosts the program, and the program is where it should be. -/
structure Invariant (task : CatTask) (kernel : Kernel) (thread : Thread CatControl) : Prop where
  hosted : Hosted task.fs task.pid kernel
  point : task.Point kernel thread

/-- Calls that the program has left to make. -/
def left (task : CatTask) (thread : Thread CatControl) : Nat :=
  match thread.control with
  | .getargs => 2 * task.contents.length + 3
  | .openFile => 2 * task.contents.length + 2
  | .read _ => 2 * (task.contents.length - thread.written.length) + 1
  | .write _ cnt => 2 * (task.contents.length - (thread.written.length + cnt.toNat)) + 2
  | .fdputs _ => 1
  | .returned _ => 0

variable {task : CatTask} {kernel target : Kernel} {thread : Thread CatControl}
  {event : SystemEvent} {reply : SystemReply}

/-! ## The environment -/

/-- What others do leaves the descriptors of the program alone. -/
theorem NoneOpen.other (free : task.NoneOpen kernel)
    (same : (target.pcb task.pid).fileArray = (kernel.pcb task.pid).fileArray) :
    task.NoneOpen target := by
  intro slot lower upper
  rw [same]
  exact free slot lower upper

theorem OpenAt.other {fd : Int} {position : Nat} (isOpen : task.OpenAt kernel fd position)
    (hosted : Hosted task.fs task.pid target)
    (same : (target.pcb task.pid).fileArray = (kernel.pcb task.pid).fileArray) :
    task.OpenAt target fd position := by
  rcases isOpen with ⟨slot, fdEq, lower, upper, tracks⟩
  exact ⟨slot, fdEq, lower, upper, Hosted.other_tracks tracks hosted same⟩

/-- Others leave the program where it is. -/
theorem Invariant.other (invariant : task.Invariant kernel thread)
    (notOwn : callOf task.pid kernel event = false) (polite : Polite kernel event reply)
    (stepped : systemStep kernel event = some (reply, target)) :
    task.Invariant target thread := by
  rcases invariant.hosted.other notOwn polite.buffers stepped with ⟨hosted, same⟩
  refine ⟨hosted, ?_⟩
  have point := invariant.point
  unfold Point at point ⊢
  cases control : thread.control with
  | getargs =>
      simp only [control] at point ⊢
      rcases point with ⟨kept, free, nothing⟩
      have fits : (argumentText task.command).length < maxArgSize := by
        rw [task.argument]
        exact Nat.lt_of_lt_of_le task.room (by decide)
      exact ⟨invariant.hosted.other_argument kept fits notOwn polite stepped, free.other same,
        nothing⟩
  | openFile =>
      simp only [control] at point ⊢
      rcases point with ⟨named, free, nothing⟩
      exact ⟨named, free.other same, nothing⟩
  | read fd =>
      simp only [control] at point ⊢
      rcases point with ⟨position, isOpen, written⟩
      exact ⟨position, isOpen.other hosted same, written⟩
  | write fd cnt =>
      simp only [control] at point ⊢
      rcases point with ⟨position, count, isOpen, rest⟩
      exact ⟨position, count, isOpen.other hosted same, rest⟩
  | fdputs message => simp only [control] at point
  | returned status =>
      simp only [control] at point ⊢
      exact point

/-! ## The calls of the program -/

theorem bufferUser (task : CatTask) {memory : Memory} {call : Call}
    (buffer : call.buffer = task.layout.buf)
    (fill : fillLength kernel task.pid call ≤ 1024)
    (isUser : kernel.userProcess = some task.pid) :
    BufferInUserMemory kernel (.call memory call) := by
  intro caller isCaller k inside
  cases isUser.symm.trans isCaller
  have short := Nat.lt_of_lt_of_le inside fill
  have above := task.layout.above
  have below := task.layout.below
  left
  rw [buffer]
  unfold InUserPage
  unfold userPageStart userPageEnd at *
  omega

/-- The calls of the program store no more than its buffer holds. -/
theorem fill_getargs (task : CatTask) (kernel : Kernel) :
    fillLength kernel task.pid (.getargs task.layout.buf 1024) ≤ 1024 := by
  simp only [fillLength]
  split
  · decide
  · split <;> decide

theorem fill_read {slot position : Nat}
    (tracks : Tracks task.fs task.pid slot task.dentry.inode task.contents.length kernel position) :
    fillLength kernel task.pid (.read slot task.layout.buf 1024) ≤ 1024 := by
  have desc : (kernel.pcb task.pid).fileArray (slot : Int).toNat =
      regularDescriptor task.dentry.inode position := tracks.desc
  have small := task.file.small
  have inside := tracks.inside
  have count := kernel.fs.readCount_eq (tracks.volume ▸ task.file.inodeLt)
    (show uint32 position < 2147483648 by rw [uint32_of_lt (by omega)]; omega)
    (show uint32 1024 < 2147483648 by decide)
    (by rw [tracks.volume, task.file.length]; omega)
  simp only [fillLength]
  split
  · decide
  · split
    · decide
    · rw [desc]
      simp only [readFill, regularDescriptor, count]
      exact Nat.min_le_left _ _

/-- What a call of the program comes to: the invariant at the next point, with
less left. -/
def Proceeds (task : CatTask) (thread : Thread CatControl) (call : Call) (reply : SystemReply)
    (target : Kernel) : Prop :=
  ∃ answer, reply = .call answer ∧
    task.Invariant target ((cat task.layout).goOn thread call answer) ∧
    task.left ((cat task.layout).goOn thread call answer) + 1 ≤ task.left thread

theorem Invariant.getargs (invariant : task.Invariant kernel thread)
    (control : thread.control = .getargs)
    (isOwn : callOf task.pid kernel (.call thread.memory (.getargs task.layout.buf 1024)) = true)
    (stepped : systemStep kernel (.call thread.memory (.getargs task.layout.buf 1024)) =
      some (reply, target)) :
    task.Proceeds thread (.getargs task.layout.buf 1024) reply target := by
  have point := invariant.point
  simp only [Point, control] at point
  rcases point with ⟨kept, free, nothing⟩
  have user : BufferInUserMemory kernel
      (.call thread.memory (.getargs task.layout.buf 1024)) :=
    task.bufferUser rfl (fill_getargs task kernel) (callOf_iff.mp isOwn)
  rcases invariant.hosted.own isOwn user stepped with
    ⟨hosted, tried, answer, attempted, rfl, answerEq, effect⟩
  have notNull : task.layout.buf ≠ 0 := by
    have above := task.layout.above
    unfold userPageStart at above
    omega
  rcases getargs_cases kept.available task.layout.buf 1024 with
    ⟨null | empty, -⟩ | ⟨-, value, stores⟩
  · exact absurd null notNull
  · exact absurd (task.argument.symm.trans empty) task.nonempty
  · have triedEq : Syscall.getargs kernel task.pid task.layout.buf 1024 = tried :=
      Option.some.inj attempted
    have count : uint32 1024 = 1024 := by decide
    rw [triedEq] at value stores
    rw [count] at stores
    have answerValue : answer.value = 0 := by
      rw [answerEq]
      exact value
    have answerStores : answer.stores = storesAt task.layout.buf ((List.range 1024).map
        fun k => kernel.argBuf (maxArgSize * task.pid + k)) := by
      rw [answerEq, stores]
    have next : (cat task.layout).goOn thread (.getargs task.layout.buf 1024) answer =
        { memory := memoryAfter thread.memory answer.stores, control := .openFile
          written := thread.written } := by
      simp [Program.goOn, cat, control, answerValue, handedOver]
    refine ⟨answer, rfl, ⟨hosted, ?_⟩, ?_⟩
    · rw [next]
      refine ⟨?_, ?_, nothing⟩
      · have delivered := kept.delivered thread.memory task.layout.buf
          (show (argumentText task.command).length < 1024 by rw [task.argument]; exact task.room)
          (by decide)
        rw [task.argument, ← answerStores] at delivered
        have short : task.name.chars.length < addressSpace :=
          Nat.lt_of_lt_of_le task.room (by decide)
        exact stringAt_of_bytesAt short delivered
      · intro slot lower upper
        rw [effect.files, filesAfter_of_ne (.inr trivial)]
        exact free slot lower upper
    · rw [next]
      simp only [left, control]
      exact Nat.le_refl _

/-- The file is found, and a descriptor is free for it. -/
theorem Invariant.openFile (invariant : task.Invariant kernel thread)
    (control : thread.control = .openFile)
    (isOwn : callOf task.pid kernel
      (.call thread.memory (.openFile (stringAt thread.memory task.layout.buf))) = true)
    (stepped : systemStep kernel
      (.call thread.memory (.openFile (stringAt thread.memory task.layout.buf))) =
        some (reply, target)) :
    task.Proceeds thread (.openFile (stringAt thread.memory task.layout.buf)) reply target := by
  have point := invariant.point
  simp only [Point, control] at point
  rcases point with ⟨named, free, nothing⟩
  rw [named] at isOwn stepped ⊢
  have user : BufferInUserMemory kernel (.call thread.memory (.openFile task.name)) :=
    fun _ _ _ impossible => absurd impossible (Nat.not_lt_zero _)
  rcases invariant.hosted.own isOwn user stepped with
    ⟨hosted, tried, answer, attempted, rfl, answerEq, effect⟩
  have success : answer.value ≠ -1 := by
    have triedEq : Syscall.openFile kernel task.pid task.name = tried :=
      Option.some.inj attempted
    rw [answerEq]
    rcases openFile_cases kernel task.pid task.name with
      ⟨missing | full, -⟩ | ⟨dentry, fd, -, -, opened⟩
    · rw [invariant.hosted.ready.volume, task.found] at missing
      contradiction
    · have third := List.find?_eq_none.mp full 2 (by decide)
      have isFree := free 2 (by decide) (by decide)
      simp [isFree] at third
    · rw [← triedEq, opened]
      simp only
      omega
  have caller : answer.pid = task.pid := effect.caller
  rcases invariant.hosted.ready.opened task.found task.regular stepped success with
    ⟨slot, valueEq, lower, upper, tracks⟩
  rw [caller] at tracks
  have next : (cat task.layout).goOn thread (.openFile task.name) answer =
      { memory := memoryAfter thread.memory answer.stores, control := .read answer.value
        written := thread.written } := by
    simp [Program.goOn, cat, control, success, handedOver]
  refine ⟨answer, rfl, ⟨hosted, ?_⟩, ?_⟩
  · rw [next]
    refine ⟨0, ⟨slot, valueEq, lower, upper, tracks⟩, ?_⟩
    rw [nothing, List.take_zero]
  · rw [next]
    simp only [left, control, nothing, List.length_nil]
    omega

/-- The next piece of the file comes into the buffer. -/
theorem Invariant.read (invariant : task.Invariant kernel thread) {fd : Int}
    (control : thread.control = .read fd)
    (isOwn : callOf task.pid kernel
      (.call thread.memory (.read fd task.layout.buf 1024)) = true)
    (stepped : systemStep kernel (.call thread.memory (.read fd task.layout.buf 1024)) =
      some (reply, target)) :
    task.Proceeds thread (.read fd task.layout.buf 1024) reply target := by
  have point := invariant.point
  simp only [Point, control] at point
  rcases point with ⟨position, ⟨slot, rfl, lower, upper, tracks⟩, written⟩
  have user : BufferInUserMemory kernel
      (.call thread.memory (.read slot task.layout.buf 1024)) :=
    task.bufferUser rfl (fill_read tracks) (callOf_iff.mp isOwn)
  rcases invariant.hosted.own isOwn user stepped with
    ⟨hosted, tried, answer, attempted, rfl, answerEq, effect⟩
  rcases tracks.ownRead task.file lower upper (by decide) (by decide) attempted answerEq effect
    hosted.ready.known with ⟨⟨value, stores⟩, moved⟩
  have inside := tracks.inside
  have counted : answer.value.toNat ≤ 1024 := by omega
  have length : (task.contents.take position).length = position := by
    rw [List.length_take, Nat.min_eq_left inside]
  by_cases ended : answer.value = 0
  · have next : (cat task.layout).goOn thread (.read slot task.layout.buf 1024) answer =
        { memory := memoryAfter thread.memory answer.stores, control := .returned 0
          written := thread.written } := by
      simp [Program.goOn, cat, control, ended, handedOver]
    refine ⟨answer, rfl, ⟨hosted, ?_⟩, ?_⟩
    · rw [next]
      refine ⟨rfl, ?_⟩
      rw [written, List.take_of_length_le (by omega)]
    · rw [next]
      simp only [left, control]
      omega
  · have notFailed : answer.value ≠ -1 := by omega
    have next : (cat task.layout).goOn thread (.read slot task.layout.buf 1024) answer =
        { memory := memoryAfter thread.memory answer.stores
          control := .write slot answer.value, written := thread.written } := by
      simp [Program.goOn, cat, control, ended, notFailed, handedOver]
    refine ⟨answer, rfl, ⟨hosted, ?_⟩, ?_⟩
    · rw [next]
      refine ⟨position, answer.value.toNat, ⟨slot, rfl, lower, upper, moved⟩, by omega, by omega,
        counted, written, ?_⟩
      have taken : ((task.contents.drop position).take answer.value.toNat).length =
          answer.value.toNat := by
        rw [List.length_take, List.length_drop]
        omega
      have stored := bytesAt_memoryAfter thread.memory task.layout.buf
        (show ((task.contents.drop position).take answer.value.toNat).length ≤ 4294967296 by
          omega)
      rwa [taken, ← stores] at stored
    · rw [next]
      simp only [left, control, written, length]
      omega

/-- The piece goes to the terminal. -/
theorem Invariant.write (invariant : task.Invariant kernel thread) {fd cnt : Int}
    (control : thread.control = .write fd cnt)
    (isOwn : callOf task.pid kernel
      (.call thread.memory (.write 1 task.layout.buf cnt)) = true)
    (stepped : systemStep kernel (.call thread.memory (.write 1 task.layout.buf cnt)) =
      some (reply, target)) :
    task.Proceeds thread (.write 1 task.layout.buf cnt) reply target := by
  have point := invariant.point
  simp only [Point, control] at point
  rcases point with ⟨position, count, ⟨slot, rfl, lower, upper, tracks⟩, rfl, positive, bound,
    written, bytes⟩
  have user : BufferInUserMemory kernel
      (.call thread.memory (.write 1 task.layout.buf count)) :=
    fun _ _ _ impossible => absurd impossible (Nat.not_lt_zero _)
  rcases invariant.hosted.own isOwn user stepped with
    ⟨hosted, tried, answer, attempted, rfl, answerEq, effect⟩
  rcases invariant.hosted.write_stdout thread.memory task.layout.buf
    (show (0 : Int) ≤ count by omega) with ⟨made, madeEq, value, called, stores⟩
  cases attempted.symm.trans madeEq
  have answerValue : answer.value = count := by
    rw [answerEq]
    exact value
  have answerCalled : answer.called = some .terminalWriteWrapper := by
    rw [answerEq]
    exact called
  have notFailed : answer.value ≠ -1 := by omega
  have shown : (min (count : Int) (printLim : Int)).toNat = count := by
    unfold printLim
    omega
  have next : (cat task.layout).goOn thread (.write 1 task.layout.buf count) answer =
      { memory := memoryAfter thread.memory answer.stores, control := .read slot
        written := thread.written ++ bytesAt thread.memory task.layout.buf count } := by
    simp [Program.goOn, cat, control, notFailed, handedOver, answerCalled, shown]
  have files : (target.pcb task.pid).fileArray = (kernel.pcb task.pid).fileArray := by
    rw [effect.files]
    funext other
    exact filesAfter_of_ne (.inr trivial)
  have inside := tracks.inside
  have all : thread.written ++ bytesAt thread.memory task.layout.buf count =
      task.contents.take (position + count) := by
    rw [written, bytes, List.take_add]
  refine ⟨answer, rfl, ⟨hosted, ?_⟩, ?_⟩
  · rw [next]
    exact ⟨position + count, OpenAt.other ⟨slot, rfl, lower, upper, tracks⟩ hosted files, all⟩
  · rw [next]
    have length : (task.contents.take (position + count)).length = position + count := by
      rw [List.length_take, Nat.min_eq_left inside]
    have before : thread.written.length = position := by
      rw [written, List.length_take, Nat.min_eq_left (by omega)]
    simp only [left, control, all, length, before, Int.toNat_natCast]
    omega

theorem Invariant.own (invariant : task.Invariant kernel thread) {call : Call}
    (asked : (cat task.layout).ask thread.memory thread.control = some call)
    (isOwn : callOf task.pid kernel (.call thread.memory call) = true)
    (stepped : systemStep kernel (.call thread.memory call) = some (reply, target)) :
    task.Proceeds thread call reply target := by
  cases control : thread.control with
  | getargs =>
      rw [control] at asked
      cases asked
      exact invariant.getargs control isOwn stepped
  | openFile =>
      rw [control] at asked
      cases asked
      exact invariant.openFile control isOwn stepped
  | read fd =>
      rw [control] at asked
      cases asked
      exact invariant.read control isOwn stepped
  | write fd cnt =>
      rw [control] at asked
      cases asked
      exact invariant.write control isOwn stepped
  | fdputs message =>
      have point := invariant.point
      simp only [Point, control] at point
  | returned status =>
      rw [control] at asked
      contradiction

/-- A call of the program returns. -/
theorem Invariant.answered (invariant : task.Invariant kernel thread) {call : Call}
    (asked : (cat task.layout).ask thread.memory thread.control = some call)
    (isUser : kernel.userProcess = some task.pid) :
    (systemStep kernel (.call thread.memory call)).isSome = true := by
  have point := invariant.point
  cases control : thread.control with
  | getargs =>
      rw [control] at asked
      cases asked
      exact systemStep_isSome isUser (task.bufferUser rfl (fill_getargs task kernel) isUser) rfl
  | openFile =>
      rw [control] at asked
      cases asked
      exact systemStep_isSome isUser
        (fun _ _ _ impossible => absurd impossible (Nat.not_lt_zero _)) rfl
  | read fd =>
      rw [control] at asked
      cases asked
      simp only [Point, control] at point
      rcases point with ⟨position, ⟨slot, rfl, lower, upper, tracks⟩, -⟩
      apply systemStep_isSome isUser (task.bufferUser rfl (fill_read tracks) isUser)
      exact read_regular_eq thread.memory task.layout.buf 1024 tracks.desc (by omega) (by omega)
  | write fd cnt =>
      rw [control] at asked
      cases asked
      simp only [Point, control] at point
      rcases point with ⟨position, count, -, rfl, -⟩
      rcases invariant.hosted.write_stdout thread.memory task.layout.buf
        (show (0 : Int) ≤ count by omega) with ⟨made, madeEq, -⟩
      exact systemStep_isSome isUser
        (fun _ _ _ impossible => absurd impossible (Nat.not_lt_zero _)) madeEq
  | fdputs message => simp only [Point, control] at point
  | returned status =>
      rw [control] at asked
      contradiction

/-- What was handed over is a first part of the file. -/
theorem Invariant.written_prefix (invariant : task.Invariant kernel thread) :
    thread.written <+: task.contents := by
  have point := invariant.point
  unfold Point at point
  cases control : thread.control with
  | getargs =>
      simp only [control] at point
      rw [point.2.2]
      exact List.nil_prefix
  | openFile =>
      simp only [control] at point
      rw [point.2.2]
      exact List.nil_prefix
  | read fd =>
      simp only [control] at point
      rcases point with ⟨position, -, written⟩
      rw [written]
      exact List.take_prefix position task.contents
  | write fd cnt =>
      simp only [control] at point
      rcases point with ⟨position, count, -, -, -, -, written, -⟩
      rw [written]
      exact List.take_prefix position task.contents
  | fdputs message => simp only [control] at point
  | returned status =>
      simp only [control] at point
      rw [point.2]

/-- A program that has not returned has a call to make. -/
theorem asks (layout : CatLayout) (notReturned : ∀ status, thread.control ≠ .returned status) :
    ∃ call, (cat layout).ask thread.memory thread.control = some call := by
  cases control : thread.control with
  | returned status => exact absurd control (notReturned status)
  | _ => exact ⟨_, rfl⟩

/-- Left to itself the program comes to its end. -/
theorem Invariant.completes (invariant : task.Invariant kernel thread)
    (isUser : kernel.userProcess = some task.pid) :
    ∃ moves final after, GuardedRun (runs (cat task.layout) task.pid) (otherMoves Polite)
      (kernel, thread) moves (final, after) ∧ after.control = .returned 0 := by
  induction fuel : task.left thread using Nat.strong_induction_on generalizing kernel thread with
  | _ remaining ih =>
      by_cases returned : ∃ status, thread.control = .returned status
      · rcases returned with ⟨status, control⟩
        have point := invariant.point
        simp only [Point, control] at point
        rw [point.1] at control
        exact ⟨[], kernel, thread, .nil _, control⟩
      · rcases asks task.layout fun status control => returned ⟨status, control⟩ with
          ⟨call, asked⟩
        rcases Option.isSome_iff_exists.mp (invariant.answered asked isUser) with
          ⟨⟨reply, target⟩, stepped⟩
        have isOwn : callOf task.pid kernel (.call thread.memory call) = true :=
          callOf_iff.mpr isUser
        rcases invariant.own asked isOwn stepped with ⟨answer, rfl, kept, less⟩
        have moved := together_own (Program.asks_call asked) isOwn stepped
        rw [Program.answered asked] at moved
        rcases ih _ (by omega) kept (userProcess_of_call isUser stepped) rfl with
          ⟨moves, final, after, run, ended⟩
        have guarded : otherMoves Polite (kernel, thread) .own (.call answer) := trivial
        exact ⟨_, final, after, .cons guarded moved run, ended⟩

/-- The process that `execute` has just started is ready to run the program. -/
theorem begins (task : CatTask) {registers : Registers} {tempBuf : Nat → UInt8}
    {caller : Option Nat} {entry : Nat} (ready : Ready task.fs target)
    (accounted : target.Accounted) (known : PidsKnown kernel)
    (started : systemStep kernel (.process (.execute registers tempBuf (some task.command))) =
      some (.process caller (.executed (.started task.pid entry)), target)) (memory : Memory) :
    task.Invariant target (catStart memory) := by
  have user : BufferInUserMemory kernel
      (.process (.execute registers tempBuf (some task.command))) := trivial
  have effect := systemStep_effect known user started
  cases systemStep_cases started with
  | process _ _ moved =>
      cases processStep_moved moved with
      | executed running _ _ _ _ isUser executed =>
          have claims := (Claims.of_started executed).1
          have kept := ArgumentKept.of_claims claims
          generalize answerEq : SystemReply.process kernel.userProcess
            (.executed (.started task.pid entry)) = answer at effect
          cases effect with
          | process _ _ effect =>
              have fresh := effect.fresh task.pid claims.free kept.running
              refine ⟨⟨ready, accounted, kept.running, ?_⟩, kept, ?_, rfl⟩
              · rw [fresh]
                rfl
              · intro slot lower upper
                rw [fresh]
                simp [pcbInit, fdtSize, show slot ≠ 0 by omega, show slot ≠ 1 by omega, upper]

end CatTask

/-- `cat` started on the name of a regular file hands the file to the terminal.
At every moment it has handed over a first part of the file; it returns with
status 0 when it has handed over all of it, and not otherwise; it makes at most
two calls for each byte and three more, and each of them returns.  Keys, interrupts
and other processes whose commands are short and whose calls keep to user memory
may come in between in any order. -/
theorem cat_prints {memory screen : Memory} {start : Nat} {image : Image} {paging : PageTables}
    {printBuffer argBuf fname : Nat → UInt8} {currentDirReadIndex : Int}
    {trace : List (SystemEvent × SystemReply)} {kernel target final : Kernel}
    {registers : Registers} {tempBuf : Nat → UInt8} {command name : CString} {dentry : Dentry}
    {caller : Option Nat} {pid entry : Nat} {layout : CatLayout} {userMemory : Memory}
    {moves : List (Move SystemEvent × SystemReply)} {thread : Thread CatControl}
    (loaded : Loaded memory start image) (wellFormed : image.WellFormed)
    (reached : GuardedRun systemStep userBuffers
      (Kernel.boot (filesysInit memory start) paging screen printBuffer argBuf fname
        currentDirReadIndex) trace kernel)
    (started : systemStep kernel (.process (.execute registers tempBuf (some command))) =
      some (.process caller (.executed (.started pid entry)), target))
    (argument : argumentsOf command.chars = name.chars) (nonempty : name.chars ≠ [])
    (room : name.chars.length < 1024)
    (found : (filesysInit memory start).readDentryByName name = some dentry)
    (regular : dentry.fileType = regType)
    (run : GuardedRun (runs (cat layout) pid) (otherMoves Polite) (target, catStart userMemory)
      moves (final, thread)) :
    thread.written <+: image.fileBytes (uint32 dentry.inode) ∧
      (∀ status, thread.control = .returned status →
        status = 0 ∧ thread.written = image.fileBytes (uint32 dentry.inode)) ∧
      moves.countP (fun step => step.1.isOwn) ≤
        2 * (image.fileBytes (uint32 dentry.inode)).length + 3 ∧
      ((∀ status, thread.control ≠ .returned status) → final.userProcess = some pid →
        (runs (cat layout) pid (final, thread) .own).isSome = true) := by
  let task : CatTask :=
    { fs := filesysInit memory start
      pid := pid
      command := command
      name := name
      dentry := dentry
      contents := image.fileBytes (uint32 dentry.inode)
      layout := layout
      argument := (argumentText_eq command).trans argument
      nonempty := nonempty
      room := room
      found := found
      regular := regular
      file := regularFile_of_loaded loaded wellFormed found regular }
  have user : userBuffers kernel (.process (.execute registers tempBuf (some command)))
      (.process caller (.executed (.started pid entry))) := trivial
  have afterwards := reached.snoc user started
  have initial : task.Invariant target (catStart userMemory) :=
    task.begins (Ready.of_run afterwards) (accounted_of_run afterwards.unguarded)
      (Ready.of_run reached).known started userMemory
  have proceeds : ∀ {state thread event reply target}, task.Invariant state thread →
      (cat layout).client.ask thread = some event → callOf pid state event = true →
      systemStep state event = some (reply, target) →
      task.Invariant target ((cat layout).client.answer thread reply) ∧
        task.left ((cat layout).client.answer thread reply) + 1 ≤ task.left thread := by
    intro state thread event reply target holds asks isOwn stepped
    rcases Program.asked asks with ⟨call, asked, rfl⟩
    rcases holds.own asked isOwn stepped with ⟨answer, rfl, kept, less⟩
    rw [Program.answered asked]
    exact ⟨kept, less⟩
  have invariant : task.Invariant final thread :=
    run_invariant task.Invariant
      (fun holds asks isOwn stepped => (proceeds holds asks isOwn stepped).1)
      (fun holds notOwn polite stepped => holds.other notOwn polite stepped) run initial
  have bounded := run_bound task.Invariant (fun _ thread => task.left thread)
    proceeds (fun holds notOwn polite stepped =>
      ⟨holds.other notOwn polite stepped, Nat.le_refl _⟩) run initial
  refine ⟨invariant.written_prefix, ?_, ?_, ?_⟩
  · intro status control
    have point := invariant.point
    simp only [CatTask.Point, control] at point
    exact point
  · have whole : task.left (catStart userMemory) = 2 * task.contents.length + 3 := rfl
    simp only [whole] at bounded
    exact Nat.le_trans (Nat.le_add_left _ _) bounded
  · intro notReturned isUser
    rcases CatTask.asks layout notReturned with ⟨call, asked⟩
    rcases Option.isSome_iff_exists.mp (invariant.answered asked isUser) with
      ⟨⟨reply, next⟩, stepped⟩
    rw [runs, together_own (Program.asks_call asked) (callOf_iff.mpr isUser) stepped]
    rfl

/-- The program named by the command is the shell's, its argument the shell's own
file. -/
def catCommand : CString :=
  shellWith shellCommand.chars shellCommand.noNul

/-- The buffer at the start of the page, the texts behind it. -/
def catLayout : CatLayout :=
  { buf := 0x8000000
    text := fun _ => 0x8001000
    above := by decide
    below := by decide }

/-- The root shell executes that command. -/
def catEvent : SystemEvent :=
  .process (.execute { esp := 0, ebp := 0 } (fun _ => 0) (some catCommand))

/-- The eight bytes of the root shell's file are copied. -/
theorem cat_prints_shell : ∃ kernel target moves final thread,
    systemStep kernel catEvent =
        some (.process (some 1) (.executed (.started 2 0)), target) ∧
      GuardedRun (runs (cat catLayout) 2) (otherMoves Polite) (target, catStart fun _ => 0) moves
        (final, thread) ∧
      thread.control = .returned 0 ∧ thread.written = shellImage.fileBytes 0 := by
  have found : shellKernel.fs.readDentryByName shellCommand = some (shellKernel.fs.dentryAt 1) := by
    decide +kernel
  have regular : (shellKernel.fs.dentryAt 1).fileType = regType := by decide +kernel
  have inode : uint32 (shellKernel.fs.dentryAt 1).inode = 0 := by decide +kernel
  have started : systemStep launchedKernel catEvent =
      some (.process (some 1) (.executed (.started 2 0)), after launchedKernel catEvent) :=
    step_after (by decide +kernel)
  have reached : GuardedRun systemStep userBuffers shellKernel [_] launchedKernel :=
    .cons (launchEvent_user _ _) launchedKernel_step (.nil launchedKernel)
  let task : CatTask :=
    { fs := shellKernel.fs
      pid := 2
      command := catCommand
      name := shellCommand
      dentry := shellKernel.fs.dentryAt 1
      contents := shellImage.fileBytes (uint32 (shellKernel.fs.dentryAt 1).inode)
      layout := catLayout
      argument := by decide
      nonempty := by decide
      room := by decide
      found := found
      regular := regular
      file := regularFile_of_loaded shellMemory_loaded shellImage_wellFormed found regular }
  have user : userBuffers launchedKernel catEvent
      (.process (some 1) (.executed (.started 2 0))) := trivial
  have afterwards := reached.snoc user started
  have initial := task.begins (Ready.of_run afterwards) (accounted_of_run afterwards.unguarded)
    (Ready.of_run reached).known started fun _ => 0
  have isUser : (after launchedKernel catEvent).userProcess = some 2 := by decide +kernel
  rcases initial.completes isUser with ⟨moves, final, thread, run, returned⟩
  have printed := (cat_prints shellMemory_loaded shellImage_wellFormed reached started
    (by decide) (by decide) (by decide) found regular run).2.1 0 returned
  rw [inode] at printed
  exact ⟨launchedKernel, _, moves, final, thread, started, run, returned, printed.2⟩

end PonyOS.User
