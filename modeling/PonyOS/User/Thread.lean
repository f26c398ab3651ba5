import Mathlib.Data.List.TakeWhile
import PonyOS.Lib.Environment
import PonyOS.Syscall.CommandLine
import PonyOS.Syscall.Files

/-!
# User programs on the kernel

A user program is cut at its system calls: it asks for one, and with the result
it computes in its own memory until it asks for the next.  Its process runs
beside everything else that happens in the system: other processes, interrupts
and the scheduler.  Only its own calls change its memory, for its page is mapped
for no other process.

What a process needs to go on is kept by all of this: it stays alive until it
halts, its descriptors change by its own calls only, and descriptor 1 leads to
the terminal.
-/

namespace PonyOS.User

open PonyOS.FileSystem
open PonyOS.Lib.Environment
open PonyOS.Lib.Transition
open PonyOS.Lib.Word
open PonyOS.Process
open PonyOS.Syscall
open PonyOS.Terminal

universe u

/-! ## Programs and threads -/

/-- A user program, cut at its system calls. -/
structure Program (κ : Type u) where
  ask : Memory → κ → Option Call
  resume : Memory → κ → Int → Memory × κ

/-- A process in the middle of a program: its memory, where it is, and what it
has handed to the terminal. -/
structure Thread (κ : Type u) where
  memory : Memory
  control : κ
  written : List UInt8

/-- The bytes that a call hands to the terminal: as many as `terminal_write`
prints. -/
def handedOver (memory : Memory) : Call → CallReply → List UInt8
  | .write _ buf nbytes, reply =>
      if reply.called = some .terminalWriteWrapper then
        bytesAt memory buf (min nbytes (printLim : Int)).toNat
      else []
  | _, _ => []

/-- A thread goes on with the reply to its call. -/
def Program.goOn {κ : Type u} (program : Program κ) (thread : Thread κ) (asked : Call)
    (reply : CallReply) : Thread κ :=
  let resumed := program.resume (memoryAfter thread.memory reply.stores) thread.control reply.value
  { memory := resumed.1
    control := resumed.2
    written := thread.written ++ handedOver thread.memory asked reply }

/-- The program as a client of the system. -/
def Program.client {κ : Type u} (program : Program κ) :
    Client (Thread κ) SystemEvent SystemReply where
  ask thread := (program.ask thread.memory thread.control).map (SystemEvent.call thread.memory)
  answer thread reply :=
    match program.ask thread.memory thread.control, reply with
    | some asked, .call reply => program.goOn thread asked reply
    | _, _ => thread

/-- The events that come from a process in user mode. -/
def isSystemCall : SystemEvent → Bool
  | .call _ _ => true
  | .process (.execute _ _ _) => true
  | .process (.halt _ _) => true
  | _ => false

/-- The event is a system call of the process. -/
def callOf (pid : Nat) (kernel : Kernel) (event : SystemEvent) : Bool :=
  isSystemCall event && (kernel.userProcess == some pid)

/-- A program running as a process of the system. -/
def runs {κ : Type u} (program : Program κ) (pid : Nat) :
    Step (Kernel × Thread κ) (Move SystemEvent) SystemReply :=
  together systemStep program.client (callOf pid)

/-- Other processes pass buffers in their own memory and commands shorter than a
row of the argument buffer. -/
structure Polite (kernel : Kernel) (event : SystemEvent) (_reply : SystemReply) : Prop where
  buffers : BufferInUserMemory kernel event
  short : ∀ registers tempBuf command,
    event = .process (.execute registers tempBuf (some command)) →
    command.chars.length < maxArgSize

/-- What a thread asks for is the event of its move. -/
theorem Program.asked {κ : Type u} {program : Program κ} {thread : Thread κ}
    {event : SystemEvent} (asks : program.client.ask thread = some event) :
    ∃ call, program.ask thread.memory thread.control = some call ∧
      event = .call thread.memory call := by
  rcases Option.map_eq_some_iff.mp asks with ⟨call, isAsked, rfl⟩
  exact ⟨call, isAsked, rfl⟩

theorem Program.asks_call {κ : Type u} {program : Program κ} {thread : Thread κ} {call : Call}
    (isAsked : program.ask thread.memory thread.control = some call) :
    program.client.ask thread = some (.call thread.memory call) :=
  congrArg (Option.map (SystemEvent.call thread.memory)) isAsked

theorem Program.answered {κ : Type u} {program : Program κ} {thread : Thread κ} {call : Call}
    (isAsked : program.ask thread.memory thread.control = some call) (reply : CallReply) :
    program.client.answer thread (.call reply) = program.goOn thread call reply := by
  simp only [Program.client, isAsked]

/-! ## Texts in memory -/

theorem stringAt_of_bytesAt {memory : Memory} {buf : Nat} {text : CString}
    (short : text.chars.length < addressSpace)
    (bytes : bytesAt memory buf (text.chars.length + 1) = text.chars ++ [0]) :
    stringAt memory buf = text := by
  have loads : ∀ i, i < text.chars.length + 1 →
      load memory (buf + i) = (text.chars ++ [0]).getD i 0 := by
    intro i inside
    rw [← bytes, bytesAt, List.getD_eq_getElem?_getD]
    simp [inside]
  have whole : text.chars.takeWhile (· ≠ 0) = text.chars := by
    apply List.takeWhile_eq_self_iff.mpr
    intro char member
    simp only [ne_eq, decide_eq_true_eq]
    rintro rfl
    exact text.noNul member
  have length := strlen_of_text short loads
  rw [whole] at length
  have chars : (stringAt memory buf).chars = text.chars := by
    have start : bytesAt memory buf text.chars.length = text.chars := by
      have taken := congrArg (List.take text.chars.length) bytes
      rw [List.take_left, bytesAt, ← List.map_take, List.take_range] at taken
      rwa [Nat.min_eq_left (Nat.le_succ _)] at taken
    simp only [stringAt, length]
    exact start
  cases text
  simpa [stringAt] using chars

theorem bytesAt_memoryAfter (memory : Memory) (buf : Nat) {bytes : List UInt8}
    (short : bytes.length ≤ 4294967296) :
    bytesAt (memoryAfter memory (storesAt buf bytes)) buf bytes.length = bytes := by
  apply List.ext_getElem?
  intro i
  by_cases inside : i < bytes.length
  · simp [bytesAt, inside, load_memoryAfter memory buf bytes short inside]
  · rw [List.getElem?_eq_none (by simp; omega), List.getElem?_eq_none (by omega)]

/-! ## What a process needs -/

/-- A running process whose descriptor 1 leads to the terminal. -/
structure Hosted (fs : Volume) (pid : Nat) (kernel : Kernel) : Prop where
  ready : Ready fs kernel
  accounted : kernel.Accounted
  running : kernel.processStatus pid = true
  stdout : ((kernel.pcb pid).fileArray 1).write = .terminalWriteWrapper

variable {fs : Volume} {pid : Nat} {kernel target : Kernel} {event : SystemEvent}
  {reply : SystemReply}

theorem callOf_iff {memory : Memory} {call : Call} :
    callOf pid kernel (.call memory call) = true ↔ kernel.userProcess = some pid := by
  simp [callOf, isSystemCall]

/-- A process stays in user mode through its calls. -/
theorem userProcess_of_call {memory : Memory} {call : Call} (isUser : kernel.userProcess = some pid)
    (stepped : systemStep kernel (.call memory call) = some (reply, target)) :
    target.userProcess = some pid := by
  cases systemStep_cases stepped with
  | call caller _ _ answer isCaller called =>
      have table := (KeepsProcesses.systemCall called).table
      have current : target.currentPid = kernel.currentPid := congrArg ProcessTable.current table
      have status : target.processStatus = kernel.processStatus :=
        congrArg ProcessTable.running table
      rw [← isUser, Kernel.userProcess, Kernel.userProcess, current, status]

/-- A process event that is no system call of the process does not end it. -/
theorem leavesRunning_of_other (notOwn : callOf pid kernel event = false)
    (stepped : systemStep kernel event = some (reply, target)) : LeavesRunning pid reply := by
  intro answer replyEq
  cases systemStep_cases stepped with
  | call caller memory asked given isUser called => contradiction
  | rtc targetEq => contradiction
  | process event given moved =>
      rw [← (SystemReply.process.inj replyEq).2]
      have isUser := (SystemReply.process.inj replyEq).1
      cases processStep_moved moved with
      | launched registers tempBuf outcome noCurrent executed => rfl
      | executed caller registers tempBuf command outcome isUser executed => rfl
      | cleared isClearing targetEq => rfl
      | keyed registers tempBuf c outcome ended => rfl
      | ticked registers loaded ended => rfl
      | halted caller tempBuf status outcome isCaller ended =>
          simp [callOf, isSystemCall, isUser] at notOwn

namespace Hosted

/-- Nothing that others do touches a process or its descriptors. -/
theorem other (hosted : Hosted fs pid kernel) (notOwn : callOf pid kernel event = false)
    (user : BufferInUserMemory kernel event)
    (stepped : systemStep kernel event = some (reply, target)) :
    Hosted fs pid target ∧ (target.pcb pid).fileArray = (kernel.pcb pid).fileArray := by
  have accounted := accounted_systemStep hosted.accounted stepped
  have effect := systemStep_effect hosted.ready.known user stepped
  have ready : Ready fs target :=
    ⟨effect.known hosted.ready.known, effect.fs.trans hosted.ready.volume,
      hosted.ready.terminal.step effect⟩
  have stays := leavesRunning_of_other notOwn stepped
  have kept : target.processStatus pid = true ∧
      (target.pcb pid).fileArray = (kernel.pcb pid).fileArray := by
    cases effect with
    | process event answer effect =>
        refine ⟨?_, effect.kept pid hosted.running⟩
        rcases effect.alive pid hosted.running with alive | ⟨isUser, ends⟩
        · exact alive
        · rw [stays answer (by rw [isUser])] at ends
          contradiction
    | call memory asked caller answer tried isUser attempted replyEq effect =>
        have distinct : pid ≠ caller := by
          rintro rfl
          simp [callOf, isSystemCall, isUser] at notOwn
        rw [effect.status, effect.others pid distinct]
        exact ⟨hosted.running, rfl⟩
    | rtc targetEq =>
        rw [targetEq]
        exact ⟨hosted.running, rfl⟩
  refine ⟨⟨ready, accounted, kept.1, ?_⟩, kept.2⟩
  rw [kept.2]
  exact hosted.stdout

theorem other_tracks {fd : Nat} {inode : Int} {size position : Nat}
    (tracks : Tracks fs pid fd inode size kernel position) (hosted : Hosted fs pid target)
    (same : (target.pcb pid).fileArray = (kernel.pcb pid).fileArray) :
    Tracks fs pid fd inode size target position := by
  refine ⟨hosted.ready.known, hosted.ready.volume, hosted.running, ?_, tracks.inside⟩
  rw [same]
  exact tracks.desc

theorem other_argument {command : CString} (hosted : Hosted fs pid kernel)
    (kept : ArgumentKept kernel pid command)
    (fits : (argumentText command).length < maxArgSize)
    (notOwn : callOf pid kernel event = false) (polite : Polite kernel event reply)
    (stepped : systemStep kernel event = some (reply, target)) :
    ArgumentKept target pid command := by
  have short : LaterShort pid kernel event reply :=
    ⟨leavesRunning_of_other notOwn stepped, polite.short⟩
  exact kept.step hosted.accounted (short.leavesArgument hosted.running fits) stepped

/-- The handler behind a descriptor changes only when the descriptor is opened. -/
theorem filesAfter_write {memory : Memory} {call : Call} {tried : Attempt}
    (attempted : attempt kernel pid memory call = some tried) {slot : Nat}
    (isOpen : ((kernel.pcb pid).fileArray slot).flags = 1) :
    (filesAfter kernel.fs (kernel.pcb pid).fileArray call tried.value slot).write =
      ((kernel.pcb pid).fileArray slot).write := by
  by_cases failed : tried.value = -1
  · rw [filesAfter_of_ne (.inl failed)]
  · cases call with
    | read fd buf nbytes =>
        simp only [filesAfter, failed, if_false]
        by_cases here : slot = fd.toNat
        · rw [here, Function.update_self]
        · rw [Function.update_of_ne here]
    | close fd =>
        simp only [filesAfter, failed, if_false]
        by_cases here : slot = fd.toNat
        · rw [here, Function.update_self]
        · rw [Function.update_of_ne here]
    | openFile filename =>
        have value : tried.value = (openFile kernel pid filename).value :=
          congrArg Attempt.value (Option.some.inj attempted).symm
        rcases openFile_value (value ▸ failed) with ⟨fd, fdEq, -, isFree⟩
        have elsewhere : tried.value.toNat ≠ slot := by
          rw [value, fdEq, Int.toNat_natCast]
          rintro rfl
          rw [isFree] at isOpen
          contradiction
        rw [filesAfter_of_ne (.inr elsewhere)]
    | write fd buf nbytes => rw [filesAfter_of_ne (.inr trivial)]
    | getargs buf nbytes => rw [filesAfter_of_ne (.inr trivial)]
    | vidmap screenstart => rw [filesAfter_of_ne (.inr trivial)]

theorem own {memory : Memory} {call : Call} (hosted : Hosted fs pid kernel)
    (isOwn : callOf pid kernel (.call memory call) = true)
    (user : BufferInUserMemory kernel (.call memory call))
    (stepped : systemStep kernel (.call memory call) = some (reply, target)) :
    Hosted fs pid target ∧ ∃ tried answer, attempt kernel pid memory call = some tried ∧
      reply = .call answer ∧
      answer =
        { pid := pid, value := tried.value, called := tried.called, stores := tried.stores } ∧
      CallEffect kernel target pid call answer := by
  have isCaller : kernel.userProcess = some pid := by
    simpa [callOf, isSystemCall] using isOwn
  have accounted := accounted_systemStep hosted.accounted stepped
  have effect := systemStep_effect hosted.ready.known user stepped
  have ready : Ready fs target :=
    ⟨effect.known hosted.ready.known, effect.fs.trans hosted.ready.volume,
      hosted.ready.terminal.step effect⟩
  cases effect with
  | call _ _ caller answer tried isUser attempted replyEq effect =>
      cases isCaller.symm.trans isUser
      refine ⟨⟨ready, accounted, ?_, ?_⟩, tried, answer, attempted, rfl, replyEq, effect⟩
      · rw [effect.status]
        exact hosted.running
      · rw [effect.files, replyEq,
          filesAfter_write attempted (hosted.ready.terminal pid hosted.running).2]
        exact hosted.stdout

/-- A write to descriptor 1 hands all its bytes to the terminal. -/
theorem write_stdout (hosted : Hosted fs pid kernel) (memory : Memory) (buf : Nat)
    {nbytes : Int} (nonneg : 0 ≤ nbytes) :
    ∃ tried, write kernel pid memory 1 buf nbytes = some tried ∧ tried.value = nbytes ∧
      tried.called = some .terminalWriteWrapper ∧ tried.stores = [] := by
  have isOpen := (hosted.ready.terminal pid hosted.running).2
  have isOpen : ((kernel.pcb pid).fileArray (1 : Int).toNat).flags ≠ 0 := by
    change ((kernel.pcb pid).fileArray 1).flags ≠ 0
    rw [isOpen]
    decide
  have handler : ((kernel.pcb pid).fileArray (1 : Int).toNat).write = .terminalWriteWrapper :=
    hosted.stdout
  have valid : ¬ ((1 : Int) ≥ fdtSize ∨ (1 : Int) < 0 ∨ (1 : Int) = 0) := by
    unfold fdtSize
    omega
  have bounded : ¬ (if nbytes < printLim then nbytes else (printLim : Int)) < 0 := by
    split <;> omega
  simp only [Syscall.write, if_neg valid, if_neg isOpen, callWrite, handler,
    Terminals.terminalWrite, if_neg bounded, Option.map_some]
  exact ⟨_, rfl, rfl, rfl, rfl⟩

end Hosted

end PonyOS.User
