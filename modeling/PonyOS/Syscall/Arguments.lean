import Mathlib.Data.List.GetD
import PonyOS.Process.Fairness
import PonyOS.Syscall.Buffers
import PonyOS.Syscall.Frame

/-!
# Arguments of processes

An execution copies the name of the program into one buffer, and the argument
into the row of the new process in another.  Both copies run to the end of the
command and not to the end of the buffer, and `getargs` hands out as many bytes
of a row as it is asked for.

What a row holds is a fact about the command that filled it as long as no
other command runs into the row.  The isolation of the rows and what `getargs`
tells about other processes both follow from that.
-/

namespace PonyOS.Syscall

open PonyOS.FileSystem
open PonyOS.Lib.Transition
open PonyOS.Lib.Word
open PonyOS.Paging
open PonyOS.Process
open PonyOS.Terminal

/-! ## The copies -/

/-- The stores of a string and its terminator at an offset of a buffer. -/
def stringStores (offset : Nat) (text : List UInt8) : List Store :=
  (text ++ [0]).mapIdx fun i byte => { address := offset + i, byte := byte }

theorem storeAll_mapIdx (buffer : Nat → UInt8) (offset : Nat) (bytes : List UInt8) (k : Nat) :
    storeAll buffer (bytes.mapIdx fun i byte => { address := offset + i, byte := byte }) k =
      if offset ≤ k ∧ k < offset + bytes.length then bytes.getD (k - offset) 0 else buffer k := by
  induction bytes using List.reverseRecOn with
  | nil =>
      rw [if_neg (by simp only [List.length_nil]; omega)]
      rfl
  | append_singleton bytes last ih =>
      rw [List.mapIdx_concat, storeAll, List.foldl_append]
      simp only [List.foldl_cons, List.foldl_nil, List.length_append, List.length_singleton]
      by_cases here : k = offset + bytes.length
      · rw [here, Function.update_self, if_pos (by omega), Nat.add_sub_cancel_left]
        simp
      · rw [Function.update_of_ne here]
        refine Eq.trans ih ?_
        by_cases inside : offset ≤ k ∧ k < offset + bytes.length
        · rw [if_pos inside, if_pos (by omega), List.getD_append _ _ _ _ (by omega)]
        · rw [if_neg inside, if_neg (by omega)]

/-- The copy of a string is made of its stores. -/
theorem storeAll_stringStores (buffer : Nat → UInt8) (offset : Nat) (text : List UInt8) :
    storeAll buffer (stringStores offset text) = putString buffer offset text := by
  funext k
  rw [stringStores, storeAll_mapIdx, putString, List.length_append, List.length_singleton]
  by_cases inside : offset ≤ k ∧ k ≤ offset + text.length
  · rw [if_pos inside, if_pos (by omega)]
    by_cases last : k - offset < text.length
    · exact List.getD_append _ _ _ _ last
    · have position : k - offset - text.length = 0 := by omega
      rw [List.getD_append_right _ _ _ _ (by omega), position,
        List.getD_eq_default text 0 (by omega)]
      rfl
  · rw [if_neg inside, if_neg (by omega)]

/-- The copy stays in a stretch of the buffer exactly if there is room for the
terminator. -/
theorem stringStores_within_iff (offset size : Nat) (text : List UInt8) :
    (∀ store ∈ stringStores offset text,
        offset ≤ store.address ∧ store.address < offset + size) ↔ text.length < size := by
  constructor
  · intro within
    have last : ({ address := offset + text.length, byte := 0 } : Store) ∈
        stringStores offset text := by
      rw [stringStores, List.mapIdx_concat]
      exact List.mem_append_right _ (List.mem_singleton_self _)
    have bound := (within _ last).2
    exact Nat.lt_of_add_lt_add_left bound
  · intro fits store member
    obtain ⟨i, inside, rfl⟩ := List.mem_mapIdx.mp member
    rw [List.length_append, List.length_singleton] at inside
    exact ⟨Nat.le_add_right _ _, by simp only; omega⟩

/-- What the copy of the program name stores, as indices of `fname`. -/
def nameStores (command : CString) : List Store :=
  stringStores 0 (programName command).chars

/-- What the copy of the argument stores, as indices of `arg_buf`. -/
def argumentStores (pid : Nat) (command : CString) : List Store :=
  stringStores (maxArgSize * pid) (argumentText command)

theorem argumentStores_within_iff (pid : Nat) (command : CString) :
    (∀ store ∈ argumentStores pid command,
        maxArgSize * pid ≤ store.address ∧ store.address < maxArgSize * (pid + 1)) ↔
      (argumentText command).length < maxArgSize := by
  have within := stringStores_within_iff (maxArgSize * pid) maxArgSize (argumentText command)
  rw [← Nat.mul_succ] at within
  exact within

/-- Name and argument have room in their buffers. -/
def CommandFits (command : CString) : Prop :=
  (programName command).chars.length < maxArgSize ∧
    (argumentText command).length < maxArgSize

/-! ## What one event does to the arguments -/

/-- A free slot is claimed for a command. -/
structure Claims (kernel target : Kernel) (pid : Nat) (command : CString) : Prop where
  free : kernel.processStatus pid = false
  argBuf : target.argBuf =
    putString kernel.argBuf (maxArgSize * pid) (argumentText command)
  argAvailable : target.argAvailable =
    Function.update kernel.argAvailable pid (decide (argumentText command ≠ []))
  status : target.processStatus = Function.update kernel.processStatus pid true

/-- The command of the program that an event starts, if it starts one. -/
def startedCommand : ProcessEvent → Option CString
  | .bootLaunch _ _ => some shellCommand
  | .execute _ _ command => command
  | .key _ _ _ => some shellCommand
  | _ => none

/-- The two ways in which an event can concern the arguments: it claims a slot
for a command, or it leaves the buffer alone and may end its caller. -/
inductive ArgumentEffect (kernel target : Kernel) : ProcessEvent → ProcessReply → Prop
  | claimed (event : ProcessEvent) (reply : ProcessReply) (pid : Nat) (command : CString) :
      startedCommand event = some command → Claims kernel target pid command →
      (startedBy reply = none ∨ startedBy reply = some pid) → endsProcess reply = false →
      ArgumentEffect kernel target event reply
  | kept (event : ProcessEvent) (reply : ProcessReply) :
      target.argBuf = kernel.argBuf → target.argAvailable = kernel.argAvailable →
      startedBy reply = none →
      (∀ slot, target.processStatus slot = kernel.processStatus slot ∨
        (target.processStatus slot = false ∧ kernel.userProcess = some slot ∧
          endsProcess reply = true)) →
      ArgumentEffect kernel target event reply

/-- A string starts with a character unless it is empty. -/
theorem strlen_putString_pos (buffer : Nat → UInt8) (offset : Nat) (command : CString) :
    0 < strlen (fun k => putString buffer offset (argumentText command) (offset + k))
        addressSpace ↔ argumentText command ≠ [] := by
  have first : putString buffer offset (argumentText command) (offset + 0) =
      (argumentText command).getD 0 0 := by
    rw [putString, if_pos (by omega), Nat.add_sub_cancel_left]
  have space : addressSpace = 4294967295 + 1 := rfl
  rw [space, strlen]
  simp only [first]
  cases textEq : argumentText command with
  | nil => simp
  | cons char rest =>
      have member : char ∈ command.chars := by
        have inText : char ∈ argumentText command := by
          rw [textEq]
          exact List.mem_cons_self
        exact List.mem_of_mem_drop ((List.dropWhile_suffix _).subset inText)
      have notNul : char ≠ 0 := by
        rintro rfl
        exact command.noNul member
      simp [notNul]

theorem claimProcess_claims {kernel : Kernel} {pid : Nat} (command : CString) (terminalNum : Nat)
    (free : kernel.processStatus pid = false) :
    Claims kernel ((kernel.setName (programName command)).claimProcess command pid terminalNum)
      pid command := by
  constructor
  · exact free
  · rfl
  · have available := strlen_putString_pos kernel.argBuf (maxArgSize * pid) command
    exact congrArg (Function.update kernel.argAvailable pid) (decide_eq_decide.mpr available)
  · rfl

theorem Claims.started {kernel claimed : Kernel} {pid : Nat} {command : CString}
    (claims : Claims kernel claimed pid command) (terminalNum : Nat) (isTerminal : Int)
    (entry : Nat) (registers : Registers) :
    Claims kernel (claimed.startProcess pid terminalNum isTerminal entry registers) pid
      command := by
  rw [Kernel.startProcess_eq]
  exact ⟨claims.free, claims.argBuf, claims.argAvailable, claims.status⟩

/-- An execution that starts a process claims its slot and copies the name. -/
theorem Claims.of_started {kernel target : Kernel} {registers : Registers}
    {tempBuf : Nat → UInt8} {command : CString} {terminalNum pid entry : Nat} {isTerminal : Int}
    (started : executeWithTerminalNum kernel registers tempBuf (some command) terminalNum
      isTerminal = some (.started pid entry, target)) :
    Claims kernel target pid command ∧
      target.fname = putString kernel.fname 0 (programName command).chars := by
  rcases executeWithTerminalNum_cases started with
    ⟨failed, -⟩ | ⟨text, slot, isCommand, found, ⟨failed, -⟩ | ⟨otherEntry, isStarted, rfl⟩⟩
  · contradiction
  · contradiction
  · cases isCommand
    cases isStarted
    refine ⟨(claimProcess_claims command terminalNum
      (Kernel.getEmptyPid_eq_some found).2.2).started terminalNum isTerminal entry registers, ?_⟩
    rw [Kernel.startProcess_eq]
    rfl

/-- An execution claims a slot, or leaves slots and arguments alone. -/
theorem executeWithTerminalNum_arguments {kernel target : Kernel} {registers : Registers}
    {tempBuf : Nat → UInt8} {command : Option CString} {terminalNum : Nat} {isTerminal : Int}
    {reply : ExecuteReply}
    (ended : executeWithTerminalNum kernel registers tempBuf command terminalNum isTerminal =
      some (reply, target)) :
    (reply = .failed ∧ target.argBuf = kernel.argBuf ∧
        target.argAvailable = kernel.argAvailable ∧
        target.processStatus = kernel.processStatus) ∨
      ∃ text pid, command = some text ∧ Claims kernel target pid text ∧
        (reply = .failed ∨ ∃ entry, reply = .started pid entry) := by
  rcases executeWithTerminalNum_cases ended with
    ⟨failed, fname, rfl⟩ | ⟨text, pid, isCommand, found, outcome⟩
  · exact .inl ⟨failed, rfl, rfl, rfl⟩
  · obtain ⟨-, -, free⟩ := Kernel.getEmptyPid_eq_some found
    have claims := claimProcess_claims text terminalNum free
    rcases outcome with ⟨failed, -, -, rfl⟩ | ⟨entry, started, rfl⟩
    · exact .inr ⟨text, pid, isCommand, claims, .inl failed⟩
    · exact .inr ⟨text, pid, isCommand, claims.started terminalNum isTerminal entry registers,
        .inr ⟨entry, started⟩⟩

theorem ArgumentEffect.executed {kernel target : Kernel} {registers : Registers}
    {tempBuf : Nat → UInt8} {command : Option CString} {terminalNum : Nat} {isTerminal : Int}
    {outcome : ExecuteReply} {event : ProcessEvent} {reply : ProcessReply}
    (ended : executeWithTerminalNum kernel registers tempBuf command terminalNum isTerminal =
      some (outcome, target))
    (isCommand : startedCommand event = command) (started : startedBy reply = startedPid outcome)
    (alive : endsProcess reply = false) : ArgumentEffect kernel target event reply := by
  rcases executeWithTerminalNum_arguments ended with
    ⟨rfl, argBuf, argAvailable, status⟩ | ⟨text, pid, rfl, claims, rfl | ⟨entry, rfl⟩⟩
  · exact .kept event reply argBuf argAvailable started fun slot => .inl (congrFun status slot)
  · exact .claimed event reply pid text isCommand claims (.inl started) alive
  · exact .claimed event reply pid text isCommand claims (.inr started) alive

theorem processStep_arguments {kernel target : Kernel} {event : ProcessEvent}
    {reply : ProcessReply} (accounted : kernel.Accounted)
    (stepped : processStep kernel event = some (reply, target)) :
    ArgumentEffect kernel target event reply := by
  cases processStep_moved stepped with
  | launched registers tempBuf outcome noCurrent executed => exact .executed executed rfl rfl rfl
  | executed caller registers tempBuf command outcome isUser executed =>
      exact .executed executed rfl rfl rfl
  | halted caller tempBuf status outcome isUser ended =>
      obtain ⟨isCurrent, isRunning⟩ := Kernel.userProcess_eq_some.mp isUser
      have pidField : (kernel.pcb caller).pid = caller := (accounted.running caller isRunning).2
      have stopped : ∀ final : Kernel, final.argBuf = kernel.argBuf →
          final.argAvailable = kernel.argAvailable →
          final.processStatus = (kernel.stopProcess caller).processStatus →
          endsProcess (.halted outcome) = true →
          ArgumentEffect kernel final (.halt tempBuf status) (.halted outcome) := by
        intro final argBuf argAvailable running ends
        refine .kept _ _ argBuf argAvailable rfl fun slot => ?_
        rw [running]
        by_cases own : slot = caller
        · rw [own]
          exact .inr ⟨Function.update_self .., isUser, ends⟩
        · exact .inl (Function.update_of_ne own ..)
      rcases halt_cases isCurrent ended with
        ⟨-, entry, rfl, rfl⟩ | ⟨-, -, rfl, rfl⟩ | ⟨-, -, parent, -, rfl, rfl⟩
      · exact .kept _ _ rfl rfl rfl fun slot => .inl rfl
      · rw [pidField]
        exact stopped _ rfl rfl rfl rfl
      · rw [pidField]
        exact stopped _ rfl rfl rfl rfl
  | cleared isClearing targetEq =>
      rw [targetEq]
      exact .kept _ _ kernel.clearScreen_argBuf kernel.clearScreen_argAvailable rfl
        fun slot => .inl (congrFun kernel.clearScreen_processStatus slot)
  | keyed registers tempBuf c outcome ended =>
      obtain ⟨result, -, ⟨-, rfl, rfl⟩ | ⟨terminalId, started, -, rfl, executed⟩⟩ :=
        keyboardInterrupt_cases ended
      · exact .kept _ _ rfl rfl rfl fun slot => .inl rfl
      · have effect : ArgumentEffect { kernel with
            terminals := { console := result.screen, keyboard := result.keyboard } } target
            (.key registers tempBuf c) (.keyed (some started)) := .executed executed rfl rfl rfl
        cases effect with
        | claimed pid command isCommand claims isStarted alive =>
            exact .claimed _ _ pid command isCommand
              ⟨claims.free, claims.argBuf, claims.argAvailable, claims.status⟩ isStarted alive
        | kept argBuf argAvailable isStarted status =>
            exact .kept _ _ argBuf argAvailable isStarted status
  | ticked registers loaded ended =>
      rcases pitHandler_cases ended with ⟨rfl, rfl⟩ | ⟨previous, pid, -, -, -, -, rfl, rfl⟩
      · exact .kept _ _ rfl rfl rfl fun slot => .inl rfl
      · exact .kept _ _ rfl rfl rfl fun slot => .inl rfl

/-! ## What the rows hold -/

/-- Every command that an event executes fits. -/
def CommandsFit (_kernel : Kernel) : SystemEvent → SystemReply → Prop
  | .process (.execute _ _ (some command)), _ => CommandFits command
  | _, _ => True

/-- The shells that keys and the boot loop start have no argument. -/
theorem CommandsFit.started {kernel : Kernel} {event : ProcessEvent} {reply : SystemReply}
    {command : CString} (fits : CommandsFit kernel (.process event) reply)
    (isCommand : startedCommand event = some command) : CommandFits command := by
  have shellFits : CommandFits shellCommand := ⟨by decide, by decide⟩
  cases event with
  | bootLaunch registers tempBuf =>
      cases isCommand
      exact shellFits
  | execute registers tempBuf text =>
      cases isCommand
      exact fits
  | halt tempBuf status => contradiction
  | clear => contradiction
  | key registers tempBuf c =>
      cases isCommand
      exact shellFits
  | tick registers => contradiction

/-- A row starts with a text and its terminator. -/
def RowHolds (kernel : Kernel) (pid : Nat) (text : List UInt8) : Prop :=
  ∀ k, k ≤ text.length → kernel.argBuf (maxArgSize * pid + k) = text.getD k 0

namespace Claims

variable {kernel target : Kernel} {pid : Nat} {command : CString}

theorem rowHolds (claims : Claims kernel target pid command) :
    RowHolds target pid (argumentText command) := by
  intro k inside
  rw [claims.argBuf, putString, if_pos (by omega), Nat.add_sub_cancel_left]

/-- The rows of other processes are left alone by an argument that fits. -/
theorem otherRow (claims : Claims kernel target pid command)
    (fits : (argumentText command).length < maxArgSize) {other : Nat} (distinct : other ≠ pid)
    {k : Nat} (inRow : k < maxArgSize) :
    target.argBuf (maxArgSize * other + k) = kernel.argBuf (maxArgSize * other + k) := by
  rw [claims.argBuf, putString, if_neg]
  unfold maxArgSize at *
  omega

theorem otherStatus (claims : Claims kernel target pid command) {other : Nat}
    (distinct : other ≠ pid) : target.processStatus other = kernel.processStatus other := by
  rw [claims.status, Function.update_of_ne distinct]

theorem otherAvailable (claims : Claims kernel target pid command) {other : Nat}
    (distinct : other ≠ pid) : target.argAvailable other = kernel.argAvailable other := by
  rw [claims.argAvailable, Function.update_of_ne distinct]

end Claims

/-- The commands that the live processes were started with, as the events and
their replies tell. -/
def commandsAfter (seen : Nat → Option CString) :
    SystemEvent → SystemReply → Nat → Option CString
  | .process event, .process caller reply =>
      match startedBy reply with
      | some pid => Function.update seen pid (startedCommand event)
      | none =>
          match caller with
          | some pid => if endsProcess reply then Function.update seen pid none else seen
          | none => seen
  | _, _ => seen

/-- The accounts of the process table go on through every event. -/
theorem accounted_systemStep {kernel target : Kernel} {event : SystemEvent} {reply : SystemReply}
    (accounted : kernel.Accounted) (stepped : systemStep kernel event = some (reply, target)) :
    target.Accounted := by
  cases systemStep_cases stepped with
  | process event answer moved => exact accounted.step (processStep_moved moved)
  | call pid memory asked answer isUser called =>
      rw [Kernel.Accounted, (KeepsProcesses.systemCall called).table]
      exact accounted
  | rtc targetEq =>
      subst targetEq
      exact accounted

/-- The argument of a live process is in its row, and says whether there is
one. -/
structure ArgumentStored (kernel : Kernel) (pid : Nat) (command : CString) : Prop where
  running : kernel.processStatus pid = true
  available : kernel.argAvailable pid = decide (argumentText command ≠ [])
  fits : (argumentText command).length < maxArgSize
  row : RowHolds kernel pid (argumentText command)

/-- Every row in use ends inside, and holds the argument of its process. -/
structure Stored (kernel : Kernel) (seen : Nat → Option CString) : Prop where
  accounted : kernel.Accounted
  ends : ∀ pid, kernel.processStatus pid = true →
    ∃ k, k < maxArgSize ∧ kernel.argBuf (maxArgSize * pid + k) = 0
  stored : ∀ pid command, seen pid = some command → ArgumentStored kernel pid command

namespace Stored

variable {kernel target : Kernel} {seen : Nat → Option CString}

theorem of_kept (stored : Stored kernel seen) {next : Nat → Option CString}
    (accounted : target.Accounted) (argBuf : target.argBuf = kernel.argBuf)
    (argAvailable : target.argAvailable = kernel.argAvailable)
    (fewer : ∀ pid, target.processStatus pid = true → kernel.processStatus pid = true)
    (observed : ∀ pid command, next pid = some command →
      seen pid = some command ∧ target.processStatus pid = kernel.processStatus pid) :
    Stored target next := by
  constructor
  · exact accounted
  · rw [argBuf]
    exact fun pid isRunning => stored.ends pid (fewer pid isRunning)
  · intro pid command isSeen
    obtain ⟨wasSeen, status⟩ := observed pid command isSeen
    obtain ⟨running, available, fits, row⟩ := stored.stored pid command wasSeen
    constructor
    · rw [status]
      exact running
    · rw [argAvailable]
      exact available
    · exact fits
    · unfold RowHolds
      rw [argBuf]
      exact row

theorem claim (stored : Stored kernel seen) {next : Nat → Option CString} {pid : Nat}
    {command : CString} (accounted : target.Accounted)
    (claims : Claims kernel target pid command) (fits : CommandFits command)
    (observed : ∀ other, next other = seen other ∨ (other = pid ∧ next pid = some command)) :
    Stored target next := by
  have own : ArgumentStored target pid command := by
    constructor
    · rw [claims.status, Function.update_self]
    · rw [claims.argAvailable, Function.update_self]
    · exact fits.2
    · exact claims.rowHolds
  constructor
  · exact accounted
  · intro other isRunning
    by_cases isNew : other = pid
    · rw [isNew]
      refine ⟨_, fits.2, (claims.rowHolds _ le_rfl).trans ?_⟩
      exact List.getD_eq_default _ _ le_rfl
    · rw [claims.otherStatus isNew] at isRunning
      obtain ⟨k, inRow, isEnd⟩ := stored.ends other isRunning
      exact ⟨k, inRow, (claims.otherRow fits.2 isNew inRow).trans isEnd⟩
  · intro other text isSeen
    rcases observed other with same | ⟨rfl, isCommand⟩
    · have before := stored.stored other text (same.symm.trans isSeen)
      have isOld : other ≠ pid := by
        rintro rfl
        have taken := before.running
        rw [claims.free] at taken
        contradiction
      constructor
      · rw [claims.otherStatus isOld]
        exact before.running
      · rw [claims.otherAvailable isOld]
        exact before.available
      · exact before.fits
      · intro k inside
        exact (claims.otherRow fits.2 isOld (Nat.lt_of_le_of_lt inside before.fits)).trans
          (before.row k inside)
    · rw [isCommand] at isSeen
      cases isSeen
      exact own

theorem process (stored : Stored kernel seen) {event : ProcessEvent} {reply : ProcessReply}
    (fits : CommandsFit kernel (.process event) (.process kernel.userProcess reply))
    (stepped : processStep kernel event = some (reply, target)) :
    Stored target (commandsAfter seen (.process event) (.process kernel.userProcess reply)) := by
  have accounted := stored.accounted.step (processStep_moved stepped)
  cases processStep_arguments stored.accounted stepped with
  | claimed pid command isCommand claims isStarted alive =>
      apply stored.claim accounted claims (fits.started isCommand)
      intro other
      rcases isStarted with notStarted | started
      · simp only [commandsAfter, notStarted, alive]
        cases kernel.userProcess with
        | none => exact .inl rfl
        | some caller => exact .inl rfl
      · simp only [commandsAfter, started, isCommand]
        by_cases isNew : other = pid
        · exact .inr ⟨isNew, Function.update_self ..⟩
        · exact .inl (Function.update_of_ne isNew ..)
  | kept argBuf argAvailable notStarted status =>
      apply stored.of_kept accounted argBuf argAvailable
      · intro slot isRunning
        rcases status slot with same | ⟨ended, -, -⟩
        · exact same.symm.trans isRunning
        · rw [ended] at isRunning
          contradiction
      · intro slot command isSeen
        simp only [commandsAfter, notStarted] at isSeen
        cases callerEq : kernel.userProcess with
        | none =>
            rw [callerEq] at isSeen status
            rcases status slot with same | ⟨-, isCaller, -⟩
            · exact ⟨isSeen, same⟩
            · contradiction
        | some caller =>
            rw [callerEq] at isSeen status
            simp only at isSeen
            by_cases isEnded : endsProcess reply = true ∧ slot = caller
            · rw [if_pos isEnded.1, isEnded.2, Function.update_self] at isSeen
              contradiction
            · have wasSeen : seen slot = some command := by
                split at isSeen
                · next ends =>
                    rwa [Function.update_of_ne fun same => isEnded ⟨ends, same⟩] at isSeen
                · exact isSeen
              rcases status slot with same | ⟨-, isCaller, ends⟩
              · exact ⟨wasSeen, same⟩
              · exact absurd ⟨ends, (Option.some.inj isCaller).symm⟩ isEnded

theorem step (stored : Stored kernel seen) {event : SystemEvent} {reply : SystemReply}
    (fits : CommandsFit kernel event reply)
    (stepped : systemStep kernel event = some (reply, target)) :
    Stored target (commandsAfter seen event reply) := by
  have accounted := accounted_systemStep stored.accounted stepped
  cases systemStep_cases stepped with
  | process event answer moved => exact stored.process fits moved
  | call caller memory asked answer isUser called =>
      have same := KeepsProcesses.systemCall called
      have status := congrArg ProcessTable.running same.table
      apply stored.of_kept accounted same.argBuf same.argAvailable
      · intro pid isRunning
        exact (congrFun status pid).symm.trans isRunning
      · exact fun pid command isSeen => ⟨isSeen, congrFun status pid⟩
  | rtc targetEq =>
      subst targetEq
      apply stored.of_kept accounted rfl rfl
      · exact fun pid isRunning => isRunning
      · exact fun pid command isSeen => ⟨isSeen, rfl⟩

theorem boot (fs : Volume) (paging : PageTables) (memory : Memory)
    (printBuffer argBuf fname : Nat → UInt8) (currentDirReadIndex : Int) :
    Stored (Kernel.boot fs paging memory printBuffer argBuf fname currentDirReadIndex)
      fun _ => none := by
  constructor
  · exact Kernel.Accounted.boot ..
  · exact fun _ isRunning => nomatch isRunning
  · exact fun _ _ isSeen => nomatch isSeen

/-- Every run whose commands fit. -/
theorem of_run {fs : Volume} {paging : PageTables} {memory : Memory}
    {printBuffer argBuf fname : Nat → UInt8} {currentDirReadIndex : Int}
    {trace : List (SystemEvent × SystemReply)} {kernel : Kernel}
    (run : GuardedRun systemStep CommandsFit
      (Kernel.boot fs paging memory printBuffer argBuf fname currentDirReadIndex) trace kernel) :
    Stored kernel (observed commandsAfter (fun _ => none) trace) := by
  refine (run.simulation (fun _ _ _ => True) Stored ?_
    (follows_any commandsAfter _ trace) (Stored.boot ..)).2
  intro state seen event reply target stored fits _ stepped
  exact ⟨trivial, stored.step fits stepped⟩

end Stored

/-! ## Isolation -/

/-- The string that `getargs` has for a process. -/
def deliveredArgument (kernel : Kernel) (pid : Nat) : Option (List UInt8) :=
  let row := fun k => kernel.argBuf (maxArgSize * pid + k)
  if kernel.argAvailable pid then some ((List.range (strlen row addressSpace)).map row) else none

/-- A start leaves alone what is not the storage of its own process. -/
structure StartIsolated (kernel target : Kernel) (pid : Nat) (command : CString) : Prop where
  name : ∀ store ∈ nameStores command, store.address < maxArgSize
  row : ∀ store ∈ argumentStores pid command,
    maxArgSize * pid ≤ store.address ∧ store.address < maxArgSize * (pid + 1)
  available : ∀ other, other ≠ pid → target.argAvailable other = kernel.argAvailable other
  argument : ∀ other, other ≠ pid → kernel.processStatus other = true →
    deliveredArgument target other = deliveredArgument kernel other
  status : ∀ other, other ≠ pid → target.processStatus other = kernel.processStatus other

/-- A row that ends inside delivers the same string as long as it is left
alone. -/
theorem deliveredArgument_congr {kernel target : Kernel} {pid : Nat}
    (available : target.argAvailable pid = kernel.argAvailable pid)
    (row : ∀ k, k < maxArgSize →
      target.argBuf (maxArgSize * pid + k) = kernel.argBuf (maxArgSize * pid + k))
    (ends : ∃ k, k < maxArgSize ∧ kernel.argBuf (maxArgSize * pid + k) = 0) :
    deliveredArgument target pid = deliveredArgument kernel pid := by
  have rowBack : ∀ k, k < maxArgSize →
      kernel.argBuf (maxArgSize * pid + k) = target.argBuf (maxArgSize * pid + k) :=
    fun k inRow => (row k inRow).symm
  obtain ⟨lengths, short⟩ := strlen_congr addressSpace rowBack ends
  unfold deliveredArgument
  simp only [available, ← lengths]
  congr 2
  apply List.map_congr_left
  intro k member
  apply row
  rcases short with fits | empty
  · exact Nat.lt_trans (List.mem_range.mp member) fits
  · contradiction

/-- A start is isolated exactly if its command fits, where the commands before
it did. -/
theorem Stored.isolated_iff {kernel target : Kernel} {seen : Nat → Option CString}
    (stored : Stored kernel seen) {pid : Nat} {command : CString}
    (claims : Claims kernel target pid command) :
    StartIsolated kernel target pid command ↔ CommandFits command := by
  have nameFits : (∀ store ∈ nameStores command, store.address < maxArgSize) ↔
      (programName command).chars.length < maxArgSize := by
    have within := stringStores_within_iff 0 maxArgSize (programName command).chars
    simp only [Nat.zero_le, true_and, Nat.zero_add] at within
    exact within
  have rowFits := argumentStores_within_iff pid command
  constructor
  · intro isolated
    exact ⟨nameFits.mp isolated.name, rowFits.mp isolated.row⟩
  · intro fits
    constructor
    · exact nameFits.mpr fits.1
    · exact rowFits.mpr fits.2
    · exact fun other distinct => claims.otherAvailable distinct
    · intro other distinct isRunning
      apply deliveredArgument_congr (claims.otherAvailable distinct)
      · exact fun k inRow => claims.otherRow fits.2 distinct inRow
      · exact stored.ends other isRunning
    · exact fun other distinct => claims.otherStatus distinct

/-- In every run whose commands fit, a start stores the name and the argument
of its command, and it is isolated exactly if that command fits too. -/
theorem argumentStorage_isolated_iff {fs : Volume} {paging : PageTables} {screen : Memory}
    {printBuffer argBuf fname : Nat → UInt8} {currentDirReadIndex : Int}
    {trace : List (SystemEvent × SystemReply)} {kernel target : Kernel}
    (run : GuardedRun systemStep CommandsFit
      (Kernel.boot fs paging screen printBuffer argBuf fname currentDirReadIndex) trace kernel)
    {registers : Registers} {tempBuf : Nat → UInt8} {command : CString}
    {terminalNum pid entry : Nat} {isTerminal : Int}
    (started : executeWithTerminalNum kernel registers tempBuf (some command) terminalNum
      isTerminal = some (.started pid entry, target)) :
    target.fname = storeAll kernel.fname (nameStores command) ∧
      target.argBuf = storeAll kernel.argBuf (argumentStores pid command) ∧
      (StartIsolated kernel target pid command ↔ CommandFits command) := by
  have stored := Stored.of_run run
  obtain ⟨claims, fnameEq⟩ := Claims.of_started started
  refine ⟨?_, ?_, stored.isolated_iff claims⟩
  · rw [nameStores, storeAll_stringStores]
    exact fnameEq
  · rw [argumentStores, storeAll_stringStores]
    exact claims.argBuf

/-- The root shell is started with a command that fits. -/
theorem argumentStorage_isolated_iff_rootShell : ∃ target,
    executeWithTerminalNum shellKernel { esp := 0, ebp := 0 } (fun _ => 0) (some shellCommand) 0 1 =
      some (.started 1 0, target) ∧ StartIsolated shellKernel target 1 shellCommand := by
  obtain ⟨target, started⟩ : ∃ target, executeWithTerminalNum shellKernel { esp := 0, ebp := 0 }
      (fun _ => 0) (some shellCommand) 0 1 = some (.started 1 0, target) := ⟨_, rfl⟩
  have isolated := (argumentStorage_isolated_iff (.nil shellKernel) started).2.2
  exact ⟨target, started, isolated.mpr ⟨by decide, by decide⟩⟩

/-- The command `"shell"` with an argument. -/
def shellWith (text : List UInt8) (noNul : 0 ∉ text) : CString :=
  { chars := shellCommand.chars ++ 32 :: text
    noNul := by
      intro member
      rcases List.mem_append.mp member with inName | inRest
      · exact shellCommand.noNul inName
      · rcases List.mem_cons.mp inRest with isBlank | inText
        · contradiction
        · exact noNul inText }

/-- An argument of 4096 characters. -/
def longCommand : CString :=
  shellWith (List.replicate 4096 97) fun member =>
    absurd (List.eq_of_mem_replicate member) (by decide)

/-- With a longer argument the terminator goes to the row of the next process. -/
theorem longArgument_not_isolated :
    ¬ ∀ (trace : List (SystemEvent × SystemReply)) (kernel target : Kernel)
      (registers : Registers) (tempBuf : Nat → UInt8) (command : CString)
      (caller : Option Nat) (pid entry : Nat), Run systemStep shellKernel trace kernel →
      systemStep kernel (.process (.execute registers tempBuf (some command))) =
        some (.process caller (.executed (.started pid entry)), target) →
      StartIsolated kernel target pid command := by
  intro isolated
  obtain ⟨first, second, launched, started⟩ : ∃ first second,
      systemStep shellKernel (.process (.bootLaunch { esp := 0, ebp := 0 } fun _ => 0)) =
        some (.process none (.launched (.started 1 0)), first) ∧
      systemStep first
        (.process (.execute { esp := 0, ebp := 0 } (fun _ => 0) (some longCommand))) =
          some (.process (some 1) (.executed (.started 2 0)), second) := ⟨_, _, rfl, rfl⟩
  have row := (isolated _ first second _ _ longCommand _ 2 0
    (.cons trivial launched (.nil first)) started).row
  have text : argumentText longCommand = List.replicate 4096 97 := rfl
  rw [argumentStores_within_iff, text, List.length_replicate] at row
  exact absurd row (by decide)

/-! ## Arguments of other processes -/

/-- What `getargs` answers a process whose flag says whether there is a text. -/
theorem getargs_cases {kernel : Kernel} {pid : Nat} {text : List UInt8}
    (available : kernel.argAvailable pid = decide (text ≠ [])) (buf : Nat) (nbytes : Int) :
    (buf = 0 ∨ text = []) ∧
        (getargs kernel pid buf nbytes).value = -1 ∧ (getargs kernel pid buf nbytes).stores = [] ∨
      (buf ≠ 0 ∧ text ≠ []) ∧ (getargs kernel pid buf nbytes).value = 0 ∧
        (getargs kernel pid buf nbytes).stores = storesAt buf ((List.range (uint32 nbytes)).map
          fun k => kernel.argBuf (maxArgSize * pid + k)) := by
  unfold Syscall.getargs
  by_cases null : buf = 0
  · rw [if_pos null]
    exact .inl ⟨.inl null, rfl, rfl⟩
  · rw [if_neg null, available]
    by_cases empty : text = []
    · rw [if_pos (by simp [empty])]
      exact .inl ⟨.inr empty, rfl, rfl⟩
    · rw [if_neg (by simp [empty])]
      exact .inr ⟨⟨null, empty⟩, rfl, rfl⟩

/-- What `getargs` answers follows from the command of the process, as long as
it is not asked for more than the argument and its terminator. -/
theorem ArgumentStored.getargs {kernel : Kernel} {pid : Nat} {command : CString}
    (stored : ArgumentStored kernel pid command) (buf : Nat) {nbytes : Int} (nonneg : 0 ≤ nbytes)
    (short : argumentText command = [] ∨ nbytes ≤ (argumentText command).length + 1) :
    ((getargs kernel pid buf nbytes).value, (getargs kernel pid buf nbytes).stores) =
      if buf = 0 ∨ argumentText command = [] then (-1, [])
      else (0, storesAt buf
        ((List.range nbytes.toNat).map fun k => (argumentText command).getD k 0)) := by
  rcases getargs_cases stored.available buf nbytes with
    ⟨refuses, value, stores⟩ | ⟨⟨notNull, nonempty⟩, value, stores⟩
  · rw [if_pos refuses, value, stores]
  · have fits := stored.fits
    unfold maxArgSize at fits
    have bounded : nbytes ≤ (argumentText command).length + 1 := short.resolve_left nonempty
    have count : uint32 nbytes = nbytes.toNat := by
      unfold uint32
      omega
    have bytes : (List.range nbytes.toNat).map
        (fun k => kernel.argBuf (maxArgSize * pid + k)) =
        (List.range nbytes.toNat).map fun k => (argumentText command).getD k 0 := by
      apply List.map_congr_left
      intro k member
      have inside := List.mem_range.mp member
      exact stored.row k (by omega)
    rw [if_neg (not_or.mpr ⟨notNull, nonempty⟩), value, stores, count, bytes]

/-- The guard of runs whose commands fit and whose calls keep to user memory. -/
def commandsFit (kernel : Kernel) (event : SystemEvent) (reply : SystemReply) : Prop :=
  CommandsFit kernel event reply ∧ BufferInUserMemory kernel event

theorem getargs_called (kernel : Kernel) (pid buf : Nat) (nbytes : Int) :
    (getargs kernel pid buf nbytes).called = none := by
  unfold getargs
  split
  · rfl
  · split
    · rfl
    · rfl

theorem getargs_fillLength_le (kernel : Kernel) (pid buf : Nat) {nbytes : Int}
    (nonneg : 0 ≤ nbytes) : fillLength kernel pid (.getargs buf nbytes) ≤ nbytes.toNat := by
  have wrapped : uint32 nbytes ≤ nbytes.toNat := by
    unfold uint32
    omega
  simp only [fillLength]
  split
  · exact Nat.zero_le _
  · split
    · exact Nat.zero_le _
    · exact wrapped

theorem getargs_step {kernel : Kernel} {pid : Nat} (isUser : kernel.userProcess = some pid)
    (memory : Memory) {buf : Nat} {nbytes : Int} (nonneg : 0 ≤ nbytes)
    (user : ∀ k, k < nbytes.toNat → UserAddress ((buf + k) % 4294967296)) :
    ∃ target, systemStep kernel (.call memory (.getargs buf nbytes)) =
      some (.call
        { pid := pid
          value := (getargs kernel pid buf nbytes).value
          called := none
          stores := (getargs kernel pid buf nbytes).stores }, target) := by
  have inUser : ∀ k, k < fillLength kernel pid (.getargs buf nbytes) →
      UserAddress ((buf + k) % 4294967296) := fun k inside =>
    user k (Nat.lt_of_lt_of_le inside (getargs_fillLength_le kernel pid buf nonneg))
  have attempted : attempt kernel pid memory (.getargs buf nbytes) =
      some (getargs kernel pid buf nbytes) := rfl
  obtain ⟨stored, storedEq⟩ := Option.isSome_iff_exists.mp
    (userStores_isSome (getargs kernel pid buf nbytes).kernel
      (attempt_stores_user attempted inUser))
  refine ⟨finish stored pid (.getargs buf nbytes) (getargs kernel pid buf nbytes), ?_⟩
  simp only [systemStep, isUser, systemCall, attempted, storedEq, Option.map_some, getargs_called]

/-- In any two runs whose commands fit, whose calls keep to user memory and in
which a process was started with the same command, every `getargs` that it makes
answers the same and stores the same bytes, as long as it does not ask for more
than the argument and its terminator. -/
theorem getargs_tells_own {fs : Volume} {paging : PageTables} {screen : Memory}
    {printBuffer argBuf fname : Nat → UInt8} {currentDirReadIndex : Int}
    {firstTrace secondTrace : List (SystemEvent × SystemReply)} {first second : Kernel}
    {pid : Nat} {command : CString}
    (firstRun : GuardedRun systemStep commandsFit
      (Kernel.boot fs paging screen printBuffer argBuf fname currentDirReadIndex)
      firstTrace first)
    (secondRun : GuardedRun systemStep commandsFit
      (Kernel.boot fs paging screen printBuffer argBuf fname currentDirReadIndex)
      secondTrace second)
    (firstCommand : observed commandsAfter (fun _ => none) firstTrace pid = some command)
    (secondCommand : observed commandsAfter (fun _ => none) secondTrace pid = some command)
    (firstUser : first.userProcess = some pid) (secondUser : second.userProcess = some pid)
    (firstMemory secondMemory : Memory) {buf : Nat} {nbytes : Int} (nonneg : 0 ≤ nbytes)
    (short : argumentText command = [] ∨ nbytes ≤ (argumentText command).length + 1)
    (user : ∀ k, k < nbytes.toNat → UserAddress ((buf + k) % 4294967296)) :
    ∃ reply firstAfter secondAfter,
      systemStep first (.call firstMemory (.getargs buf nbytes)) =
        some (.call reply, firstAfter) ∧
      systemStep second (.call secondMemory (.getargs buf nbytes)) =
        some (.call reply, secondAfter) := by
  have firstStored := (Stored.of_run (firstRun.mono fun _ _ _ guarded => guarded.1)).stored pid
    command firstCommand
  have secondStored := (Stored.of_run (secondRun.mono fun _ _ _ guarded => guarded.1)).stored pid
    command secondCommand
  have same := (firstStored.getargs buf nonneg short).trans
    (secondStored.getargs buf nonneg short).symm
  obtain ⟨firstAfter, firstStep⟩ := getargs_step firstUser firstMemory nonneg user
  obtain ⟨secondAfter, secondStep⟩ := getargs_step secondUser secondMemory nonneg user
  refine ⟨_, firstAfter, secondAfter, firstStep, ?_⟩
  rw [secondStep, (Prod.mk.inj same).1, (Prod.mk.inj same).2]

/-- Two events that differ in the argument of an executed command at most. -/
inductive SameButArgument : SystemEvent → SystemEvent → Prop
  | same (event : SystemEvent) : SameButArgument event event
  | execute (registers : Registers) (tempBuf : Nat → UInt8) (first second : CString) :
      programName first = programName second →
      SameButArgument (.process (.execute registers tempBuf (some first)))
        (.process (.execute registers tempBuf (some second)))

/-- Two runs with the same events and replies but for arguments. -/
def SameButArguments (first second : List (SystemEvent × SystemReply)) : Prop :=
  List.Forall₂ (fun a b => SameButArgument a.1 b.1 ∧ a.2 = b.2) first second

/-- A command with the argument `"xyz"` or `"xy\x7b"`. -/
def earlierCommand (other : Bool) : CString :=
  shellWith [120, 121, bif other then 123 else 122] (by cases other <;> decide)

/-- The command with the argument `"a"`. -/
def laterCommand : CString :=
  shellWith [97] (by decide)

/-- The root shell starts a second one with one of the two arguments; that one
halts, and a third one takes its slot. -/
def reuseTrace (other : Bool) : List (SystemEvent × SystemReply) :=
  [(.process (.bootLaunch { esp := 0, ebp := 0 } fun _ => 0),
      .process none (.launched (.started 1 0))),
    (.process (.execute { esp := 64, ebp := 96 } (fun _ => 0) (some (earlierCommand other))),
      .process (some 1) (.executed (.started 2 0))),
    (.process (.halt (fun _ => 0) 0),
      .process (some 2) (.halted (.returned 0 { esp := 64, ebp := 96 }))),
    (.process (.execute { esp := 64, ebp := 96 } (fun _ => 0) (some laterCommand)),
      .process (some 1) (.executed (.started 2 0)))]

theorem reuseTrace_run (other : Bool) : ∃ final,
    GuardedRun systemStep commandsFit shellKernel (reuseTrace other) final ∧
    final.userProcess = some 2 ∧
    (getargs final 2 0x8000000 4).stores =
      storesAt 0x8000000 [97, 0, bif other then 123 else 122, 0] := by
  obtain ⟨first, second, third, fourth, launched, started, halted, restarted, isUser, stores⟩ :
      ∃ first second third fourth,
        systemStep shellKernel (.process (.bootLaunch { esp := 0, ebp := 0 } fun _ => 0)) =
          some (.process none (.launched (.started 1 0)), first) ∧
        systemStep first (.process (.execute { esp := 64, ebp := 96 } (fun _ => 0)
          (some (earlierCommand other)))) =
            some (.process (some 1) (.executed (.started 2 0)), second) ∧
        systemStep second (.process (.halt (fun _ => 0) 0)) =
          some (.process (some 2) (.halted (.returned 0 { esp := 64, ebp := 96 })), third) ∧
        systemStep third (.process (.execute { esp := 64, ebp := 96 } (fun _ => 0)
          (some laterCommand))) =
            some (.process (some 1) (.executed (.started 2 0)), fourth) ∧
        fourth.userProcess = some 2 ∧
        (getargs fourth 2 0x8000000 4).stores =
          storesAt 0x8000000 [97, 0, bif other then 123 else 122, 0] := by
    cases other with
    | false => exact ⟨_, _, _, _, rfl, rfl, rfl, rfl, rfl, rfl⟩
    | true => exact ⟨_, _, _, _, rfl, rfl, rfl, rfl, rfl, rfl⟩
  have earlierFits : CommandFits (earlierCommand other) := by
    cases other with
    | false => exact ⟨by decide, by decide⟩
    | true => exact ⟨by decide, by decide⟩
  have laterFits : CommandFits laterCommand := ⟨by decide, by decide⟩
  exact ⟨fourth, .cons ⟨by trivial, by trivial⟩ launched
    (.cons ⟨earlierFits, by trivial⟩ started (.cons ⟨by trivial, by trivial⟩ halted
      (.cons ⟨laterFits, by trivial⟩ restarted (.nil fourth)))), isUser, stores⟩

theorem reuseTrace_command (other : Bool) :
    observed commandsAfter (fun _ => none) (reuseTrace other) 2 = some laterCommand := by
  cases other with
  | false => rfl
  | true => rfl

/-- The third shell reads `"a"` and its terminator alike in both runs. -/
theorem getargs_tells_own_reuse : ∃ first second reply firstAfter secondAfter,
    GuardedRun systemStep commandsFit shellKernel (reuseTrace false) first ∧
    GuardedRun systemStep commandsFit shellKernel (reuseTrace true) second ∧
    systemStep first (.call (fun _ => 0) (.getargs 0x8000000 2)) =
      some (.call reply, firstAfter) ∧
    systemStep second (.call (fun _ => 0) (.getargs 0x8000000 2)) =
      some (.call reply, secondAfter) := by
  obtain ⟨first, firstRun, firstUser, -⟩ := reuseTrace_run false
  obtain ⟨second, secondRun, secondUser, -⟩ := reuseTrace_run true
  have user : ∀ k, k < (2 : Int).toNat → UserAddress ((0x8000000 + k) % 4294967296) := by
    intro k inside
    left
    unfold InUserPage userPageStart userPageEnd
    omega
  obtain ⟨reply, firstAfter, secondAfter, same⟩ := getargs_tells_own firstRun secondRun
    (reuseTrace_command false) (reuseTrace_command true) firstUser secondUser (fun _ => 0)
    (fun _ => 0) (by decide) (.inr (by decide)) user
  exact ⟨first, second, reply, firstAfter, secondAfter, firstRun, secondRun, same⟩

/-- A process that asks for more gets the rest of an earlier argument. -/
theorem staleArgument_leaks :
    ¬ ∀ (firstTrace secondTrace : List (SystemEvent × SystemReply)) (first second : Kernel)
      (pid : Nat) (command : CString) (buf : Nat) (nbytes : Int),
      Run systemStep shellKernel firstTrace first →
      Run systemStep shellKernel secondTrace second →
      SameButArguments firstTrace secondTrace →
      observed commandsAfter (fun _ => none) firstTrace pid = some command →
      observed commandsAfter (fun _ => none) secondTrace pid = some command →
      first.userProcess = some pid → second.userProcess = some pid →
      0 ≤ nbytes → nbytes ≤ 4096 →
      (getargs first pid buf nbytes).value = (getargs second pid buf nbytes).value ∧
        (getargs first pid buf nbytes).stores = (getargs second pid buf nbytes).stores := by
  intro tellsOwn
  obtain ⟨first, firstRun, firstUser, firstStores⟩ := reuseTrace_run false
  obtain ⟨second, secondRun, secondUser, secondStores⟩ := reuseTrace_run true
  have paired : SameButArguments (reuseTrace false) (reuseTrace true) := by
    exact .cons ⟨.same _, rfl⟩ (.cons ⟨.execute _ _ _ _ rfl, rfl⟩ (.cons ⟨.same _, rfl⟩
      (.cons ⟨.same _, rfl⟩ .nil)))
  have same := (tellsOwn _ _ first second 2 laterCommand 0x8000000 4 firstRun.unguarded
    secondRun.unguarded paired (reuseTrace_command false) (reuseTrace_command true) firstUser
    secondUser (by decide) (by decide)).2
  rw [firstStores, secondStores] at same
  exact absurd same (by decide)

end PonyOS.Syscall
