import PonyOS.Syscall.Arguments
import PonyOS.Syscall.Directory

/-!
# From the command line to the arguments

`execute_with_terminal_num` takes a command apart with three loops over one
index: up to the first blank, over the blanks, and to the end.  What the last
loop copied is what `getargs` hands out, in the new process and until it ends,
whatever the other processes execute meanwhile.  `getargs` does not look at the
length of what it copies, so it answers `0` also when the caller's buffer ends
before the terminator.
-/

namespace PonyOS.Syscall

open PonyOS.FileSystem
open PonyOS.Lib.Transition
open PonyOS.Lib.Word
open PonyOS.Paging
open PonyOS.Process
open PonyOS.Terminal

/-- The bytes before the first blank. -/
def nameOf (chars : List UInt8) : List UInt8 :=
  chars.takeWhile (· ≠ 32)

/-- What remains after the blanks that end the name. -/
def argumentsOf (chars : List UInt8) : List UInt8 :=
  (chars.dropWhile (· ≠ 32)).dropWhile (· = 32)

/-! ## The loops of the source -/

/-- The loop `for(;i<strlen(command);i++) if(stop(command[i])) break;`. -/
def scanCommand (command : CString) (stop : UInt8 → Bool) : Nat → Nat → Nat
  | 0, i => i
  | fuel + 1, i =>
      if i < command.chars.length then
        if stop (command.charAt i) then i else scanCommand command stop fuel (i + 1)
      else i

/-- The loop that copies from index `i` of the command on, and the terminator. -/
def copyArgument (command : CString) : Nat → (Nat → UInt8) → Nat → Nat → Nat → UInt8
  | 0, argBuf, _, cnt => Function.update argBuf cnt 0
  | fuel + 1, argBuf, i, cnt =>
      if i < command.chars.length then
        copyArgument command fuel (Function.update argBuf cnt (command.charAt i)) (i + 1) (cnt + 1)
      else Function.update argBuf cnt 0

theorem drop_eq_charAt_cons (command : CString) {i : Nat} (inside : i < command.chars.length) :
    command.chars.drop i = command.charAt i :: command.chars.drop (i + 1) := by
  rw [List.drop_eq_getElem_cons inside, CString.charAt, List.getD_eq_getElem?_getD,
    List.getElem?_eq_getElem inside, Option.getD_some]

/-- The loop stops in front of what is left of the command. -/
theorem drop_scanCommand (command : CString) (stop : UInt8 → Bool) (fuel i : Nat)
    (enough : command.chars.length ≤ fuel + i) :
    command.chars.drop (scanCommand command stop fuel i) =
      (command.chars.drop i).dropWhile fun c => !stop c := by
  induction fuel generalizing i with
  | zero =>
      have ended : command.chars.drop i = [] := List.drop_eq_nil_iff.mpr (by omega)
      rw [scanCommand, ended]
      rfl
  | succ fuel ih =>
      rw [scanCommand]
      by_cases inside : i < command.chars.length
      · rw [if_pos inside]
        cases stops : stop (command.charAt i) with
        | true =>
            rw [if_pos rfl, drop_eq_charAt_cons command inside]
            simp [stops]
        | false =>
            rw [if_neg (by decide), ih (i + 1) (by omega), drop_eq_charAt_cons command inside]
            simp [stops]
      · have ended : command.chars.drop i = [] := List.drop_eq_nil_iff.mpr (by omega)
        rw [if_neg inside, ended]
        rfl

theorem scanCommand_le (command : CString) (stop : UInt8 → Bool) (fuel i : Nat)
    (inside : i ≤ command.chars.length) :
    scanCommand command stop fuel i ≤ command.chars.length := by
  induction fuel generalizing i with
  | zero => exact inside
  | succ fuel ih =>
      rw [scanCommand]
      split
      · next before =>
          split
          · exact inside
          · exact ih (i + 1) before
      · exact inside

theorem putString_cons (buffer : Nat → UInt8) (offset : Nat) (char : UInt8) (rest : List UInt8) :
    putString buffer offset (char :: rest) =
      putString (Function.update buffer offset char) (offset + 1) rest := by
  funext k
  simp only [putString, List.length_cons]
  by_cases first : k = offset
  · rw [if_pos (by omega), if_neg (by omega), first, Function.update_self, Nat.sub_self]
    rfl
  · rw [Function.update_of_ne first]
    by_cases inside : offset + 1 ≤ k ∧ k ≤ offset + 1 + rest.length
    · have position : k - offset = k - (offset + 1) + 1 := by omega
      rw [if_pos (by omega), if_pos inside, position, List.getD_cons_succ]
    · rw [if_neg (by omega), if_neg inside]

theorem putString_nil (buffer : Nat → UInt8) (offset : Nat) :
    putString buffer offset [] = Function.update buffer offset 0 := by
  funext k
  by_cases here : k = offset
  · rw [here, Function.update_self, putString, if_pos (by simp)]
    rfl
  · rw [Function.update_of_ne here, putString, if_neg (by simp only [List.length_nil]; omega)]

/-- The loop copies what is left of the command. -/
theorem copyArgument_eq (command : CString) (fuel : Nat) (argBuf : Nat → UInt8) (i cnt : Nat)
    (enough : command.chars.length ≤ fuel + i) :
    copyArgument command fuel argBuf i cnt = putString argBuf cnt (command.chars.drop i) := by
  induction fuel generalizing argBuf i cnt with
  | zero =>
      rw [copyArgument, List.drop_eq_nil_iff.mpr (by omega), putString_nil]
  | succ fuel ih =>
      rw [copyArgument]
      by_cases inside : i < command.chars.length
      · rw [if_pos inside, ih _ _ _ (by omega), drop_eq_charAt_cons command inside,
          putString_cons]
      · rw [if_neg inside, List.drop_eq_nil_iff.mpr (by omega), putString_nil]

theorem programName_chars (command : CString) :
    (programName command).chars = nameOf command.chars := by
  rw [nameOf, List.takeWhile_eq_take_findIdx_not]
  simp [programName, nameEnd]

theorem argumentText_eq (command : CString) :
    argumentText command = argumentsOf command.chars := by
  rw [argumentsOf, List.dropWhile_eq_drop_findIdx_not (p := fun c => decide (c ≠ 32))]
  simp [argumentText, nameEnd]

/-- The three loops, one after the other, copy the name and the argument. -/
theorem commandLoops_eq (command : CString) (argBuf : Nat → UInt8) (row : Nat) :
    let nameLength := scanCommand command (· = 32) command.chars.length 0
    let argumentStart := scanCommand command (· ≠ 32) command.chars.length nameLength
    nameLength = nameEnd command ∧
      copyArgument command command.chars.length argBuf argumentStart row =
        putString argBuf row (argumentText command) := by
  have nameEq : scanCommand command (· = 32) command.chars.length 0 = nameEnd command := by
    have dropped := drop_scanCommand command (· = 32) command.chars.length 0 (Nat.le_refl _)
    rw [List.drop_zero, List.dropWhile_eq_drop_findIdx_not] at dropped
    have lengths := congrArg List.length dropped
    rw [List.length_drop, List.length_drop] at lengths
    have scanned := scanCommand_le command (· = 32) command.chars.length 0 (Nat.zero_le _)
    have found : nameEnd command ≤ command.chars.length := List.findIdx_le_length
    simp only [Bool.not_not] at lengths
    unfold nameEnd at found ⊢
    omega
  have skipped := drop_scanCommand command (· ≠ 32) command.chars.length (nameEnd command)
    (Nat.le_add_right _ _)
  simp only [nameEq]
  refine ⟨trivial, ?_⟩
  rw [copyArgument_eq _ _ _ _ _ (Nat.le_add_right _ _), skipped]
  simp [argumentText]

/-! ## The argument of a running process -/

/-- The row of a running process holds the argument of its command, and the flag
says whether there is one. -/
structure ArgumentKept (kernel : Kernel) (pid : Nat) (command : CString) : Prop where
  running : kernel.processStatus pid = true
  available : kernel.argAvailable pid = decide (argumentText command ≠ [])
  row : RowHolds kernel pid (argumentText command)

/-- An event that does not end a process. -/
def LeavesRunning (pid : Nat) (reply : SystemReply) : Prop :=
  ∀ answer, reply = .process (some pid) answer → endsProcess answer = false

/-- An event leaves the argument of a process alone: the process goes on, and a
command that the event executes is stored off the bytes of the argument. -/
structure LeavesArgument (pid length : Nat) (kernel : Kernel) (event : SystemEvent)
    (reply : SystemReply) : Prop where
  alive : LeavesRunning pid reply
  off : ∀ started command slot, event = .process started →
    startedCommand started = some command → kernel.getEmptyPid = some slot →
    maxArgSize * slot + (argumentText command).length < maxArgSize * pid ∨
      maxArgSize * pid + length < maxArgSize * slot

/-- Every command that an event executes is shorter than a row, and the process
goes on. -/
structure LaterShort (pid : Nat) (_kernel : Kernel) (event : SystemEvent)
    (reply : SystemReply) : Prop where
  alive : LeavesRunning pid reply
  short : ∀ registers tempBuf command,
    event = .process (.execute registers tempBuf (some command)) →
    command.chars.length < maxArgSize

/-- What an event does to the argument buffer: nothing, or the copy of its
command into the first free row. -/
theorem processStep_argBuf {kernel target : Kernel} {event : ProcessEvent} {reply : ProcessReply}
    (stepped : processStep kernel event = some (reply, target)) :
    target.argBuf = kernel.argBuf ∨
      ∃ command slot, startedCommand event = some command ∧ kernel.getEmptyPid = some slot ∧
        target.argBuf = putString kernel.argBuf (maxArgSize * slot) (argumentText command) := by
  have executed : ∀ {source : Kernel} {registers : Registers} {tempBuf : Nat → UInt8}
      {command : Option CString} {terminalNum : Nat} {isTerminal : Int} {outcome : ExecuteReply},
      executeWithTerminalNum source registers tempBuf command terminalNum isTerminal =
        some (outcome, target) → target.argBuf = source.argBuf ∨
        ∃ text slot, command = some text ∧ source.getEmptyPid = some slot ∧
          target.argBuf = putString source.argBuf (maxArgSize * slot) (argumentText text) := by
    intro source registers tempBuf command terminalNum isTerminal outcome ended
    rcases executeWithTerminalNum_cases ended with
      ⟨-, fname, rfl⟩ | ⟨text, slot, isCommand, found, ⟨-, -, -, rfl⟩ | ⟨entry, -, rfl⟩⟩
    · exact .inl rfl
    · exact .inr ⟨text, slot, isCommand, found, rfl⟩
    · rw [Kernel.startProcess_eq]
      exact .inr ⟨text, slot, isCommand, found, rfl⟩
  cases processStep_moved stepped with
  | launched registers tempBuf outcome noCurrent ended => exact executed ended
  | executed caller registers tempBuf command outcome isUser ended => exact executed ended
  | halted caller tempBuf status outcome isUser ended =>
      rcases halt_cases (Kernel.userProcess_eq_some.mp isUser).1 ended with
        ⟨-, entry, -, rfl⟩ | ⟨-, -, -, rfl⟩ | ⟨-, -, parent, -, -, rfl⟩
      · exact .inl rfl
      · exact .inl rfl
      · exact .inl rfl
  | cleared isClearing targetEq =>
      rw [targetEq]
      exact .inl kernel.clearScreen_argBuf
  | keyed registers tempBuf c outcome ended =>
      obtain ⟨result, -, ⟨-, -, rfl⟩ | ⟨terminalId, started, -, -, launched⟩⟩ :=
        keyboardInterrupt_cases ended
      · exact .inl rfl
      · have ran := executed launched
        exact ran
  | ticked registers loaded ended =>
      rcases pitHandler_cases ended with ⟨-, rfl⟩ | ⟨previous, pid, -, -, -, -, rfl, -⟩
      · exact .inl rfl
      · exact .inl rfl

theorem range_map_getD (text : List UInt8) :
    (List.range (text.length + 1)).map (fun k => text.getD k 0) = text ++ [0] := by
  rw [List.range_succ, List.map_append]
  congr 1
  · apply List.ext_getElem?
    intro k
    by_cases inside : k < text.length
    · simp [inside]
    · rw [List.getElem?_eq_none (by simp; omega), List.getElem?_eq_none (by omega)]
  · simp

namespace ArgumentKept

variable {kernel target : Kernel} {pid : Nat} {command : CString}

/-- A start leaves the argument of its own command. -/
theorem of_claims (claims : Claims kernel target pid command) :
    ArgumentKept target pid command := by
  constructor
  · rw [claims.status, Function.update_self]
  · rw [claims.argAvailable, Function.update_self]
  · exact claims.rowHolds

theorem of_same (kept : ArgumentKept kernel pid command)
    (running : target.processStatus pid = kernel.processStatus pid)
    (available : target.argAvailable pid = kernel.argAvailable pid)
    (row : ∀ k, k ≤ (argumentText command).length →
      target.argBuf (maxArgSize * pid + k) = kernel.argBuf (maxArgSize * pid + k)) :
    ArgumentKept target pid command := by
  constructor
  · exact running.trans kept.running
  · exact available.trans kept.available
  · intro k inside
    exact (row k inside).trans (kept.row k inside)

theorem process (kept : ArgumentKept kernel pid command) (accounted : kernel.Accounted)
    {event : ProcessEvent} {reply : ProcessReply}
    (leaves : LeavesArgument pid (argumentText command).length kernel (.process event)
      (.process kernel.userProcess reply))
    (stepped : processStep kernel event = some (reply, target)) :
    ArgumentKept target pid command := by
  have row : ∀ k, k ≤ (argumentText command).length →
      target.argBuf (maxArgSize * pid + k) = kernel.argBuf (maxArgSize * pid + k) := by
    intro k inside
    rcases processStep_argBuf stepped with same | ⟨other, slot, isCommand, found, argBuf⟩
    · rw [same]
    · have off := leaves.off event other slot rfl isCommand found
      rw [argBuf, putString, if_neg (by omega)]
  cases processStep_arguments accounted stepped with
  | claimed slot other isCommand claims isStarted alive =>
      have isOld : pid ≠ slot := by
        rintro rfl
        have taken := kept.running
        rw [claims.free] at taken
        contradiction
      exact kept.of_same (claims.otherStatus isOld) (claims.otherAvailable isOld) row
  | kept argBuf argAvailable notStarted status =>
      rcases status pid with same | ⟨-, isCaller, ends⟩
      · exact kept.of_same same (congrFun argAvailable pid) row
      · have goesOn := leaves.alive reply (by rw [isCaller])
        rw [ends] at goesOn
        contradiction

theorem step (kept : ArgumentKept kernel pid command) (accounted : kernel.Accounted)
    {event : SystemEvent} {reply : SystemReply}
    (leaves : LeavesArgument pid (argumentText command).length kernel event reply)
    (stepped : systemStep kernel event = some (reply, target)) :
    ArgumentKept target pid command := by
  cases systemStep_cases stepped with
  | process event answer moved => exact kept.process accounted leaves moved
  | call caller memory asked answer isUser called =>
      have same := KeepsProcesses.systemCall called
      apply kept.of_same
      · exact congrFun (congrArg ProcessTable.running same.table) pid
      · exact congrFun same.argAvailable pid
      · exact fun k _ => congrFun same.argBuf _
  | rtc targetEq =>
      subst targetEq
      exact kept.of_same rfl rfl fun k _ => rfl

theorem run (kept : ArgumentKept kernel pid command) (accounted : kernel.Accounted)
    {guard : Kernel → SystemEvent → SystemReply → Prop}
    (leaves : ∀ state event reply, ArgumentKept state pid command → guard state event reply →
      LeavesArgument pid (argumentText command).length state event reply)
    {trace : List (SystemEvent × SystemReply)}
    (later : GuardedRun systemStep guard kernel trace target) :
    ArgumentKept target pid command := by
  have both : target.Accounted ∧ ArgumentKept target pid command := by
    apply later.invariant (P := fun kernel => kernel.Accounted ∧ ArgumentKept kernel pid command)
    · rintro state event reply next ⟨accounted, kept⟩ guarded stepped
      have left := leaves state event reply kept guarded
      exact ⟨accounted_systemStep accounted stepped, kept.step accounted left stepped⟩
    · exact ⟨accounted, kept⟩
  exact both.2

/-- With room for the terminator the buffer starts with the whole argument. -/
theorem delivered (kept : ArgumentKept kernel pid command) (memory : Memory) (buf : Nat)
    {count : Nat} (room : (argumentText command).length < count) (small : count < 2147483648) :
    bytesAt (memoryAfter memory (storesAt buf ((List.range count).map
        fun k => kernel.argBuf (maxArgSize * pid + k)))) buf ((argumentText command).length + 1) =
      argumentText command ++ [0] := by
  rw [← range_map_getD]
  apply List.map_congr_left
  intro k member
  have inside := List.mem_range.mp member
  rw [load_memoryAfter memory buf _ (by simp; omega) (by simp; omega), ← kept.row k (by omega)]
  have inCount : k < count := by omega
  simp [inCount]

end ArgumentKept

/-! ## The round trip -/

theorem argumentText_length_le (command : CString) :
    (argumentText command).length ≤ command.chars.length := by
  have suffix := (List.dropWhile_suffix
    (l := command.chars.drop (nameEnd command)) fun c => decide (c = 32)).length_le
  have dropped := List.length_drop (l := command.chars) (i := nameEnd command)
  unfold argumentText
  omega

/-- Commands that are shorter than a row stay off the argument of a process that
was started with one. -/
theorem LaterShort.leavesArgument {kernel : Kernel} {pid : Nat} {command : CString}
    {event : SystemEvent} {reply : SystemReply} (later : LaterShort pid kernel event reply)
    (running : kernel.processStatus pid = true)
    (fits : (argumentText command).length < maxArgSize) :
    LeavesArgument pid (argumentText command).length kernel event reply := by
  refine ⟨later.alive, ?_⟩
  rintro started other slot rfl isCommand found
  have otherFits : (argumentText other).length < maxArgSize := by
    cases started with
    | bootLaunch registers tempBuf =>
        cases isCommand
        decide
    | execute registers tempBuf text =>
        cases isCommand
        exact Nat.lt_of_le_of_lt (argumentText_length_le other) (later.short _ _ other rfl)
    | halt tempBuf status => contradiction
    | clear => contradiction
    | key registers tempBuf c =>
        cases isCommand
        decide
    | tick registers => contradiction
  have distinct : slot ≠ pid := by
    rintro rfl
    rw [(Kernel.getEmptyPid_eq_some found).2.2] at running
    contradiction
  unfold maxArgSize at *
  omega

/-- The accounts hold in every state that is reached. -/
theorem accounted_of_run {fs : Volume} {paging : PageTables} {screen : Memory}
    {printBuffer argBuf fname : Nat → UInt8} {currentDirReadIndex : Int}
    {history : List (SystemEvent × SystemReply)} {kernel : Kernel}
    (reached : Run systemStep
      (Kernel.boot fs paging screen printBuffer argBuf fname currentDirReadIndex) history kernel) :
    kernel.Accounted := by
  apply reached.invariant (P := Kernel.Accounted)
  · intro state event reply next accounted _ stepped
    exact accounted_systemStep accounted stepped
  · exact Kernel.Accounted.boot ..

/-- An execution that starts a process has found the name. -/
theorem readDentryByName_of_started {kernel target : Kernel} {registers : Registers}
    {tempBuf : Nat → UInt8} {command : CString} {terminalNum pid entry : Nat} {isTerminal : Int}
    (started : executeWithTerminalNum kernel registers tempBuf (some command) terminalNum
      isTerminal = some (.started pid entry, target)) :
    kernel.fs.readDentryByName (programName command) ≠ none := by
  intro missing
  simp [executeWithTerminalNum, missing] at started

/-- The command line comes back: the program looked up is what precedes the
first blank, and as long as the process runs and other commands are shorter than
a row, `getargs` delivers what follows the blanks, or refuses if nothing does. -/
theorem commandLine_roundTrip {fs : Volume} {paging : PageTables} {screen : Memory}
    {printBuffer argBuf fname : Nat → UInt8} {currentDirReadIndex : Int}
    {history trace : List (SystemEvent × SystemReply)} {kernel target final : Kernel}
    (reached : Run systemStep
      (Kernel.boot fs paging screen printBuffer argBuf fname currentDirReadIndex) history kernel)
    {registers : Registers} {tempBuf : Nat → UInt8} {command : CString}
    {terminalNum pid entry : Nat} {isTerminal : Int}
    (started : executeWithTerminalNum kernel registers tempBuf (some command) terminalNum
      isTerminal = some (.started pid entry, target))
    (short : command.chars.length < maxArgSize)
    (later : GuardedRun systemStep (LaterShort pid) target trace final) :
    (kernel.fs.readDentryByName (programName command) ≠ none ∧
        (programName command).chars = nameOf command.chars ∧
        ∀ k, k ≤ (nameOf command.chars).length →
          target.fname k = (nameOf command.chars).getD k 0) ∧
      (argumentsOf command.chars = [] →
        ∀ buf nbytes, (getargs final pid buf nbytes).value = -1) ∧
      (argumentsOf command.chars ≠ [] →
        ∀ (memory : Memory) (buf : Nat) (nbytes : Int), buf ≠ 0 →
          (argumentsOf command.chars).length + 1 ≤ nbytes → nbytes ≤ 4096 →
          (getargs final pid buf nbytes).value = 0 ∧
            bytesAt (memoryAfter memory (getargs final pid buf nbytes).stores) buf
                ((argumentsOf command.chars).length + 1) =
              argumentsOf command.chars ++ [0]) := by
  obtain ⟨claims, fnameEq⟩ := Claims.of_started started
  have fits := Nat.lt_of_le_of_lt (argumentText_length_le command) short
  have accounted := (accounted_of_run reached).execute started
  have kept := (ArgumentKept.of_claims claims).run accounted
    (fun _ _ _ kept short => short.leavesArgument kept.running fits) later
  refine ⟨⟨readDentryByName_of_started started, programName_chars command, ?_⟩, ?_, ?_⟩
  · intro k inside
    rw [fnameEq, programName_chars, putString, if_pos (by omega), Nat.sub_zero]
  · intro empty buf nbytes
    rw [← argumentText_eq] at empty
    rcases getargs_cases kept.available buf nbytes with ⟨-, value, -⟩ | ⟨⟨-, nonempty⟩, -⟩
    · exact value
    · exact absurd empty nonempty
  · intro nonempty memory buf nbytes notNull room atMost
    rw [← argumentText_eq] at nonempty room ⊢
    have count : uint32 nbytes = nbytes.toNat := by
      unfold uint32
      omega
    rcases getargs_cases kept.available buf nbytes with ⟨null | empty, -⟩ | ⟨-, value, stores⟩
    · exact absurd null notNull
    · exact absurd empty nonempty
    · refine ⟨value, ?_⟩
      rw [stores]
      exact kept.delivered memory buf (by omega) (by omega)

/-- The root shell starts a second one with the argument `"xyz"`. -/
theorem secondShell_xyz : ∃ first second,
    systemStep shellKernel (.process (.bootLaunch { esp := 0, ebp := 0 } fun _ => 0)) =
        some (.process none (.launched (.started 1 0)), first) ∧
      executeWithTerminalNum first { esp := 64, ebp := 96 } (fun _ => 0)
        (some (earlierCommand false)) 0 0 = some (.started 2 0, second) :=
  ⟨_, _, rfl, rfl⟩

/-- The second shell reads its argument. -/
theorem commandLine_roundTrip_xyz : ∃ first second,
    systemStep shellKernel (.process (.bootLaunch { esp := 0, ebp := 0 } fun _ => 0)) =
        some (.process none (.launched (.started 1 0)), first) ∧
      executeWithTerminalNum first { esp := 64, ebp := 96 } (fun _ => 0)
        (some (earlierCommand false)) 0 0 = some (.started 2 0, second) ∧
      (getargs second 2 0x8000000 4).value = 0 ∧
      bytesAt (memoryAfter (fun _ => 0) (getargs second 2 0x8000000 4).stores) 0x8000000 4 =
        [120, 121, 122, 0] := by
  obtain ⟨first, second, launched, started⟩ := secondShell_xyz
  have delivered := (commandLine_roundTrip (.cons trivial launched (.nil first)) started
    (by decide) (.nil second)).2.2 (by decide) (fun _ => 0) 0x8000000 4 (by decide) (by decide)
    (by decide)
  exact ⟨first, second, launched, started, delivered⟩

/-! ## Short buffers -/

/-- `getargs` answers `0` only with the whole argument and its terminator in the
buffer, and refuses without a store if they do not fit. -/
def AnswersCompletely (arguments : List UInt8) (memory : Memory) (buf : Nat) (nbytes : Int)
    (tried : Attempt) : Prop :=
  (tried.value = 0 → arguments.length + 1 ≤ nbytes ∧
      bytesAt (memoryAfter memory tried.stores) buf (arguments.length + 1) = arguments ++ [0]) ∧
    (nbytes < arguments.length + 1 → tried.value = -1 ∧ tried.stores = [])

/-- As long as the argument is left alone, `getargs` answers completely exactly
if it refuses anyway or the buffer has room for the terminator. -/
theorem getargs_complete_iff {fs : Volume} {paging : PageTables} {screen : Memory}
    {printBuffer argBuf fname : Nat → UInt8} {currentDirReadIndex : Int}
    {history trace : List (SystemEvent × SystemReply)} {kernel target final : Kernel}
    (reached : Run systemStep
      (Kernel.boot fs paging screen printBuffer argBuf fname currentDirReadIndex) history kernel)
    {registers : Registers} {tempBuf : Nat → UInt8} {command : CString}
    {terminalNum pid entry : Nat} {isTerminal : Int}
    (started : executeWithTerminalNum kernel registers tempBuf (some command) terminalNum
      isTerminal = some (.started pid entry, target))
    (later : GuardedRun systemStep (LeavesArgument pid (argumentText command).length) target trace
      final)
    (memory : Memory) (buf : Nat) (nbytes : Int) (nonneg : 0 ≤ nbytes)
    (small : nbytes < 2147483648) :
    AnswersCompletely (argumentsOf command.chars) memory buf nbytes
        (getargs final pid buf nbytes) ↔
      buf = 0 ∨ argumentsOf command.chars = [] ∨
        ((argumentsOf command.chars).length : Int) < nbytes := by
  have accounted := (accounted_of_run reached).execute started
  have kept := (ArgumentKept.of_claims (Claims.of_started started).1).run accounted
    (fun _ _ _ _ leaves => leaves) later
  have count : uint32 nbytes = nbytes.toNat := by
    unfold uint32
    omega
  rw [← argumentText_eq]
  rcases getargs_cases kept.available buf nbytes with
    ⟨refuses, value, stores⟩ | ⟨⟨notNull, nonempty⟩, value, stores⟩
  · constructor
    · intro _
      rcases refuses with null | empty
      · exact .inl null
      · exact .inr (.inl empty)
    · intro _
      constructor
      · intro succeeds
        rw [value] at succeeds
        contradiction
      · intro _
        exact ⟨value, stores⟩
  · constructor
    · intro complete
      right
      right
      by_contra noRoom
      have refuses := (complete.2 (by omega)).1
      rw [value] at refuses
      contradiction
    · rintro (null | empty | room)
      · exact absurd null notNull
      · exact absurd empty nonempty
      · constructor
        · intro _
          refine ⟨by omega, ?_⟩
          rw [stores]
          exact kept.delivered memory buf (by omega) (by omega)
        · intro noRoom
          omega

/-- The second shell asks for its argument with a buffer of four bytes. -/
theorem getargs_complete_xyz : ∃ first second,
    systemStep shellKernel (.process (.bootLaunch { esp := 0, ebp := 0 } fun _ => 0)) =
        some (.process none (.launched (.started 1 0)), first) ∧
      executeWithTerminalNum first { esp := 64, ebp := 96 } (fun _ => 0)
        (some (earlierCommand false)) 0 0 = some (.started 2 0, second) ∧
      AnswersCompletely [120, 121, 122] (fun _ => 0) 0x8000000 4
        (getargs second 2 0x8000000 4) := by
  obtain ⟨first, second, launched, started⟩ := secondShell_xyz
  have complete := (getargs_complete_iff (.cons trivial launched (.nil first)) started
    (.nil second) (fun _ => 0) 0x8000000 4 (by decide) (by decide)).mpr
    (.inr (.inr (by decide)))
  exact ⟨first, second, launched, started, complete⟩

/-- With a buffer of two bytes it gets `0` and no terminator. -/
theorem getargs_truncates : ∃ first second,
    systemStep shellKernel (.process (.bootLaunch { esp := 0, ebp := 0 } fun _ => 0)) =
        some (.process none (.launched (.started 1 0)), first) ∧
      executeWithTerminalNum first { esp := 64, ebp := 96 } (fun _ => 0)
        (some (earlierCommand false)) 0 0 = some (.started 2 0, second) ∧
      (getargs second 2 0x8000000 2).value = 0 ∧
      (getargs second 2 0x8000000 2).stores = storesAt 0x8000000 [120, 121] ∧
      ¬ AnswersCompletely [120, 121, 122] (fun _ => 0) 0x8000000 2
        (getargs second 2 0x8000000 2) := by
  refine ⟨_, _, rfl, rfl, rfl, rfl, ?_⟩
  rintro ⟨-, refuses⟩
  have refused := (refuses (by decide)).1
  contradiction

end PonyOS.Syscall
